import OpenOmni.Gate.PolicyEvaluation
import OpenOmni.Lib.Results
import OpenOmni.Loop.Wave

/-! The judgment at the end of a model step: what the turn has repeated, and whether it goes on. -/
namespace OpenOmni
namespace StopLoop
open PlainValue

inductive StopMetric where
  | exactRepeat | toollessStall | blockedRecurrence | continuation

def StopMetric.text : StopMetric → String
  | .exactRepeat => "exact_repeat"
  | .toollessStall => "toolless_stall"
  | .blockedRecurrence => "blocked_recurrence"
  | .continuation => "continuation"

def StopMetric.op : StopMetric → String
  | .continuation => "continue"
  | metric => metric.text

structure StopObservation where
  text : String
  toolCalls : ℕ
  calls : List (String × PlainValue) := []
  continueRequested : Bool := false
  interrupted : Bool
  exhausted : Bool
  progress : Bool
  blocked : Bool
  openIntent : List String := []
  alarmIds : List String := []

structure StopState where
  outputHash : Option String
  repetition : ℕ
  stall : ℕ
  blocked : ℕ
  continuation : ℕ

inductive StopVerdict where
  | interrupted
  | result
  | waiting (alarmIds : List String)
  | «continue»
  /-- The reason is `budget` or the text of a metric. -/
  | error (reason : String)

def stopState : StopState := ⟨none, 0, 0, 0, 0⟩

section
variable [PlainCoding]

def outputHash (observation : StopObservation) : String :=
  canonicalDigest (record [("text", some (.str observation.text)),
    ("calls", some (.arr (observation.calls.map fun call =>
      record [("tool", some (.str call.1)), ("input", some call.2)])))])

def advanceStopState (previous : StopState) (observation : StopObservation) : StopState where
  outputHash := some (outputHash observation)
  repetition :=
    if observation.progress then 0
    else if some (outputHash observation) = previous.outputHash then previous.repetition + 1 else 1
  stall := if observation.progress ∨ 0 < observation.toolCalls then 0 else previous.stall + 1
  blocked := if observation.blocked ∧ ¬ observation.progress then previous.blocked + 1 else 0
  continuation := previous.continuation + 1

def completionEligible (observation : StopObservation) : Bool :=
  observation.text ≠ "" && observation.toolCalls = 0 && !observation.continueRequested

/-- Whether a step that spoke its last word may end the turn; the policy is asked of no other step. -/
def completes (observation : StopObservation) (completion : Except ExecutionError Bool) : Except ExecutionError Bool :=
  if completionEligible observation then
    completion.map fun permitted => permitted && observation.openIntent.isEmpty && !observation.blocked
  else .ok false

def unlessReached (limit : StopMetric → Except ExecutionError ℕ) (metric : StopMetric) (count : ℕ)
    (rest : Except ExecutionError StopVerdict) : Except ExecutionError StopVerdict := do
  if (← limit metric) ≤ count then return .error metric.text else rest

/-- The checks of the counts, in their order. A limit is asked for only when no check before it has decided. -/
def verdictOfCounts (state : StopState) (alarmIds : List String) (limit : StopMetric → Except ExecutionError ℕ) :
    Except ExecutionError StopVerdict :=
  unlessReached limit .exactRepeat state.repetition <|
    unlessReached limit .toollessStall state.stall <|
      unlessReached limit .blockedRecurrence state.blocked <|
        if alarmIds ≠ [] then .ok (.waiting alarmIds)
        else unlessReached limit .continuation state.continuation (.ok .continue)

def verdictOf (state : StopState) (observation : StopObservation) (limit : StopMetric → Except ExecutionError ℕ)
    (completion : Except ExecutionError Bool) : Except ExecutionError StopVerdict :=
  if observation.interrupted then .ok .interrupted
  else if observation.exhausted then .ok (.error "budget")
  else do
    if ← completes observation completion then return .result
    verdictOfCounts state observation.alarmIds limit

def judgeStop (previous : StopState) (observation : StopObservation)
    (limit : StopMetric → Except ExecutionError ℕ) (completion : Except ExecutionError Bool) :
    Except ExecutionError (StopState × StopVerdict) :=
  (verdictOf (advanceStopState previous observation) observation limit completion).map
    (advanceStopState previous observation, ·)

end

/-- `limit` of `createStopJudge`: the one clamp that the policy of the bound generation sets on the metric. -/
def limitOf (generation : ℕ) (metric : StopMetric) (decision : PolicyEvaluation) : Except ExecutionError ℕ :=
  let invalid := .error (.agentFailure "stop.policy" ("invalid_stop_policy:" ++ metric.text))
  match decision.obligations.filter fun row => row.ref = "kernel/budget-clamp" ∧ row.metric = metric.text with
  | [row] =>
    if decision.verdict ∈ [.deny, .requireApproval, .transform] ∨ decision.generation ≠ generation ∨ row.limit = 0
    then invalid else .ok row.limit
  | _ => invalid

structure JudgePorts where
  decide : String → PlainValue → Except ExecutionError PolicyEvaluation
  commit : Except ExecutionError Unit

def JudgePorts.limit (ports : JudgePorts) (generation : ℕ) (metric : StopMetric) : Except ExecutionError ℕ :=
  (ports.decide metric.op (record [("metric", some (.str metric.text))])).bind (limitOf generation metric)

def JudgePorts.completion (ports : JudgePorts) (observation : StopObservation) : Except ExecutionError Bool :=
  (ports.decide "completion" (record [("text", some (.str observation.text)),
    ("openIntent", some (.arr (observation.openIntent.map .str)))])).map (·.verdict = .allow)

/-- `createStopJudge`: no verdict is given before its row is committed. -/
def stopJudge [PlainCoding] (generation : ℕ) (state : StopState) (observation : StopObservation) (ports : JudgePorts) :
    Except ExecutionError (StopState × StopVerdict) := do
  let result ← judgeStop state observation (ports.limit generation) (ports.completion observation)
  ports.commit
  return result

section
variable [PlainCoding] {state : StopState} {observation : StopObservation}
  {limit : StopMetric → Except ExecutionError ℕ} {completion : Except ExecutionError Bool}

omit [PlainCoding] in
lemma unlessReached_continue {metric : StopMetric} {count : ℕ} {rest : Except ExecutionError StopVerdict}
    (h : unlessReached limit metric count rest = .ok .continue) :
    (∃ cap, limit metric = .ok cap ∧ count < cap) ∧ rest = .ok .continue := by
  obtain ⟨cap, hcap, hrest⟩ := Results.bind_eq_ok.mp h
  by_cases hreached : cap ≤ count
  · simp [hreached] at hrest
  · rw [if_neg hreached] at hrest
    exact ⟨⟨cap, hcap, by omega⟩, hrest⟩

omit [PlainCoding] in
lemma verdictOfCounts_continue {alarmIds : List String}
    (h : verdictOfCounts state alarmIds limit = .ok .continue) :
    ∃ cap, limit .continuation = .ok cap ∧ state.continuation < cap := by
  have hstall := (unlessReached_continue h).2
  have hblocked := (unlessReached_continue hstall).2
  have hwaiting := (unlessReached_continue hblocked).2
  split at hwaiting
  · simp at hwaiting
  · exact (unlessReached_continue hwaiting).1

omit [PlainCoding] in
theorem verdictOf_continue (h : verdictOf state observation limit completion = .ok .continue) :
    ∃ cap, limit .continuation = .ok cap ∧ state.continuation < cap := by
  unfold verdictOf at h
  split_ifs at h
  · simp at h
  · simp at h
  obtain ⟨completed, -, hcounts⟩ := Results.bind_eq_ok.mp h
  cases completed with
  | true => simp at hcounts
  | false => exact verdictOfCounts_continue hcounts

theorem stopJudge_ok {generation : ℕ} {ports : JudgePorts} {judgment : StopState × StopVerdict}
    (h : stopJudge generation state observation ports = .ok judgment) :
    judgment.1.continuation = state.continuation + 1 ∧
      (judgment.2 = .continue → ∃ cap, ports.limit generation .continuation = .ok cap ∧
        judgment.1.continuation < cap) := by
  obtain ⟨result, hjudged, hcommitted⟩ := Results.bind_eq_ok.mp h
  obtain ⟨_, -, hresult⟩ := Results.bind_eq_ok.mp hcommitted
  obtain rfl := Results.pure_eq_ok.mp hresult
  obtain ⟨verdict, hverdict, rfl⟩ := Results.map_eq_ok.mp hjudged
  refine ⟨rfl, fun hcontinue => ?_⟩
  obtain rfl : verdict = .continue := hcontinue
  exact verdictOf_continue hverdict

end

/-- How a step that the loop cut short ended: the window was full, the step cap was reached, or a message waited. -/
inductive TurnYield where
  | window | steps | steer
deriving DecidableEq

/-- The parts of a settled model call that `turnYield` looks at. -/
structure TurnCut where
  /-- The reasons of the `step-finish` parts. -/
  stepReasons : List String
  stepCap : ℕ
  steering : Bool
  windowYieldArmed : Bool

def turnYield (cut : TurnCut) : Option TurnYield :=
  if cut.stepReasons.getLast? ≠ some "tool-calls" then none
  else if cut.stepCap ≤ cut.stepReasons.length then some .steps
  else if cut.steering then some .steer
  else some (if cut.windowYieldArmed then .window else .steps)

/-- The terminal of the executor's `llm` invocation. -/
inductive LlmTerminal where
  | executed (value : PlainValue)
  | interrupted
  | other (terminal : String)

/-- `successfulOutcome`; every other value is a defect. -/
def successfulOutcome (value : PlainValue) : Option String :=
  match (value.get? "type").bind asStr with
  | some "stop" => some "stop"
  | some "continue" => some "continue"
  | _ => none

/-- The evidence that `stopEvidence` reads. -/
structure StopEvidence where
  progress : Bool
  blocked : Bool
  openIntent : List String
  alarmIds : List String

/-- What the ports answer to `handleStop`. A drained boundary answers how many messages it appended. -/
structure StopPorts where
  recordAssistant : Except ExecutionError Unit
  afterLlm : Except ExecutionError ℕ
  /-- `settleModelTools`: the calls of the wave. -/
  toolCalls : Except ExecutionError ℕ
  afterTools : Except ExecutionError ℕ
  recordSettled : Except ExecutionError Unit
  onStepFinish : Except ExecutionError Unit
  text : String
  calls : List (String × PlainValue)
  cut : TurnCut
  compact : Except ExecutionError Bool
  evidence : Except ExecutionError StopEvidence
  aborted : Bool
  /-- `publishBudgetTelemetry` says `exceeded`. -/
  exceeded : Bool
  judge : JudgePorts

def StopPorts.recordWave (ports : StopPorts) (toolCalls : ℕ) : Except ExecutionError Unit :=
  if 0 < toolCalls then ports.recordSettled else .ok ()

structure StepPorts where
  beforeLlm : Except ExecutionError ℕ
  exceeded : Bool
  /-- The executor's run of the `llm` invocation. -/
  llm : Except ExecutionError LlmTerminal
  prepare : Except ExecutionError Bool
  stop : StopPorts

inductive LoopEnd where
  | result
  | waiting (alarmIds : List String)
  | interrupted
  | agentStop (reason : String)
  | failed (error : ExecutionError)

structure RunState where
  stop : StopState := stopState
  turnIndex : ℕ := 0
  calls : ℕ := 0
  /-- The turn was told to go on, and the user messages appended since. -/
  goesOn : Option ℕ := none
  /-- Model calls entered because the turn was told to go on, with no user message since. -/
  extraCalls : ℕ := 0
  ended : Option LoopEnd := none

def RunState.leave (s : RunState) (reason : LoopEnd) : RunState := { s with ended := some reason }

/-- The entry of a model call behind a boundary that appended `drained` messages. -/
def RunState.call (s : RunState) (drained : ℕ) : RunState :=
  { s with
    calls := s.calls + 1
    goesOn := none
    extraCalls := s.extraCalls + if s.goesOn = some 0 ∧ drained = 0 then 1 else 0 }

/-- `advanceRunTurn` under a verdict to go on. -/
def RunState.goOn (s : RunState) (drained : ℕ) : RunState :=
  { s with turnIndex := s.turnIndex + 1, goesOn := some drained }

def observationOf (ports : StopPorts) (toolCalls drained : ℕ) (evidence : StopEvidence) : StopObservation :=
  let yielded := if 0 < toolCalls then none else turnYield ports.cut
  { text := ports.text
    toolCalls := toolCalls
    calls := ports.calls
    continueRequested := yielded = some .window || yielded = some .steer || 0 < drained
    interrupted := ports.aborted
    exhausted := yielded = some .steps || ports.exceeded
    progress := evidence.progress
    blocked := evidence.blocked
    openIntent := evidence.openIntent
    alarmIds := evidence.alarmIds }

def stopResult (s : RunState) (drained : ℕ) : StopVerdict → RunState
  | .interrupted => s.leave .interrupted
  | .error reason => s.leave (.agentStop reason)
  | .continue => s.goOn drained
  | .waiting alarmIds => s.leave (.waiting alarmIds)
  | .result => s.leave .result

section
variable [PlainCoding]

def handleStop (generation : ℕ) (s : RunState) (ports : StopPorts) : Except ExecutionError RunState := do
  ports.recordAssistant
  let afterModel ← ports.afterLlm
  let toolCalls ← ports.toolCalls
  let afterWave ← ports.afterTools
  ports.recordWave toolCalls
  ports.onStepFinish
  let _ ← ports.compact
  let evidence ← ports.evidence
  let judgment ← stopJudge generation s.stop (observationOf ports toolCalls (afterModel + afterWave) evidence) ports.judge
  return stopResult { s with stop := judgment.1 } (afterModel + afterWave) judgment.2

/-- `runModelStep`, from the executor's answer on. -/
def settleModelStep (generation : ℕ) (s : RunState) (ports : StepPorts) : LlmTerminal → Except ExecutionError RunState
  | .interrupted => .ok (s.leave .interrupted)
  | .other terminal => .error (.agentFailure "agent.llm" ("execution_" ++ terminal))
  | .executed value =>
    match successfulOutcome value with
    | some "continue" => do
      let _ ← ports.prepare
      return s.goOn 0
    | some _ => handleStop generation s ports.stop
    | none => .error (.other "AgentInvariantViolation")

/-- One turn of `runAgent`'s loop. -/
def turnOf (generation : ℕ) (s : RunState) (ports : StepPorts) : RunState :=
  match ports.beforeLlm with
  | .error failure => s.leave (.failed failure)
  | .ok drained =>
    if ports.exceeded then s.leave (.agentStop "budget")
    else
      match ports.llm.bind (settleModelStep generation (s.call drained) ports) with
      | .ok next => next
      | .error failure => (s.call drained).leave (.failed failure)

def Step (generation : ℕ) (s : RunState) (ports : StepPorts) (next : RunState) : Prop :=
  s.ended = none ∧ next = turnOf generation s ports

end

def StepPorts.modelContinues (ports : StepPorts) : Prop :=
  ∃ value, ports.llm = .ok (.executed value) ∧ successfulOutcome value = some "continue"

/-- Whatever the policy lets through as the limit on continuations is the configured one. -/
def StepPorts.Configured (generation cap : ℕ) (ports : StepPorts) : Prop :=
  ∀ limit, ports.stop.judge.limit generation .continuation = .ok limit → limit = cap

section
variable [PlainCoding] {generation cap : ℕ} {s next : RunState} {ports : StepPorts}

lemma handleStop_ok {entered : RunState} {stop : StopPorts} (h : handleStop generation entered stop = .ok next) :
    ∃ drained observation judgment, stopJudge generation entered.stop observation stop.judge = .ok judgment ∧
      next = stopResult { entered with stop := judgment.1 } drained judgment.2 := by
  obtain ⟨_, -, h⟩ := Results.bind_eq_ok.mp h
  obtain ⟨afterModel, -, h⟩ := Results.bind_eq_ok.mp h
  obtain ⟨toolCalls, -, h⟩ := Results.bind_eq_ok.mp h
  obtain ⟨afterWave, -, h⟩ := Results.bind_eq_ok.mp h
  obtain ⟨_, -, h⟩ := Results.bind_eq_ok.mp h
  obtain ⟨_, -, h⟩ := Results.bind_eq_ok.mp h
  obtain ⟨_, -, h⟩ := Results.bind_eq_ok.mp h
  obtain ⟨evidence, -, h⟩ := Results.bind_eq_ok.mp h
  obtain ⟨judgment, hjudged, h⟩ := Results.bind_eq_ok.mp h
  exact ⟨_, _, judgment, hjudged, (Results.pure_eq_ok.mp h).symm⟩

omit [PlainCoding] in
lemma call_extraCalls_le (s : RunState) (drained : ℕ) :
    (s.call drained).extraCalls ≤ s.extraCalls + if s.goesOn.isSome then 1 else 0 := by
  cases hgoes : s.goesOn with
  | none => simp [RunState.call, hgoes]
  | some appended =>
    simp only [RunState.call, hgoes, Option.isSome_some, if_true]
    split <;> omega

/-- What holds of the loop while its judge is the only one that lets it go on. -/
structure Judged (cap : ℕ) (s : RunState) : Prop where
  counted : s.extraCalls + (if s.goesOn.isSome then 1 else 0) ≤ s.stop.continuation
  below : s.goesOn.isSome → s.stop.continuation < cap
  bounded : s.extraCalls < cap

omit [PlainCoding] in
lemma Judged.leave (h : Judged cap s) (reason : LoopEnd) : Judged cap (s.leave reason) :=
  ⟨h.counted, h.below, h.bounded⟩

omit [PlainCoding] in
lemma Judged.call (h : Judged cap s) (drained : ℕ) : Judged cap (s.call drained) := by
  have hextra := call_extraCalls_le s drained
  have hcounted := h.counted
  have hbounded := h.bounded
  have hbelow := h.below
  refine ⟨?_, by simp [RunState.call], ?_⟩
  · calc (s.call drained).extraCalls + 0 ≤ s.extraCalls + if s.goesOn.isSome then 1 else 0 := hextra
      _ ≤ s.stop.continuation := hcounted
  · by_cases hgoes : s.goesOn.isSome
    · have hlimit := hbelow hgoes
      simp only [hgoes, if_true] at hextra hcounted
      omega
    · rw [if_neg hgoes] at hextra
      omega

omit [PlainCoding] in
lemma Judged.advance (h : Judged cap s) (hgoes : s.goesOn = none) {state : StopState}
    (hcount : state.continuation = s.stop.continuation + 1) : Judged cap { s with stop := state } := by
  have hcounted := h.counted
  refine ⟨?_, by simp [hgoes], h.bounded⟩
  simp only [hgoes, Option.isSome_none] at hcounted ⊢
  omega

omit [PlainCoding] in
lemma Judged.stopResult {drained : ℕ} {judgment : StopState × StopVerdict} (h : Judged cap s) (hgoes : s.goesOn = none)
    (hcount : judgment.1.continuation = s.stop.continuation + 1)
    (hcap : judgment.2 = .continue → judgment.1.continuation < cap) :
    Judged cap (stopResult { s with stop := judgment.1 } drained judgment.2) := by
  have hadvanced := h.advance hgoes hcount
  cases hverdict : judgment.2 with
  | «continue» =>
    refine ⟨?_, fun _ => hcap hverdict, hadvanced.bounded⟩
    have hcounted := h.counted
    simp only [hgoes, Option.isSome_none] at hcounted
    simp only [StopLoop.stopResult, RunState.goOn, Option.isSome_some, if_true]
    omega
  | interrupted | result | waiting alarmIds | error reason => exact hadvanced.leave _

lemma Judged.settleModelStep {outcome : LlmTerminal} (h : Judged cap s) (hgoes : s.goesOn = none)
    (hcap : ports.Configured generation cap)
    (hjudged : ∀ value, outcome = .executed value → successfulOutcome value ≠ some "continue")
    (hnext : settleModelStep generation s ports outcome = .ok next) : Judged cap next := by
  cases outcome with
  | interrupted =>
    cases hnext
    exact h.leave _
  | other terminal => simp [StopLoop.settleModelStep] at hnext
  | executed value =>
    have hvalue := hjudged value rfl
    simp only [StopLoop.settleModelStep] at hnext
    split at hnext
    · rename_i hcontinue
      exact absurd hcontinue hvalue
    · obtain ⟨drained, observation, judgment, hjudgment, rfl⟩ := handleStop_ok hnext
      obtain ⟨hcount, hcontinue⟩ := stopJudge_ok hjudgment
      refine h.stopResult hgoes hcount fun hverdict => ?_
      obtain ⟨limit, hlimit, hlt⟩ := hcontinue hverdict
      rwa [hcap limit hlimit] at hlt
    · simp at hnext

lemma Judged.turnOf (h : Judged cap s) (hcap : ports.Configured generation cap) (hjudged : ¬ ports.modelContinues) :
    Judged cap (turnOf generation s ports) := by
  unfold StopLoop.turnOf
  split
  · exact h.leave _
  · rename_i drained hdrained
    split
    · exact h.leave _
    · split
      · rename_i result hresult
        obtain ⟨outcome, houtcome, hsettled⟩ := Results.bind_eq_ok.mp hresult
        refine (h.call drained).settleModelStep rfl hcap (fun value hvalue hcontinue => hjudged ⟨value, ?_, hcontinue⟩) hsettled
        rw [houtcome, hvalue]
      · exact (h.call drained).leave _

/-- While no model outcome asks for the continuation itself, the loop makes fewer unasked calls than the configured
limit on continuations. -/
theorem continuations_bounded {trace : List (RunState × StepPorts)} (hcap : 0 < cap)
    (run : Transition.Run (Step generation) {} trace s) (hconfigured : ∀ e ∈ trace, e.2.Configured generation cap)
    (hjudged : ∀ e ∈ trace, ¬ e.2.modelContinues) :
    (∀ e ∈ trace, e.1.extraCalls ≤ cap) ∧ s.extraCalls ≤ cap := by
  have hstart : Judged cap {} := ⟨by simp [stopState], by simp, hcap⟩
  have hkept : ∀ a ports b, Judged cap a →
      (Step generation a ports b ∧ ports.Configured generation cap ∧ ¬ ports.modelContinues) → Judged cap b := by
    rintro a ports b ha ⟨⟨-, rfl⟩, hcap, hjudged⟩
    exact ha.turnOf hcap hjudged
  have hrun : Transition.Run (fun a ports b =>
      Step generation a ports b ∧ ports.Configured generation cap ∧ ¬ ports.modelContinues) {} trace s :=
    Transition.Run.restrict_iff.mpr ⟨run, fun e he => ⟨hconfigured e he, hjudged e he⟩⟩
  exact ⟨fun e he => (hrun.visits hstart hkept e he).bounded.le, (hrun.preserves hstart hkept).bounded.le⟩

end

attribute [local instance] textCoding

/-- A policy whose clamps allow three repetitions and `cap` continuations. -/
def clamped (cap : ℕ) (op : String) (_ : PlainValue) : Except ExecutionError PolicyEvaluation :=
  let metric := if op = "continue" then "continuation" else op
  .ok { generation := 1, snapshotHash := "", inputHash := "", matchedRuleIds := [], transforms := [],
        verdict := .obligation, reason := none, value := .null, effects := [],
        obligations := [⟨"kernel/budget-clamp", metric, if op = "continue" then cap else 3⟩] }

def toolStep (cap : ℕ) : StopPorts where
  recordAssistant := .ok ()
  afterLlm := .ok 0
  toolCalls := .ok 1
  afterTools := .ok 0
  recordSettled := .ok ()
  onStepFinish := .ok ()
  text := "reading"
  calls := [("read", .null)]
  cut := ⟨["tool-calls"], 4, false, false⟩
  compact := .ok false
  evidence := .ok ⟨true, false, [], []⟩
  aborted := false
  exceeded := false
  judge := ⟨clamped cap, .ok ()⟩

def outcomeStep (cap : ℕ) (type : String) : StepPorts where
  beforeLlm := .ok 0
  exceeded := false
  llm := .ok (.executed (record [("type", some (.str type))]))
  prepare := .ok false
  stop := toolStep cap

lemma outcomeStep_configured (cap : ℕ) (type : String) : (outcomeStep cap type).Configured 1 cap := by
  intro limit hlimit
  by_cases hcap : cap = 0
  · simp [outcomeStep, toolStep, JudgePorts.limit, clamped, limitOf, StopMetric.op, StopMetric.text, Except.bind, hcap]
      at hlimit
  · simp [outcomeStep, toolStep, JudgePorts.limit, clamped, limitOf, StopMetric.op, StopMetric.text, Except.bind, hcap]
      at hlimit
    exact hlimit.symm

/-- A loop given its ports' answers, each turn by a loop that has not left off. -/
def loopStep (s : RunState) (ports : StepPorts) : Option RunState :=
  if s.ended = none then some (turnOf 1 s ports) else none

lemma step_of_loopStep {s next : RunState} {ports : StepPorts} (h : loopStep s ports = some next) :
    Step 1 s ports next := by
  unfold loopStep at h
  split_ifs at h with hlive
  exact ⟨hlive, (Option.some.inj h).symm⟩

/-- One judged continuation under a limit of two, and the step behind it. -/
theorem continuations_bounded_judged : ∃ (trace : List (RunState × StepPorts)) (s : RunState),
    s.extraCalls = 1 ∧ (∀ e ∈ trace, e.1.extraCalls ≤ 2) ∧ s.extraCalls ≤ 2 := by
  have hfold : [outcomeStep 2 "stop", outcomeStep 2 "stop"].foldlM loopStep {} = some _ := rfl
  obtain ⟨trace, hlabels, run⟩ := Transition.Run.ofLabels hfold
  have hsteps : ∀ e ∈ trace, e.2 = outcomeStep 2 "stop" := by
    intro e he
    have hmem := List.mem_map_of_mem (f := Prod.snd) he
    rw [hlabels] at hmem
    simpa using hmem
  refine ⟨trace, _, ?_, continuations_bounded (by decide) (run.mono fun _ _ _ => step_of_loopStep) ?_ ?_⟩
  · decide
  · intro e he
    rw [hsteps e he]
    exact outcomeStep_configured 2 "stop"
  · intro e he
    rw [hsteps e he]
    rintro ⟨value, hvalue, hcontinue⟩
    obtain rfl : record [("type", some (.str "stop"))] = value := by simpa [outcomeStep] using hvalue
    exact absurd hcontinue (by decide)

/-- Under a limit of one, a model that asks twice to go on gets two calls. -/
theorem modelContinues_uncounted :
    ¬ ∀ (cap : ℕ) (s : RunState) (trace : List (RunState × StepPorts)), 0 < cap →
      Transition.Run (Step 1) {} trace s → (∀ e ∈ trace, e.2.Configured 1 cap) → s.extraCalls ≤ cap := by
  intro hclaim
  have hfold : [outcomeStep 1 "continue", outcomeStep 1 "continue", outcomeStep 1 "stop"].foldlM loopStep {} = some _ :=
    rfl
  obtain ⟨trace, hlabels, run⟩ := Transition.Run.ofLabels hfold
  have hbounded := hclaim 1 _ trace (by decide) (run.mono fun _ _ _ => step_of_loopStep) (by
    intro e he
    have hmem := List.mem_map_of_mem (f := Prod.snd) he
    rw [hlabels] at hmem
    simp only [List.mem_cons, List.not_mem_nil, or_false] at hmem
    rcases hmem with h | h | h <;> rw [h] <;> exact outcomeStep_configured 1 _)
  exact absurd hbounded (by decide)

end StopLoop
end OpenOmni
