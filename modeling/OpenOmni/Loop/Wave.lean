import OpenOmni.Lib.Run
import OpenOmni.Protocol.Plain

/-! A batch of calls run as one wave: admission, intents, approvals, bodies and results. -/
namespace OpenOmni

/-- `EffectiveRowVerdict`. -/
inductive Verdict where
  | allow | deny | requireApproval | transform | obligation
deriving DecidableEq

/-- The tags of `ExecutionError` that the wave looks at; the rest is `other`. -/
inductive ExecutionError where
  | commitFailed
  | approval (code : String)
  | outcomeUnknown (reason : String)
  | interrupted
  | agentFailure (operation cause : String)
  | other (tag : String)
deriving DecidableEq

/-- One reason of an Effect `Cause`. -/
inductive CauseReason where
  | fail (error : ExecutionError)
  | die (defect : String)
  | interrupt
deriving DecidableEq

abbrev Cause := List CauseReason

namespace Cause

def failures (cause : Cause) : List ExecutionError :=
  cause.filterMap fun
    | .fail error => some error
    | _ => none

def hasInterrupts (cause : Cause) : Bool := cause.any (· = .interrupt)

def hasCommitFailed (cause : Cause) : Bool := cause.failures.any (· = .commitFailed)

def pretty (cause : Cause) : String :=
  "\n".intercalate (cause.filterMap fun
    | .die defect => some defect
    | _ => none)

/-- `Failure.of`: the first typed error, else the cause under an `AgentFailure`. -/
def failureOf (cause : Cause) (operation : String) : ExecutionError :=
  cause.failures.head?.getD (.agentFailure operation cause.pretty)

end Cause

inductive Disposition where
  | reverted | irreversible

inductive ExecutionResult where
  | blockedPre (reason : String)
  | executed (value : PlainValue) (failure : Option ExecutionError)
  | interrupted (reason : String)
  | outcomeUnknown (reason : String)
  | blockedPost (disposition : Disposition) (reason : String)

inductive ApprovalDecision where
  | approve | refuse | timeout
deriving DecidableEq

/-- What `decide` and `recoverAdmission` answer. -/
structure Admitted where
  verdict : Verdict
  reason : Option String

/-- `ExecutionBatchItem`, as far as the wave reads it. -/
structure BatchItem where
  kind : String
  op : String
  sequential : Bool
  /-- `request.approval.required`. -/
  approvalRequired : Bool
  /-- Whether the request replays an `originalAction`. -/
  original : Bool
  boundary : Bool
  /-- Whether the request brings a `revert`. -/
  revertable : Bool
deriving DecidableEq

/-- The executor around the wave: its post points and the requests its ledger knows by intent. -/
structure WaveOptions where
  consulted : String → Bool
  requestById : ℕ → Bool

inductive WaveRow where
  | intent (call : ℕ)
  | application (call : ℕ)
  | boundary (call : ℕ) (value : PlainValue)
  | result (call : ℕ) (outcome : ExecutionResult)

structure BodyExit where
  exit : Except Cause PlainValue
  rawPending : Bool

/-- The fiber of `executeBody`. A closing one has its exit and waits for its raw slots. -/
inductive Body where
  | idle
  | forked
  | entered
  | running
  | closing (exit : Except Cause PlainValue)
  | exited (body : BodyExit)

/-- The body has begun and neither it nor a raw slot it left pending is given up on yet. -/
def Body.active : Body → Bool
  | .running | .closing _ => true
  | _ => false

/-- The fiber is there and `Fiber.await` still waits for it. -/
def Body.live : Body → Bool
  | .forked | .entered | .running | .closing _ => true
  | _ => false

@[simp] theorem Body.live_idle : Body.live .idle = false := rfl
@[simp] theorem Body.live_forked : Body.live .forked = true := rfl
@[simp] theorem Body.live_entered : Body.live .entered = true := rfl
@[simp] theorem Body.live_running : Body.live .running = true := rfl
@[simp] theorem Body.live_closing (exit : Except Cause PlainValue) : Body.live (.closing exit) = true := rfl

lemma Body.live_of_active {body : Body} (h : body.active) : body.live := by
  cases body with
  | running | closing exit => rfl
  | _ => simp [active] at h

lemma Body.not_idle_of_live {body : Body} (h : body.live) : body ≠ .idle := by
  rintro rfl
  simp at h

/-- Where `finishStage` stands in the call whose result comes next. A result that is completed from a
value takes that value when something other than a commit throws under it. -/
inductive FinishPoint where
  | enter
  | post (value : PlainValue)
  | boundary (value : PlainValue)
  | result (outcome : ExecutionResult) (completing : Option PlainValue)

inductive WavePoint where
  | admitting
  | intending
  | approving
  | launching (index : ℕ)
  | joining (index : ℕ)
  | finishing (point : FinishPoint)
  | done
  | failed (cause : Cause)

structure Wave where
  point : WavePoint
  pre : List Admitted
  intents : List Bool
  asked : ℕ
  decisions : ℕ → Option ApprovalDecision
  bodies : ℕ → Body
  group : List ℕ
  results : List ExecutionResult
  rows : List WaveRow

namespace Wave

def start : Wave := ⟨.admitting, [], [], 0, fun _ => none, fun _ => .idle, [], [], []⟩

def coreKinds : List String := ["prompt", "turn", "llm", "tool", "compaction", "message"]

def boundedConcurrency : ℕ := 16

def needsApproval (pre : Admitted) (item : BatchItem) : Bool :=
  pre.verdict = .requireApproval || item.approvalRequired

/-- How one commit ends: it may fail, and its caller may throw before it or an observer after it. -/
inductive Commit where
  | committed
  | refused
  | threwBefore (cause : Cause)
  | threwAfter (cause : Cause)

inductive Event where
  | admitItem (outcome : Except Cause Admitted)
  | intend (outcome : Except Cause Unit)
  | ask
  | settle (call : ℕ) (outcome : Except Cause ApprovalDecision)
  | interrupt
  | next
  | apply (call : ℕ)
  | begin (call : ℕ)
  | exit (call : ℕ) (exit : Except Cause PlainValue) (raw : Bool)
  | rawSettled (call : ℕ)
  | graceOver (call : ℕ)
  | post (outcome : Except Cause (Verdict × PlainValue × Option String)) (revert : Except Cause Unit)
  | commit (commit : Commit)

variable (options : WaveOptions) (items : List BatchItem)

def fail (w : Wave) (cause : Cause) : Wave := { w with point := .failed cause }

/-- `guarded`: some call needs an approval or replays an original action. -/
def guarded (w : Wave) : Bool :=
  (items.zip w.pre).any fun stage => needsApproval stage.2 stage.1 || stage.1.original

/-- `runBatch` takes `runSingle`: one stage, and nothing guards it. It forks and awaits the one body as
`runStages` does, but its approval is not restored. -/
def single (w : Wave) : Bool := items.length = 1 && !guarded items w

/-- The stage's approval answers `approve` by itself. -/
def approved (w : Wave) (call : ℕ) : Bool :=
  match items[call]?, w.pre[call]?, w.intents[call]? with
  | some item, some pre, some intent => !intent || (!needsApproval pre item && !options.requestById call)
  | _, _, _ => false

def shouldExecute (w : Wave) (call : ℕ) : Bool :=
  (w.pre[call]?.any fun pre => pre.verdict ≠ .deny) && w.decisions call = some .approve

def allSettled (w : Wave) : Bool := (List.range items.length).all fun call => (w.decisions call).isSome

def waiting (w : Wave) : ℕ := ((List.range w.asked).filter fun call => (w.decisions call).isNone).length

/-- `join` has come back: no fiber of the group is live. -/
def joined (w : Wave) : Bool := w.group.all fun call => !(w.bodies call).live

def setBody (w : Wave) (call : ℕ) (body : Body) : Wave :=
  { w with bodies := Function.update w.bodies call body }

/-- One round of `stageAll`'s first loop. -/
def admitItem (w : Wave) (outcome : Except Cause Admitted) : Option Wave :=
  match items[w.pre.length]? with
  | none => none
  | some item =>
    if coreKinds.contains item.kind then
      match outcome with
      | .error cause => some (w.fail cause)
      | .ok pre => some { w with pre := w.pre ++ [pre] }
    else some (w.fail [.fail (.agentFailure "executor.admit" ("unregistered_execution_kind:" ++ item.kind))])

/-- `stageIntent`: a denied call has no intent, a replayed one has its own already. -/
def stageIntent (w : Wave) (outcome : Except Cause Unit) : Option Wave :=
  match items[w.intents.length]?, w.pre[w.intents.length]? with
  | some item, some pre =>
    if pre.verdict = .deny then some { w with intents := w.intents ++ [false] }
    else if item.original then some { w with intents := w.intents ++ [true] }
    else match outcome with
      | .error cause => some (w.fail cause)
      | .ok () => some { w with intents := w.intents ++ [true], rows := w.rows ++ [.intent w.intents.length] }
  | _, _ => none

/-- One approval of `runStages` settles. -/
def settle (w : Wave) (call : ℕ) (outcome : Except Cause ApprovalDecision) : Option Wave :=
  if call < w.asked ∧ w.decisions call = none then
    if approved options items w call then
      some { w with decisions := Function.update w.decisions call (some .approve) }
    else match outcome with
      | .error cause => some (w.fail cause)
      | .ok decision => some { w with decisions := Function.update w.decisions call (some decision) }
  else none

/-- One round of the loop that forks the bodies. A sequential one joins those before it first. -/
def launch (w : Wave) (index : ℕ) : Option Wave :=
  match items[index]? with
  | none => if w.joined then some { w with point := .finishing .enter, group := [] } else none
  | some item =>
    if w.shouldExecute index then
      if item.sequential then
        if w.joined then
          some { w.setBody index .forked with point := .joining index, group := [index] }
        else none
      else some { w.setBody index .forked with point := .launching (index + 1), group := w.group ++ [index] }
    else some { w with point := .launching (index + 1) }

def application (w : Wave) (call : ℕ) : Option Wave :=
  match w.bodies call with
  | .forked => if guarded items w then
      some { w.setBody call .entered with rows := w.rows ++ [.application call] } else none
  | _ => none

/-- `enter`: the body begins. -/
def begin (w : Wave) (call : ℕ) : Option Wave :=
  match w.bodies call with
  | .forked => if guarded items w then none else some (w.setBody call .running)
  | .entered => some (w.setBody call .running)
  | _ => none

/-- The effect of `admittedBody` exits; before it began, only with a failure. -/
def exit (w : Wave) (call : ℕ) (exit : Except Cause PlainValue) (raw : Bool) : Option Wave :=
  match w.bodies call, exit with
  | .forked, .error cause | .entered, .error cause => some (w.setBody call (.exited ⟨.error cause, false⟩))
  | .running, exit => some (w.setBody call (if raw then .closing exit else .exited ⟨exit, false⟩))
  | _, _ => none

/-- The raw slots settle, or the close grace is over before they do. -/
def close (w : Wave) (call : ℕ) (rawPending : Bool) : Option Wave :=
  match w.bodies call with
  | .closing exit => some (w.setBody call (.exited ⟨exit, rawPending⟩))
  | _ => none

def failedOutcome (cause : Cause) (failure : ExecutionError) : ExecutionResult :=
  if cause.hasInterrupts || failure = .interrupted then .interrupted "fiber_interrupted"
  else match failure with
    | .outcomeUnknown reason => .outcomeUnknown reason
    | failure => .executed .null (some failure)

/-- `finishStage` of a call that does not execute. -/
def blockedPre (pre : Admitted) (decision : Option ApprovalDecision) : ExecutionResult :=
  .blockedPre (if pre.verdict = .deny then pre.reason.getD "denied"
    else if decision = some .timeout then "approval_timeout" else "approval_refused")

/-- `complete` once the value stands: the boundary row of an executed call, then its result. -/
def completed (item : BatchItem) (outcome : ExecutionResult) (value : PlainValue) : FinishPoint :=
  match outcome with
  | .executed result _ => if item.boundary then .boundary result else .result outcome (some value)
  | _ => .result outcome (some value)

def finishBody (w : Wave) (item : BatchItem) (body : BodyExit) : Wave :=
  if body.rawPending then
    { w with point := .finishing (.result (.outcomeUnknown "raw_body_unsettled_after_grace") none) }
  else match body.exit with
    | .error cause =>
      if cause.hasCommitFailed then w.fail [.fail .commitFailed]
      else { w with point := .finishing (.result (failedOutcome cause (cause.failureOf item.op)) none) }
    | .ok value =>
      if options.consulted item.kind then { w with point := .finishing (.post value) }
      else { w with point := .finishing (completed item (.executed value none) value) }

/-- `finishStage` of the next call; the wave is done when there is none. -/
def finishStage (w : Wave) : Wave :=
  let call := w.results.length
  match items[call]?, w.pre[call]? with
  | some item, some pre =>
    if w.shouldExecute call then
      match w.bodies call with
      | .exited body => finishBody options w item body
      | _ => w.fail [.die "missing action fiber exit"]
    else { w with point := .finishing (.result (blockedPre pre (w.decisions call)) none) }
  | _, _ => { w with point := .done }

/-- `completionFailure`, where no result row is there yet. -/
def completionFailure (w : Wave) (item : BatchItem) (completing : Option PlainValue) (cause : Cause) : Wave :=
  match completing with
  | none => w.fail cause
  | some value =>
    let failure := cause.failureOf (item.op ++ ".completion")
    if cause.hasCommitFailed then w.fail cause
    else { w with point := .finishing (.result (.executed value (some failure)) none) }

def settlePost (item : BatchItem) (verdict : Verdict) (value : PlainValue) (reason : Option String)
    (original : PlainValue) (revert : Except Cause Unit) : Except Cause ExecutionResult :=
  let transformed := if verdict = .transform then value.get? "result" else some original
  match transformed with
  | some result =>
    if verdict ≠ .deny ∧ verdict ≠ .requireApproval then .ok (.executed result none)
    else if item.revertable then revert.map fun _ => .blockedPost .reverted (reason.getD "denied")
    else .ok (.blockedPost .irreversible (reason.getD "denied"))
  | none =>
    if item.revertable then revert.map fun _ => .blockedPost .reverted "invalid_output"
    else .ok (.blockedPost .irreversible "invalid_output")

def post (w : Wave) (item : BatchItem) (value : PlainValue)
    (outcome : Except Cause (Verdict × PlainValue × Option String)) (revert : Except Cause Unit) : Wave :=
  match outcome.bind fun decision =>
      settlePost item decision.1 decision.2.1 decision.2.2 value revert with
  | .error cause => completionFailure w item (some value) cause
  | .ok result => { w with point := .finishing (completed item result value) }

def commitBoundary (w : Wave) (item : BatchItem) (value : PlainValue) (commit : Commit) : Wave :=
  let rows := w.rows ++ [.boundary w.results.length value]
  match commit with
  | .committed => { w with rows, point := .finishing (.result (.executed value none) (some value)) }
  | .refused => w.fail [.fail .commitFailed]
  | .threwBefore cause => completionFailure w item (some value) cause
  | .threwAfter cause => completionFailure { w with rows } item (some value) cause

/-- `appendOutcome`: the result row of a call that has an intent, and its place among the results. -/
def commitResult (w : Wave) (item : BatchItem) (outcome : ExecutionResult) (completing : Option PlainValue)
    (commit : Commit) : Wave :=
  let call := w.results.length
  if w.intents[call]? = some true then
    let rows := w.rows ++ [.result call outcome]
    match commit with
    | .committed => { w with rows, results := w.results ++ [outcome], point := .finishing .enter }
    | .refused => w.fail [.fail .commitFailed]
    | .threwBefore cause => completionFailure w item completing cause
    | .threwAfter cause => fail { w with rows } cause
  else { w with results := w.results ++ [outcome], point := .finishing .enter }

def next (w : Wave) : Option Wave :=
  match w.point with
  | .admitting => if w.pre.length = items.length then some { w with point := .intending } else none
  | .intending => if w.intents.length = items.length then some { w with point := .approving } else none
  | .approving => if allSettled items w then some { w with point := .launching 0, group := [] } else none
  | .launching index => launch items w index
  | .joining index => if w.joined then some { w with point := .launching (index + 1), group := [] } else none
  | .finishing .enter => some (finishStage options items w)
  | _ => none

/-- What one completion does. An interruption counts only where the wave restores it: it fails the
approvals, and while bodies run it aborts them, which shows in how they exit. -/
def step (w : Wave) : Event → Option Wave
  | .next => next options items w
  | .admitItem outcome => match w.point with
    | .admitting => admitItem items w outcome
    | _ => none
  | .intend outcome => match w.point with
    | .intending => stageIntent items w outcome
    | _ => none
  | .ask => match w.point with
    | .approving => if w.asked < items.length ∧ w.waiting < boundedConcurrency then
        some { w with asked := w.asked + 1 } else none
    | _ => none
  | .settle call outcome => match w.point with
    | .approving => settle options items w call outcome
    | _ => none
  | .interrupt => match w.point with
    | .approving => some (if single items w then w else w.fail [.interrupt])
    | _ => some w
  | .apply call => application items w call
  | .begin call => begin items w call
  | .exit call result raw => exit w call result raw
  | .rawSettled call => close w call false
  | .graceOver call => close w call true
  | .post outcome revert => match w.point, items[w.results.length]? with
    | .finishing (.post value), some item => some (post w item value outcome revert)
    | _, _ => none
  | .commit commit => match w.point, items[w.results.length]? with
    | .finishing (.boundary value), some item => some (commitBoundary w item value commit)
    | .finishing (.result outcome completing), some item => some (commitResult w item outcome completing commit)
    | _, _ => none

def Step (w : Wave) (event : Event) (w' : Wave) : Prop := step options items w event = some w'

end Wave
end OpenOmni
