import OpenOmni.Loop.Retry
import OpenOmni.Ports.Alarm

/-! The durable retry schedule over the alarm chain. -/
namespace OpenOmni
namespace Attempts
open PlainValue

/-- The input of `RetryAlarmPort.arm`. -/
structure RetrySchedule where
  id : String
  attempt : ℕ
  reason : RetryReason
  fireAt : ℚ

def alarmIdOf (actionId : String) : String := actionId ++ ":retry"

lemma alarmIdOf_injective {a b : String} (h : alarmIdOf a = alarmIdOf b) : a = b := by
  have hdata := congrArg String.toList h
  simp only [alarmIdOf, String.toList_append] at hdata
  exact String.toList_inj.mp (List.append_cancel_right hdata)

section
variable [PlainCoding]

/-- The row that `arm` commits before a wait. -/
def retryArm (sessionId : String) (input : RetrySchedule) : Arm where
  parentId := none
  sessionId := sessionId
  purpose := "retry"
  «at» := some input.fireAt
  supersedes :=
    if 1 < input.attempt then
      some (occurrenceId sessionId (alarmIdOf input.id) (2 * (input.attempt - 1) - 1) "retry")
    else none
  alarmId := alarmIdOf input.id
  sourceKey := "retry"
  payload := .record [("attempt", some (.num input.attempt)), ("reason", some (.str input.reason.text))]
  armSeq := 2 * input.attempt - 1
  ts := input.fireAt

/-- The row that `settle` commits after the wait: the next of its alarm, retiring the arm. -/
def retrySettle (sessionId id : String) (attempt : ℕ) (clock : ℚ) : Arm where
  parentId := none
  sessionId := sessionId
  purpose := "retry"
  «at» := none
  supersedes := some (occurrenceId sessionId (alarmIdOf id) (2 * attempt - 1) "retry")
  alarmId := alarmIdOf id
  sourceKey := "retry"
  payload := .record [("attempt", some (.num attempt))]
  armSeq := 2 * attempt
  ts := clock

end

/-- The facts of an `LlmRunFailure` that the loop reads. -/
structure LlmRunFailure where
  aborted : Bool
  visibleOutput : Bool
  usageProvenance : Option String
deriving DecidableEq

/-- `ExecutionError`: the tags the loop looks at; the rest is `other`. -/
inductive AttemptError where
  | llmRunFailure (failure : LlmRunFailure)
  | commitFailed
  | policyDenied (ruleIds : List String)
  | other (tag : String)
deriving DecidableEq

inductive FailureReason where
  | fail (error : AttemptError)
  | die
  | interrupt
deriving DecidableEq

abbrev FailureCause := List FailureReason

namespace FailureCause

def hasInterrupts (cause : FailureCause) : Bool := cause.any (· = .interrupt)

def hasDies (cause : FailureCause) : Bool := cause.any (· = .die)

/-- `Cause.findErrorOption`: the first typed error. -/
def error? (cause : FailureCause) : Option AttemptError :=
  cause.findSome? fun
    | .fail error => some error
    | _ => none

end FailureCause

inductive AdmissionVerdict where
  | allow | deny | requireApproval | transform | obligation

structure Admission where
  verdict : AdmissionVerdict
  matchedRuleIds : List String

inductive ApprovalAnswer where
  | approve | refuse | timeout
deriving DecidableEq

/-- What `prepare` answers: the request, and whether a fallback model is left. -/
structure Prepared where
  op : String
  intent : PlainValue
  effect : PlainValue
  fallbackAvailable : Bool

/-- What the ports answer within one attempt. Each is asked once at most; `signal.aborted` is read at
three places. -/
structure AttemptInputs where
  abortedAtStart : Bool
  prepare : Except FailureCause Prepared
  policy : Except FailureCause Admission
  admitBody : Except FailureCause Unit
  abortedAtIntent : Bool
  appendIntent : Except FailureCause String
  approve : Except FailureCause ApprovalAnswer
  appendBlocked : Except FailureCause Unit
  started : ℚ
  body : Except FailureCause PlainValue
  appendResult : Except FailureCause Unit
  classify : AttemptError → FailureClass
  ended : ℚ
  abortedAtFailure : Bool
  random : ℚ
  /-- `none` where no recovery is given. -/
  recoverOverflow : Option (Except FailureCause Bool)
  now : ℚ
  commitArm : Except FailureCause Unit
  send : Except FailureCause Unit
  wait : Except FailureCause Unit
  settledAt : ℚ
  commitSettle : Except FailureCause Unit

/-- The input of `appendIntent`. -/
structure IntentRow where
  op : String
  parentId : String
  value : PlainValue
  effectHash : String
  attempt : ℕ
  maxAttempts : ℕ
  retryReason : Option RetryReason
  routeChange : PlainValue

/-- The value of `appendResult` for a settled body. -/
structure ResultRow where
  op : String
  effect : PlainValue
  terminal : String
  usageProvenance : String
  evidence : PlainValue

/-- What an attempt does that others can see, in the order it does it. -/
inductive AttemptEvent where
  | intent (attempt : ℕ) (row : IntentRow) (id : String)
  | blocked (attempt : ℕ) (intentId reason : String)
  | body (attempt : ℕ)
  | result (attempt : ℕ) (intentId : String) (row : ResultRow) (committed : Bool)
  | retry (attempt : ℕ) (delayMs : ℚ) (reason : RetryReason)
  | arm (attempt : ℕ) (row : Arm)
  | waited (attempt : ℕ) (fireAt : ℚ)
  | settle (attempt : ℕ) (row : Arm)

def AttemptEvent.attempt : AttemptEvent → ℕ
  | .intent attempt .. => attempt
  | .blocked attempt .. => attempt
  | .body attempt => attempt
  | .result attempt .. => attempt
  | .retry attempt .. => attempt
  | .arm attempt _ => attempt
  | .waited attempt _ => attempt
  | .settle attempt _ => attempt

/-- A computation that leaves its events behind however it ends. -/
abbrev Traced (α : Type) := List AttemptEvent × Except FailureCause α

namespace Traced
variable {α β : Type}

def pure (a : α) : Traced α := ([], .ok a)

def fail (error : AttemptError) : Traced α := ([], .error [.fail error])

def interrupt : Traced α := ([], .error [.interrupt])

def ofExcept (answer : Except FailureCause α) : Traced α := ([], answer)

def emit (answer : Except FailureCause α) (event : α → AttemptEvent) : Traced α :=
  match answer with
  | .ok a => ([event a], .ok a)
  | .error cause => ([], .error cause)

def bind (x : Traced α) (f : α → Traced β) : Traced β :=
  match x.2 with
  | .ok a => (x.1 ++ (f a).1, (f a).2)
  | .error cause => (x.1, .error cause)

end Traced

/-- The loop around the attempts: the operation's row, the session, and the rendering of a cause, of
which only the text matters. -/
structure AttemptOptions where
  parentId : String
  sessionId : String
  evidence : Option (PlainValue → PlainValue)
  causeEvidence : FailureCause → PlainValue

/-- `previous`: the last intent, with the id of its row. -/
structure PreviousIntent where
  id : String
  value : PlainValue

structure LoopState where
  failures : List RetryReason
  instantFailures : ℕ
  previous : Option PreviousIntent

def LoopState.start : LoopState := ⟨[], 0, none⟩

def attemptRouteChange (previous : Option PreviousIntent) (next : PlainValue) : PlainValue :=
  match previous with
  | none => .null
  | some intent =>
    match (intent.value.get? "provider").bind asStr, (intent.value.get? "model").bind asStr,
      (next.get? "provider").bind asStr, (next.get? "model").bind asStr with
    | some fromProvider, some fromModel, some toProvider, some toModel =>
      if fromProvider = toProvider ∧ fromModel = toModel then .null
      else .record [("kind", some (.str "route.changed")),
        ("from", some (.record [("provider", some (.str fromProvider)), ("model", some (.str fromModel))])),
        ("to", some (.record [("provider", some (.str toProvider)), ("model", some (.str toModel))])),
        ("fromActionId", some (.str intent.id))]
    | _, _, _, _ => .null

def usageProvenance (evidence : PlainValue) (failure : Option AttemptError) : String :=
  let origin := match failure with
    | some (.llmRunFailure failure) => failure.usageProvenance
    | _ => (evidence.get? "usageProvenance").bind asStr
  if origin = some "reported" ∨ origin = some "estimated" then origin.getD "unknown" else "unknown"

/-- `retryableFailure`: the error of a cause that neither interrupts nor dies. -/
def retryableFailure (cause : FailureCause) : Except FailureCause AttemptError :=
  if cause.hasInterrupts || cause.hasDies then .error cause
  else match cause.error? with
    | some error => .ok error
    | none => .error cause

def failureRequiresStop (failure : AttemptError) (aborted : Bool) : Bool :=
  match failure with
  | .commitFailed => true
  | .llmRunFailure llm => aborted || llm.aborted || llm.visibleOutput
  | _ => aborted

variable [PlainCoding]

/-- The value `appendIntent` is called with. -/
def intentRow (options : AttemptOptions) (attempt : ℕ) (state : LoopState) (prepared : Prepared) :
    IntentRow where
  op := prepared.op
  parentId := options.parentId
  value := prepared.intent
  effectHash := canonicalDigest prepared.effect
  attempt := attempt
  maxAttempts := maxAttempts
  retryReason := state.failures.getLast?
  routeChange := attemptRouteChange state.previous prepared.intent

def approveAttempt (attempt : ℕ) (inputs : AttemptInputs) (intentId : String)
    (policy : Option Admission) : Traced Unit :=
  match policy with
  | some ⟨.requireApproval, ruleIds⟩ =>
    (Traced.ofExcept inputs.approve).bind fun decision =>
      if decision = .approve then .pure ()
      else
        let reason := if decision = .timeout then "approval_timeout" else "approval_refused"
        (Traced.emit inputs.appendBlocked fun _ => .blocked attempt intentId reason).bind fun _ =>
          .fail (.policyDenied ruleIds)
  | _ => .pure ()

/-- The policy of an attempt after the first; the first was admitted with the operation. -/
def admitPolicy (attempt : ℕ) (inputs : AttemptInputs) : Traced (Option Admission) :=
  if attempt = 1 then .pure none else (Traced.ofExcept inputs.policy).bind fun policy => .pure (some policy)

def policyDenies (policy : Option Admission) : Option (List String) :=
  match policy with
  | some ⟨.deny, ruleIds⟩ => some ruleIds
  | some ⟨.transform, ruleIds⟩ => some ruleIds
  | _ => none

/-- `admitAttempt`: the attempt prepared, admitted, written down and approved. -/
def admitAttempt (options : AttemptOptions) (attempt : ℕ) (state : LoopState) (inputs : AttemptInputs) :
    Traced (Prepared × String) :=
  (Traced.ofExcept inputs.prepare).bind fun prepared =>
  (admitPolicy attempt inputs).bind fun policy =>
  match policyDenies policy with
  | some ruleIds => .fail (.policyDenied ruleIds)
  | none =>
    (Traced.ofExcept inputs.admitBody).bind fun _ =>
    if inputs.abortedAtIntent then .interrupt
    else
      (Traced.emit inputs.appendIntent
        (.intent attempt (intentRow options attempt state prepared))).bind fun intentId =>
      (approveAttempt attempt inputs intentId policy).bind fun _ => .pure (prepared, intentId)

/-- The value `appendResult` is called with once the body has settled. -/
def resultRow (options : AttemptOptions) (inputs : AttemptInputs) (prepared : Prepared) : ResultRow :=
  let evidence := match inputs.body with
    | .ok value => (options.evidence.map fun project => project value).getD .null
    | .error cause => options.causeEvidence cause
  let failure := match inputs.body with
    | .ok _ => none
    | .error cause => cause.error?
  let interrupted := match inputs.body with
    | .ok _ => false
    | .error cause => cause.hasInterrupts
  { op := prepared.op
    effect := prepared.effect
    terminal := if interrupted then "interrupted" else "executed"
    usageProvenance := usageProvenance evidence failure
    evidence := evidence }

/-- `executeAttempt`: the body's exit, once the result is written. -/
def executeAttempt (options : AttemptOptions) (attempt : ℕ) (inputs : AttemptInputs)
    (prepared : Prepared) (intentId : String) : Traced (Except FailureCause PlainValue) :=
  let row := resultRow options inputs prepared
  match inputs.appendResult with
  | .ok _ => ([.body attempt, .result attempt intentId row true], .ok inputs.body)
  | .error cause => ([.body attempt, .result attempt intentId row false], .error cause)

def recoverOverflow (inputs : AttemptInputs) (classified : FailureClass) : Traced Bool :=
  if classified = .overflow then
    match inputs.recoverOverflow with
    | none => .pure false
    | some answer => Traced.ofExcept answer
  else .pure false

/-- `arm`, `wait` and `settle` of the retry alarm, in this order. -/
def retryAlarm (options : AttemptOptions) (attempt : ℕ) (inputs : AttemptInputs) (intentId : String)
    (reason : RetryReason) (delayMs : ℚ) : Traced Unit :=
  let fireAt := inputs.now + delayMs
  (Traced.emit inputs.commitArm fun _ =>
    .arm attempt (retryArm options.sessionId ⟨intentId, attempt, reason, fireAt⟩)).bind fun _ =>
  (Traced.ofExcept inputs.send).bind fun _ =>
  (Traced.emit inputs.wait fun _ => .waited attempt fireAt).bind fun _ =>
  Traced.emit inputs.commitSettle fun _ =>
    .settle attempt (retrySettle options.sessionId intentId attempt inputs.settledAt)

/-- `scheduleRetry`: the failure again, or the reason of the attempt to come. -/
def scheduleRetry (options : AttemptOptions) (attempt : ℕ) (inputs : AttemptInputs)
    (failure : AttemptError) (instantFailures : ℕ) (prepared : Prepared) (intentId : String) :
    Traced RetryReason :=
  let classified := inputs.classify failure
  if failureRequiresStop failure inputs.abortedAtFailure || classified = .aborted then .fail failure
  else
    let decision := decideRetry attempt classified inputs.random instantFailures
      prepared.fallbackAvailable
    if maxAttempts ≤ attempt then .fail failure
    else
      (recoverOverflow inputs classified).bind fun recover =>
      if !recover && (classified = .overflow || !decision.retries) then .fail failure
      else
        let delayMs := retryDelay recover decision
        let reason := if recover then .contextOverflow else attemptReason classified
        (Traced.emit (.ok ()) fun _ => .retry attempt delayMs reason).bind fun _ =>
        (retryAlarm options attempt inputs intentId reason delayMs).bind fun _ => .pure reason

/-- `instantFailures` after a failure of this class. -/
def nextStreak (inputs : AttemptInputs) (failure : AttemptError) (instantFailures : ℕ) : ℕ :=
  if isInstantFailure (inputs.classify failure) (inputs.ended - inputs.started) then
    instantFailures + 1
  else 0

/-- What follows the body's exit: its value, or the state in which the loop goes on. -/
def answerOutcome (options : AttemptOptions) (attempt : ℕ) (state : LoopState) (inputs : AttemptInputs)
    (prepared : Prepared) (intentId : String) :
    Except FailureCause PlainValue → Traced (PlainValue ⊕ LoopState)
  | .ok value => .pure (.inl value)
  | .error cause =>
    (Traced.ofExcept (retryableFailure cause)).bind fun failure =>
    (scheduleRetry options attempt inputs failure (nextStreak inputs failure state.instantFailures)
      prepared intentId).bind fun reason =>
    .pure (.inr ⟨state.failures ++ [reason], nextStreak inputs failure state.instantFailures,
      some ⟨intentId, prepared.intent⟩⟩)

def runAttempt (options : AttemptOptions) (attempt : ℕ) (state : LoopState) (inputs : AttemptInputs) :
    Traced (PlainValue ⊕ LoopState) :=
  if inputs.abortedAtStart then .interrupt
  else
    (admitAttempt options attempt state inputs).bind fun admitted =>
    (executeAttempt options attempt inputs admitted.1 admitted.2).bind
      (answerOutcome options attempt state inputs admitted.1 admitted.2)

end Attempts
end OpenOmni
