import OpenOmni.Gate.Evaluate

/-! The evaluation of a stored policy on an operation: its point and `when`, and what the folded decision amounts
to. -/
namespace OpenOmni

open PlainValue

structure PolicyEvaluationInput where
  kind : String
  phase : Phase
  op : Option String := none
  role : Option Role := none
  sessionId : Option String := none
  message : Option MessagePolicyContext := none
  value : PlainValue
  recorded : Option GateDecision := none

structure PolicyTransform where
  ruleId : String
  ref : String

structure CompiledObligation where
  ref : String
  metric : String
  limit : ℕ

inductive EffectiveRowVerdict where
  | allow | deny | requireApproval | transform | obligation
deriving DecidableEq

structure PolicyEvaluation where
  generation : ℕ
  snapshotHash : String
  inputHash : String
  matchedRuleIds : List String
  transforms : List PolicyTransform
  verdict : EffectiveRowVerdict
  reason : Option String
  value : PlainValue
  effects : List PolicyEffect
  obligations : List CompiledObligation
  gate : Option GateDecision := none
  replayed : Option Bool := none
  pending : Option PendingConsult := none

/-- The `ref` of an evaluation with one transform. -/
def PolicyEvaluation.ref (evaluation : PolicyEvaluation) : Option String :=
  match evaluation.transforms with
  | [transform] => some transform.ref
  | _ => none

abbrev PolicySnapshot := CompiledPolicySnapshot MessagePolicyContext

def policyPoint (kind : String) (phase : Phase) : Option PointId :=
  if kind = "session.configure" ∧ phase = .pre then some .sessionOpen
  else if kind = "alarm.fired" ∧ phase = .post then some .alarmFired
  else PointId.parse (kind ++ "." ++ phase.text)

def innerOperation (value : PlainValue) : Option String :=
  ((value.get? "operation").bind (·.get? "op")).bind asStr

/-- `projectedWhenOf`. -/
def projectedWhen (input : PolicyEvaluationInput) : List (String × PlainValue) :=
  [("op", input.op.map .str), ("operation", (innerOperation input.value).map .str),
    ("role", input.role.map (.str ·.text)), ("sessionId", input.sessionId.map .str)].filterMap
    fun slot => slot.2.map (slot.1, ·)

/-- The input as it is hashed: everything but the recorded decision. -/
def PolicyEvaluationInput.identity (input : PolicyEvaluationInput) : PlainValue :=
  record [("kind", some (.str input.kind)), ("phase", some (.str input.phase.text)), ("op", input.op.map .str),
    ("role", input.role.map (.str ·.text)), ("sessionId", input.sessionId.map .str),
    ("message", input.message.map MessagePolicyContext.toPlain), ("value", some input.value)]

def PolicyEvaluationInput.pointInput {Context : Type} (input : PolicyEvaluationInput) (point : PointId) :
    PointInput Context where
  point := point
  when := projectedWhen input
  value := input.value
  message := input.message

def CompiledRow.transforms (row : CompiledRow) : List PolicyTransform :=
  match row.verdict with
  | .transform ref _ => [⟨row.name, ref⟩]
  | _ => []

def CompiledRow.obligations (row : CompiledRow) : List CompiledObligation :=
  match row.verdict with
  | .obligation ref metric limit => [⟨ref, metric, limit⟩]
  | _ => []

def CompiledRow.effects (row : CompiledRow) : List PolicyEffect :=
  match row.verdict with
  | .allow _ _ effects => effects.getD []
  | _ => []

def projectedVerdict (verdict : GateVerdict) (transforms : List PolicyTransform)
    (obligations : List CompiledObligation) : EffectiveRowVerdict :=
  match verdict with
  | .deny => .deny
  | .requireApproval => .requireApproval
  | .allow => if transforms ≠ [] then .transform else if obligations ≠ [] then .obligation else .allow

def CompiledRow.reasonFor (row : CompiledRow) (verdict : GateVerdict) : Option String :=
  match verdict, row.verdict with
  | .deny, .deny reason => some (reason.getD "denied")
  | .requireApproval, .requireApproval reason => some reason
  | .allow, .allow reason reasonCodes _ => reason.or (reasonCodes.bind List.head?)
  | _, _ => none

def projectedReason (verdict : GateVerdict) (matched : List CompiledRow) : Option String :=
  matched.findSome? (·.reasonFor verdict)

def consultedReason (decision : GateDecision) : Option String :=
  (decision.consulted.findSome? fun entry => ((entry.payload.get? "reason").bind asStr).filter (· ≠ "")).or
    (if decision.verdict = .deny then decision.facts.head?.map (·.code) else none)

section Evaluation
variable [PlainCoding]

def PolicyEvaluationInput.hash (input : PolicyEvaluationInput) : String := canonicalDigest input.identity

def refusedEvaluation (snapshot : PolicySnapshot) (input : PolicyEvaluationInput) (reason : String) : PolicyEvaluation where
  generation := snapshot.generation
  snapshotHash := snapshot.contentHash
  inputHash := input.hash
  matchedRuleIds := []
  transforms := []
  verdict := .deny
  reason := some reason
  value := input.value
  effects := []
  obligations := []

def matchedRows (snapshot : PolicySnapshot) (decision : GateDecision) : List CompiledRow :=
  decision.rowIds.filterMap snapshot.rowById.get?

/-- What `evaluate` makes of an outcome. -/
def projectOutcome (snapshot : PolicySnapshot) (input : PolicyEvaluationInput) (outcome : GateOutcome) :
    PolicyEvaluation :=
  let matched := matchedRows snapshot outcome.decision
  let transforms := matched.flatMap CompiledRow.transforms
  let obligations := matched.flatMap CompiledRow.obligations
  { generation := snapshot.generation
    snapshotHash := snapshot.contentHash
    inputHash := input.hash
    matchedRuleIds := matched.map (·.name)
    transforms := transforms
    verdict := projectedVerdict outcome.decision.verdict transforms obligations
    reason := (projectedReason outcome.decision.verdict matched).or (consultedReason outcome.decision)
    value := outcome.value
    effects := matched.flatMap CompiledRow.effects
    obligations := obligations
    gate := some outcome.decision
    replayed := some outcome.replayed
    pending := outcome.pending }

/-- The point an operation is evaluated at, or the reason it is refused for. -/
def evaluationPoint (snapshot : PolicySnapshot) (input : PolicyEvaluationInput) : Except String PointId :=
  match policyPoint input.kind input.phase with
  | none => .error "unknown_point"
  | some point =>
    if !snapshot.pointTable.contains point then .error "unknown_point"
    else if input.kind = "message" ∧ input.op = some "send_message" ∧ input.message = none then
      .error "message_context_missing"
    else .ok point

def PolicyEvaluationInput.options (input : PolicyEvaluationInput) (options : EvaluationOptions) :
    EvaluationOptions :=
  { options with recorded := input.recorded.or options.recorded, inputHash := some input.hash }

/-- What an operation records is replayed under its own hash, where its options record nothing. -/
lemma options_filter {snapshot : PolicySnapshot} {input : PolicyEvaluationInput} {point : PointId}
    {options : EvaluationOptions} (h : options.recorded = none) {kept : Option GateDecision}
    (hkept : input.recorded.filter (replays snapshot (input.pointInput point) input.hash) = kept) :
    (input.options options).recorded.filter
      (replays snapshot (input.pointInput point)
        ((input.options options).hashOf (input.pointInput point : PointInput MessagePolicyContext))) = kept := by
  change (input.recorded.or options.recorded).filter _ = _
  rw [h, Option.or_none]
  exact hkept

/-- `evaluate` of an operation; `none` is a handler's throw. -/
def evaluate (snapshot : PolicySnapshot) (input : PolicyEvaluationInput) (options : EvaluationOptions) :
    Option PolicyEvaluation :=
  match evaluationPoint snapshot input with
  | .error reason => some (refusedEvaluation snapshot input reason)
  | .ok point =>
    (decidePoint snapshot (input.pointInput point) (input.options options)).map (projectOutcome snapshot input)

end Evaluation
end OpenOmni
