import OpenOmni.Protocol.Plain

/-! The ledger's rows, session rows and write requests, with the checks their schemas make. -/
namespace OpenOmni

/-- The twelve journal kinds and the store-internal checkpoint kind. -/
inductive Kind where
  | prompt | signal | turn | llm | message | request | alarm
  | sessionConfigure | policyDecision | tool | compaction | action | foldCheckpoint
deriving DecidableEq, Inhabited

/-- `z.string().min(1)`. -/
def isId (s : String) : Bool := s ≠ ""

/-- `z.string().min(1)` as a read. -/
def readId (v : PlainValue) : Option String := v.asStr.filter isId

/-- `z.string().min(1).nullable()`. -/
def isNullableId (s : Option String) : Bool := s ≠ some ""

/-- A row to append. `revert = none` is the `irreversible: true` member of the union, and the
payloads' encoding version is the literal 1. -/
structure Append where
  id : String
  parentId : Option String
  sessionId : String
  kind : Kind
  intent : PlainValue
  effect : PlainValue
  revert : Option PlainValue := none
  ts : ℚ
deriving DecidableEq

/-- `LedgerAction.Append.parse`. -/
def Append.valid (a : Append) : Bool :=
  isId a.id && isNullableId a.parentId && isId a.sessionId && decide (0 ≤ a.ts)

structure Node extends Append where
  ordinal : ℕ
deriving DecidableEq

structure Receipt where
  action : Node
  revision : ℕ

inductive Role where
  | resident | child
deriving DecidableEq

inductive SessionState where
  | idle | running | interrupted
deriving DecidableEq

structure GenerationPointers where
  toolsGeneration : ℕ
  systemHash : String
  policyGeneration : ℕ
deriving DecidableEq

structure Row extends GenerationPointers where
  id : String
  parentId : Option String
  role : Role
  fenceOwner : Option String
  fence : ℕ
  revision : ℕ
  state : SessionState
deriving DecidableEq

def Row.valid (row : Row) : Bool :=
  isId row.id && isNullableId row.parentId && isNullableId row.fenceOwner

structure Materialize where
  row : Row
  initialAction : Append

def Materialize.valid (m : Materialize) : Bool := m.row.valid && m.initialAction.valid

structure AdoptFence where
  sessionId : String
  owner : String
  fence : ℕ

def AdoptFence.valid (a : AdoptFence) : Bool :=
  isId a.sessionId && isId a.owner && decide (0 < a.fence)

structure ApprovalCount where
  since : ℚ
  count : ℕ
deriving DecidableEq

structure Commit where
  sessionId : String
  owner : String
  fence : ℕ
  now : ℚ
  expectedRevision : ℕ
  actions : List Append
  state : SessionState
  generation : Option GenerationPointers := none
  requestCount : Option ApprovalCount := none
deriving DecidableEq

/-- `z.number().int()`. -/
def isInt (q : ℚ) : Bool := decide (q.den = 1 ∧ q.num.natAbs ≤ PlainValue.maxSafeInteger)

def Commit.valid (c : Commit) : Bool :=
  isId c.sessionId && isId c.owner && decide (0 < c.fence) && decide (0 ≤ c.now) &&
    c.actions.all Append.valid && c.requestCount.all fun r => isInt r.since

/-- A strict object schema: required and optional fields, nothing else. -/
def strictObject (required optional : List (String × (PlainValue → Bool))) (v : PlainValue) : Bool :=
  v.objectValue.isSome &&
    v.strict (required.map Prod.fst ++ optional.map Prod.fst) &&
    required.all (fun field => (v.get? field.1).any field.2) &&
    optional.all fun field => (v.get? field.1).all field.2

def isString (v : PlainValue) : Bool := v.asStr.isSome
def isNonempty (v : PlainValue) : Bool := v.asStr.any isId
def isNumber (v : PlainValue) : Bool := v.asNum.isSome
def isCount (v : PlainValue) : Bool := v.asCount.isSome
def isPositive (v : PlainValue) : Bool := v.asCount.any (0 < ·)
def isOneOf (texts : List String) (v : PlainValue) : Bool := v.asStr.any texts.contains
def isNullable (check : PlainValue → Bool) (v : PlainValue) : Bool := v = .null || check v
def isArrayOf (check : PlainValue → Bool) (v : PlainValue) : Bool := v.asArr.any (·.all check)

namespace Journal

inductive Side where
  | intent | effect

/-- One `refineField`: a named field of a side that, when present, must pass. -/
structure FieldCheck where
  side : Side
  name : String
  field : PlainValue → Bool

def refineField (check : FieldCheck) (intent effect : PlainValue) : Option String :=
  let body := match check.side with
    | .intent => intent
    | .effect => effect
  match body.get? check.name with
  | none => none
  | some value => if check.field value then none else some s!"invalid {check.name}"

def width : List String := ["steer", "followUp"]

def compactionReason : List String :=
  ["overflow", "threshold", "manual", "model_requested", "fallback"]

def checkpointPolicy : PlainValue → Bool :=
  strictObject [("everyActions", isPositive), ("maxTailBytes", isPositive)] []

def settings : PlainValue → Bool :=
  strictObject [("steering", isOneOf ["all", "one"]), ("followUp", isOneOf ["all", "one"])]
    [("forkCopyByteCap", isPositive),
      ("toolOutputBudgetBytes", fun v => v.asCount.any fun n => 200 ≤ n && n ≤ 1048576),
      ("checkpoint", checkpointPolicy)]

def disabledEntry : PlainValue → Bool :=
  strictObject [("name", isNonempty), ("because", isNonempty)] []

def forkedFrom : PlainValue → Bool :=
  strictObject [("session", isNonempty), ("anchor", isNonempty), ("parentSeq", isPositive),
    ("parentHead", isNonempty), ("copied", isCount)] []

/-- A nullable loose object whose `reason`, when present, is a compaction reason. -/
def compactionResult (v : PlainValue) : Bool :=
  v = .null || (v.objectValue.isSome && (v.get? "reason").all (isOneOf compactionReason))

/-- `declarationFor`: the field checks of each journal kind, none for `fold.checkpoint`. -/
def declarationFor : Kind → Option (List FieldCheck)
  | .prompt => some [⟨.intent, "delivery", isOneOf width⟩]
  | .signal => some [⟨.intent, "control", isOneOf ["interrupt", "resume", "cancel"]⟩]
  | .turn => some [⟨.intent, "consumedStale", isArrayOf isNonempty⟩,
      ⟨.intent, "outcome", isOneOf ["interrupted"]⟩]
  | .llm => some [⟨.intent, "attempt", isPositive⟩, ⟨.intent, "generation", isCount⟩]
  | .message => some [⟨.intent, "to", isOneOf ["channel", "session"]⟩,
      ⟨.intent, "direction", isOneOf ["out"]⟩]
  | .request => some [⟨.effect, "phase", isOneOf ["open", "answered", "resolved", "expired"]⟩]
  | .alarm => some [⟨.intent, "op", isOneOf ["arm", "fired"]⟩,
      ⟨.intent, "outcome", isOneOf ["delivered", "stale", "exhausted"]⟩,
      ⟨.intent, "purpose", isNonempty⟩, ⟨.intent, "at", isNullable isNumber⟩,
      ⟨.intent, "supersedes", isNullable isNonempty⟩, ⟨.intent, "alarmId", isNonempty⟩,
      ⟨.intent, "sourceKey", isNonempty⟩, ⟨.intent, "occurrenceId", isNonempty⟩,
      ⟨.effect, "occurrenceId", isNonempty⟩]
  | .sessionConfigure => some [⟨.intent, "settings", settings⟩,
      ⟨.intent, "disabled", isArrayOf disabledEntry⟩, ⟨.intent, "forkedFrom", forkedFrom⟩]
  | .policyDecision => some []
  | .tool => some []
  | .compaction => some [⟨.intent, "reason", isOneOf compactionReason⟩,
      ⟨.effect, "result", compactionResult⟩]
  | .action => some [⟨.intent, "delivery", isOneOf width⟩, ⟨.intent, "after", isCount⟩]
  | .foldCheckpoint => none

def firstIssue (kind : Kind) (intent effect : PlainValue) : Option String :=
  (declarationFor kind).bind fun checks =>
    checks.findSome? fun check => refineField check intent effect

end Journal

variable [PlainCoding]

/-- `Alarm.occurrenceId`: the committed identity of one arm of an alarm. -/
def occurrenceKey (sessionId alarmId : String) (armSeq : ℕ) (sourceKey : String) : PlainValue :=
  .arr [.str "alarm.occurrence", .str sessionId, .str alarmId, .num armSeq, .str sourceKey]

def occurrenceId (sessionId alarmId : String) (armSeq : ℕ) (sourceKey : String) : String :=
  canonicalDigest (occurrenceKey sessionId alarmId armSeq sourceKey)

/-- `actionPayloadBytes`: intent, effect and revert text. -/
def actionPayloadBytes (a : Append) : ℕ :=
  byteLength a.intent + byteLength a.effect + a.revert.elim 0 byteLength

end OpenOmni
