import OpenOmni.Lib.Cutoff
import OpenOmni.Store.Write

/-! Settling the operations that a lost process left open in a turn. -/
namespace OpenOmni

open PlainValue

def operationKinds : List Kind := [.llm, .message, .compaction, .tool]

/-- The page size of `operationRecords` and of the reads it pages through. -/
def operationPage : ℕ := 256

section
variable [PlainCoding] (rows : List Node)

def turnOperation (turnId : String) (a : Node) : Bool :=
  operationKinds.contains a.kind && extractIs a.intent "phase" "intent" &&
    (a.parentId = some turnId || extractIs a.intent "turnId" turnId ||
      rows.any fun r => some r.id = a.parentId && r.kind = .turn && extractIs r.intent "phase" "resume" &&
        extractIs r.intent "turnId" turnId)

def hasResult (id : String) : Bool :=
  rows.any fun r => r.parentId = some id && r.kind ≠ .foldCheckpoint && extractIs r.effect "phase" "result"

def inGuardedWave (a : Node) : Bool :=
  a.kind = .tool && rows.any fun guarded =>
    (jsonExtract guarded.intent ["waveId"]).any (fun wave => jsonExtract a.intent ["waveId"] = some wave) &&
      extractIsOne guarded.intent "approvalRequired"

def openOperation (turnId : String) (a : Node) : Bool :=
  turnOperation rows turnId a && !hasResult rows a.id && !inGuardedWave rows a

def openOperationsPage (turnId : String) (cursor : ℕ) : List Node :=
  (rows.filter fun a => cursor < a.ordinal && openOperation rows turnId a).take operationPage

def operationChildrenPage (parentId : String) (cursor : ℕ) : List Node :=
  (rows.filter fun a => cursor < a.ordinal && a.parentId = some parentId).take operationPage

def actionRow (id : String) : Option Node := rows.find? (·.id = id)

/-- `SessionHistory.Outcome` without `pending`. -/
def outcomes : List String :=
  ["executed", "failed", "blocked_pre", "blocked_post", "cancelled", "outcome_unknown"]

/-- `resultFor` with the identity check of `resultForIn`, which throws. -/
def resultForIn (parentId : String) : Except Unit (Option Node) :=
  match (rows.filter fun r => r.parentId = some parentId && r.kind ≠ .foldCheckpoint &&
      extractIs r.effect "phase" "result").getLast? with
  | none => .ok none
  | some result =>
    if (actionRow rows parentId).any (·.kind = result.kind) && extractIs result.intent "phase" "result" &&
        outcomes.any (extractIs result.effect "terminal") then .ok (some result)
    else .error ()

end

inductive RecoveryClassification where
  | localTransactional | endpointIdempotent | readBackReconcilable | ambiguousNoReplay
deriving DecidableEq

def RecoveryClassification.text : RecoveryClassification → String
  | .localTransactional => "local_transactional"
  | .endpointIdempotent => "endpoint_idempotent"
  | .readBackReconcilable => "read_back_reconcilable"
  | .ambiguousNoReplay => "ambiguous_no_replay"

def classifications : List RecoveryClassification :=
  [.localTransactional, .endpointIdempotent, .readBackReconcilable, .ambiguousNoReplay]

/-- `recoveryClassification` of a request that pins none. -/
def recoveryClassification (kind : Kind) : RecoveryClassification :=
  if kind = .compaction ∨ kind = .message then .localTransactional else .ambiguousNoReplay

def recordedClassification (v : Option PlainValue) : Option RecoveryClassification :=
  classifications.find? fun classification => v = some (.str classification.text)

structure RecoveryVerdict where
  /-- `outcome_unknown`, else `interrupted`. -/
  unknown : Bool
  classification : RecoveryClassification
  proof : String
  proofReceipt : PlainValue

def RecoveryVerdict.terminal (verdict : RecoveryVerdict) : String :=
  if verdict.unknown then "outcome_unknown" else "interrupted"

mutual
/-- `String(value)`. -/
def jsString : PlainValue → String
  | .null => "null"
  | .bool b => if b then "true" else "false"
  | .num q => text (.num q)
  | .str s => s
  | .arr items => ",".intercalate (jsStrings items)
  | .obj _ => "[object Object]"
/-- The items of `String([…])`; `null` is empty there. -/
def jsStrings : List PlainValue → List String
  | [] => []
  | .null :: items => "" :: jsStrings items
  | item :: items => jsString item :: jsStrings items
end

/-- `String(intent.op)`. -/
def opText (intent : PlainValue) : String := ((intent.get? "op").map jsString).getD "undefined"

section
variable [PlainCoding]

def proofReceipt (receipt : Node) : PlainValue :=
  record [("id", some (.str receipt.id)), ("digest", some (.str (canonicalDigest receipt.effect)))]

def localAbsent (receipt : Node) : RecoveryVerdict :=
  ⟨false, .localTransactional, "absent", proofReceipt receipt⟩

def crashVerdict (action : Node) : RecoveryVerdict :=
  let classification :=
    (recordedClassification (action.intent.get? "recovery")).getD (recoveryClassification action.kind)
  if classification = .localTransactional then localAbsent action
  else ⟨true, classification, "indeterminate", .null⟩

def crashEffect (action : Node) (verdict : RecoveryVerdict) : PlainValue :=
  let callId := (action.intent.get? "callId").bind asStr
  let op := opText action.intent
  record [("phase", some (.str "result")), ("terminal", some (.str verdict.terminal)),
    ("effect", some ((action.intent.get? "effect").filter (· ≠ .null) |>.getD (.obj []))),
    ("evidence", some (record [("failures", some (.arr [record [("tag", some (.str "OutcomeUnknown")),
        ("reason", some (.str "process_lost"))]])), ("defects", some (.arr [])),
      ("interrupted", some (.bool false))])),
    ("error", some (record [("name", some (.str "ProcessLost"))])),
    ("callId", callId.map .str),
    ("toolResult", if action.kind = .tool then callId.map fun callId => record [("id", some (.str callId)),
        ("toolCallId", some (.str callId)), ("toolName", some (.str op)),
        ("output", some (.str
          (op ++ " outcome unknown: the process was lost before a result was recorded"))),
        ("isError", some (.bool true)),
        ("settlement", some (.str (if verdict.unknown then "unknown" else "settled")))] else none),
    ("recovery", some (record [("site", some (.str "crash")),
      ("classification", some (.str verdict.classification.text)), ("proof", some (.str verdict.proof)),
      ("proofReceipt", some verdict.proofReceipt), ("revertReceipt", some .null),
      ("rawSettled", some (.bool false))]))]

def boundaryEffect (action boundary : Node) : PlainValue :=
  let result := (boundary.effect.get? "result").getD .null
  record [("phase", some (.str "result")), ("terminal", some (.str "executed")),
    ("effect", some ((action.intent.get? "effect").filter (· ≠ .null) |>.getD (.obj []))),
    ("resultHash", some (.str (canonicalDigest result))), ("result", some result),
    ("recovery", some (record [("site", some (.str "crash")),
      ("classification", some (.str "local_transactional")), ("proof", some (.str "applied")),
      ("proofReceipt", some (proofReceipt boundary)), ("revertReceipt", some .null),
      ("rawSettled", some (.bool true))]))]

/-- The row of `boundaryEvidence`. -/
def boundaryEvidence (rows : List Node) (intentId : String) : Option Node :=
  (actionRow rows (intentId ++ ":boundary")).filter fun action => extractIs action.effect "phase" "boundary"

def hasVisiblePrefix (action : Node) : Bool :=
  let evidence := (action.effect.get? "evidence").getD .null
  evidence.get? "visibleOutput" = some (.bool true) ||
    ((evidence.get? "failures").bind asArr).any (·.any fun failure =>
      failure.get? "visibleOutput" = some (.bool true))

/-- What recovery stands on: its session and turn, and the ids and times of the rows it commits, by the
number of rows that are there before. -/
structure RecoveryScope where
  sessionId : String
  turnId : String
  entropy : ℕ → String
  clock : ℕ → ℚ

/-- The session's rows, and how many commits still come through before the process is lost; `none` if it
is not. -/
structure Log where
  rows : List Node
  left : Option ℕ
deriving DecidableEq

abbrev Recover := Cutoff.Program Log

namespace Recover

def rows : Recover (List Node) := Cutoff.view Log.rows

/-- `record.commit`: the row goes in, unless the process is lost before or the id is taken. -/
def commit (action : Append) : Recover Unit := fun log =>
  if log.left = some 0 ∨ log.rows.any (·.id = action.id) then .error log
  else .ok ((), ⟨log.rows ++ [⟨action, log.rows.length + 1⟩], log.left.map (· - 1)⟩)

variable (scope : RecoveryScope)

def appendResult (kind : Kind) (op parentId : String) (value : PlainValue) (revert : Option PlainValue) :
    Recover Unit := do
  let count := (← rows).length
  commit { id := scope.entropy count, parentId := some parentId, sessionId := scope.sessionId, kind,
           intent := record [("phase", some (.str "result")), ("op", some (.str op))],
           effect := value, revert, ts := scope.clock count }

def settleCrash (action : Node) (verdict : RecoveryVerdict) : Recover Unit :=
  appendResult scope action.kind (opText action.intent) action.id (crashEffect action verdict) none

def settleFromBoundary (action boundary : Node) : Recover Unit :=
  appendResult scope action.kind (opText action.intent) action.id (boundaryEffect action boundary)
    (((boundary.effect.get? "result").getD .null).get? "revert")

def terminal (intentId : String) : Recover (Option Node) := do
  match resultForIn (← rows) intentId with
  | .ok result => return result
  | .error () => Cutoff.lost

/-- `for (const action of operationRecords(read, id))`: every page is read after the work on the one
before. -/
def eachRecord {β : Type} (read : List Node → ℕ → List Node) (visit : β → Node → Recover β) :
    ℕ → ℕ → β → Recover β
  | 0, _, acc => return acc
  | fuel + 1, cursor, acc => do
    let page := read (← rows) cursor
    let acc ← page.foldlM visit acc
    if page.length < operationPage then return acc
    eachRecord read visit fuel ((page.getLast?.map (·.ordinal)).getD cursor) acc

/-- One child of a model operation: whether the attempts are ambiguous so far, and the last row that is
settled. -/
def settleAttempt (action : Node) (state : Bool × Node) (attempt : Node) : Recover (Bool × Node) := do
  if attempt.kind ≠ .llm ∨ attempt.parentId ≠ some action.id then return state
  if !extractIs attempt.intent "phase" "intent" then return state
  match ← terminal attempt.id with
  | some settled => return (state.1 || hasVisiblePrefix settled, settled)
  | none =>
    settleCrash scope attempt (crashVerdict attempt)
    return (true, state.2)

def settleLlm (action : Node) : Recover Unit := do
  let fuel := (← rows).length + 1
  let (ambiguous, lastSettled) ← eachRecord (operationChildrenPage · action.id) (settleAttempt scope action)
    fuel 0 (false, action)
  settleCrash scope action (if ambiguous then crashVerdict action else localAbsent lastSettled)

def settle (action : Node) : Recover Unit := do
  if action.kind ≠ .llm then
    match boundaryEvidence (← rows) action.id with
    | none => settleCrash scope action (crashVerdict action)
    | some boundary => settleFromBoundary scope action boundary
  else settleLlm scope action

end Recover

def recover (scope : RecoveryScope) : Recover Unit := do
  let fuel := (← Recover.rows).length + 1
  Recover.eachRecord (openOperationsPage · scope.turnId) (fun _ action => Recover.settle scope action)
    fuel 0 ()

end
end OpenOmni
