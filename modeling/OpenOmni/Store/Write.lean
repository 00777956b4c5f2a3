import OpenOmni.Protocol.Ledger

/-! The write side of one session file: every entry point as a function of its tables. -/
namespace OpenOmni

/-- A row of `armed_alarms`. -/
structure ArmedRow where
  alarmId : String
  occurrenceId : String
  fireAt : ℚ
  strikes : ℕ := 0
deriving DecidableEq

/-- The tables of a session file that a write touches. Rows stand in insertion order. -/
structure Db where
  sessions : List Row := []
  actions : List Node := []
  armed : List ArmedRow := []

inductive CommitReason where
  | fence | revision
deriving DecidableEq

inductive MaterializeReason where
  | input | state | configuration
deriving DecidableEq

/-- How a write is refused; every refusal is thrown out of the transaction. -/
inductive Refusal where
  | invalid
  | constraint
  | sessionNotFound (sessionId : String)
  | schemaRefused (sessionId actionId : String) (kind : Kind) (reason : String)
  | materializeRefused (sessionId : String) (reason : MaterializeReason)
  | fenceRefused (sessionId : String) (holder : Option String) (fence : ℕ)
  | commitRefused (sessionId : String) (reason : CommitReason)
      (expectedRevision currentRevision fence currentFence : ℕ)
  | corruptRecord (operation id : String)
deriving DecidableEq

/-- The value-level outcome of `commitSession`. -/
inductive CommitResult where
  | ok (row : Row) (receipts : List Receipt)
  | refused (reason : CommitReason) (currentFence currentRevision : ℕ)

inductive MaterializeResult where
  | created (row : Row) (receipt : Receipt)
  | existing (row : Row)

/-- What SQLite's `json_extract` yields of a value; SQL `NULL` is `none`. -/
inductive SqlValue where
  | num (q : ℚ)
  | text (s : String)
deriving DecidableEq

/-- `json_extract(v, '$.key') = text`. -/
def extractIs (v : PlainValue) (key text : String) : Bool := v.get? key = some (.str text)

/-- `json_extract(v, '$.key') = 1`. -/
def extractIsOne (v : PlainValue) (key : String) : Bool :=
  v.get? key = some (.bool true) || v.get? key = some (.num 1)

variable [PlainCoding]

def sqlValue : PlainValue → Option SqlValue
  | .null => none
  | .bool b => some (.num (if b then 1 else 0))
  | .num q => some (.num q)
  | .str s => some (.text s)
  | v => some (.text (PlainCoding.jsonText v))

/-- `json_extract(v, '$.a.b')`. -/
def jsonExtract (v : PlainValue) : List String → Option SqlValue
  | [] => sqlValue v
  | key :: path => (v.get? key).bind (jsonExtract · path)

/-- `value > q`: in SQLite every text sorts after every number. -/
def SqlValue.gt (q : ℚ) : SqlValue → Bool
  | .num r => decide (q < r)
  | .text _ => true

namespace Db

def selectSession (db : Db) (id : String) : Option Row := db.sessions.find? (·.id = id)

def actionExists (db : Db) (id : String) : Bool := db.actions.any (·.id = id)

/-- `parentBelongsToSession` of a present parent. -/
def parentBelongsToSession (db : Db) (parentId sessionId : String) : Bool :=
  (db.actions.find? (·.id = parentId)).any (·.sessionId = sessionId)

/-- `INSERT … ON CONFLICT(id) DO NOTHING` into `session`. -/
def insertSession (db : Db) (row : Row) : Option Db :=
  if db.sessions.any (·.id = row.id) then none
  else some { db with sessions := db.sessions ++ [row] }

/-- `sessionOpenApprovalCount`: requests whose latest row is an open approval opened after
`since`. -/
def sessionOpenApprovalCount (db : Db) (since : ℚ) : ℕ :=
  let rows := db.actions.filter (·.kind = .request)
  let key := fun row : Node => jsonExtract row.effect ["request", "requestId"]
  rows.countP fun row =>
    (rows.all fun other => key other ≠ key row || decide (other.ordinal ≤ row.ordinal)) &&
      (jsonExtract row.effect ["request", "state"] = some (.text "open")) &&
      (jsonExtract row.effect ["request", "mode"] = some (.text "approval")) &&
      (jsonExtract row.effect ["request", "createdAt"]).any (SqlValue.gt since)

end Db

/-- The refusal of a row its kind's declaration or the byte cap rejects, if any. -/
def refuseRow (rowByteCap : ℕ) (action : Append) : Option Refusal :=
  match Journal.firstIssue action.kind action.intent action.effect with
  | some reason => some (.schemaRefused action.sessionId action.id action.kind reason)
  | none =>
    if actionPayloadBytes action > rowByteCap then
      some (.schemaRefused action.sessionId action.id action.kind "row_bytes")
    else none

/-- One pass of `validActionBatch`'s loop, with the batch's ids seen so far. -/
def validActions (db : Db) (sessionId : String) : List String → List Append → Bool
  | _, [] => true
  | ids, action :: actions =>
    action.sessionId = sessionId && !ids.contains action.id && !db.actionExists action.id &&
      (action.parentId.all fun parent =>
        ids.contains parent || db.parentBelongsToSession parent sessionId) &&
      validActions db sessionId (action.id :: ids) actions

def validActionBatch (db : Db) (actions : List Append) (sessionId : String) : Bool :=
  validActions db sessionId [] actions

inductive ArmedAlarmDelta where
  | upsert (alarmId occurrenceId : String) (fireAt : ℚ)
  | retire (alarmId : String)
  | fired (occurrenceId : String)
deriving DecidableEq

/-- `ArmDeltaIntent.safeParse`: the alarm id and due time of an arm. -/
def armDeltaIntent (intent : PlainValue) : Option (String × Option ℚ) := do
  guard (intent.get? "op" = some (.str "arm"))
  let alarmId ← (intent.get? "alarmId").bind readId
  let due ← (intent.get? "at").bind (PlainValue.nullable PlainValue.asNum)
  return (alarmId, due)

/-- `FiredDeltaIntent.safeParse`. -/
def firedDeltaIntent (intent : PlainValue) : Option String := do
  guard (intent.get? "op" = some (.str "fired"))
  (intent.get? "occurrenceId").bind readId

/-- `armedAlarmDelta`: derived from the row, never supplied by the caller. -/
def armedAlarmDelta (action : Append) : Option ArmedAlarmDelta :=
  if action.kind ≠ .alarm then none
  else match armDeltaIntent action.intent with
    | some (alarmId, none) => some (.retire alarmId)
    | some (alarmId, some fireAt) =>
      ((action.effect.get? "occurrenceId").bind readId).map fun occurrence =>
        .upsert alarmId occurrence fireAt
    | none => (firedDeltaIntent action.intent).map .fired

/-- `applyArmedAlarmDelta`; the unique occurrence column refuses a second alarm under one
occurrence. -/
def applyArmedAlarmDelta (armed : List ArmedRow) : ArmedAlarmDelta → Except Refusal (List ArmedRow)
  | .upsert alarmId occurrenceId fireAt =>
    if armed.any fun row => row.occurrenceId = occurrenceId && row.alarmId ≠ alarmId then
      .error .constraint
    else if armed.any (·.alarmId = alarmId) then
      .ok (armed.map fun row =>
        if row.alarmId = alarmId then ⟨alarmId, occurrenceId, fireAt, 0⟩ else row)
    else .ok (armed ++ [⟨alarmId, occurrenceId, fireAt, 0⟩])
  | .retire alarmId => .ok (armed.filter (·.alarmId ≠ alarmId))
  | .fired occurrenceId => .ok (armed.filter (·.occurrenceId ≠ occurrenceId))

def applyDelta (armed : List ArmedRow) (action : Append) : Except Refusal (List ArmedRow) :=
  match armedAlarmDelta action with
  | none => .ok armed
  | some delta => applyArmedAlarmDelta armed delta

/-- `INSERT INTO action` with the table's uniqueness and reference constraints. -/
def insertAction (db : Db) (node : Node) : Except Refusal Db :=
  if db.actionExists node.id ||
      db.actions.any (fun row => row.sessionId = node.sessionId && row.ordinal = node.ordinal) ||
      !node.parentId.all db.actionExists ||
      !db.sessions.any (·.id = node.sessionId) then
    .error .constraint
  else .ok { db with actions := db.actions ++ [node] }

/-- `appendValidatedAction`; `none` is the `undefined` of a revision that moved, which writes
nothing. -/
def appendValidatedAction (db : Db) (action : Append) (expectedRevision : ℕ) :
    Except Refusal (Option (Receipt × Db)) :=
  if db.sessions.any fun row => row.id = action.sessionId && row.revision = expectedRevision then do
    let revision := expectedRevision + 1
    let node : Node := { action with ordinal := revision }
    let updated := db.sessions.map fun row =>
      if row.id = action.sessionId ∧ row.revision = expectedRevision then { row with revision }
      else row
    let inserted ← insertAction { db with sessions := updated } node
    let armed ← applyDelta inserted.armed action
    return some (⟨node, revision⟩, { inserted with armed })
  else return none

def appendAction (rowByteCap : ℕ) (db : Db) (action : Append) (expectedRevision : ℕ) :
    Except Refusal (Option (Receipt × Db)) :=
  match refuseRow rowByteCap action with
  | some refusal => .error refusal
  | none =>
    if validActionBatch db [action] action.sessionId then
      appendValidatedAction db action expectedRevision
    else .ok none

def sessionAuthorityRefusal (db : Db) (request : Commit) (current : Row) : Option CommitResult :=
  if current.fenceOwner ≠ some request.owner ∨ current.fence ≠ request.fence then
    some (.refused .fence current.fence current.revision)
  else if current.revision ≠ request.expectedRevision then
    some (.refused .revision current.fence current.revision)
  else if request.requestCount.any fun approvals =>
      db.sessionOpenApprovalCount approvals.since ≠ approvals.count then
    some (.refused .revision current.fence current.revision)
  else none

/-- The append loop of `commitSession`; `none` when a row is refused half way, with the tables as
the rows before it left them. -/
def appendValidatedActions (db : Db) : ℕ → List Append → Except Refusal (Option (List Receipt) × Db)
  | _, [] => .ok (some [], db)
  | revision, action :: actions => do
    match ← appendValidatedAction db action revision with
    | none => return (none, db)
    | some (receipt, db') =>
      let (rest, db'') ← appendValidatedActions db' receipt.revision actions
      return (rest.map (receipt :: ·), db'')

/-- The part of `commitSession` that writes. -/
def commitValidated (db : Db) (request : Commit) (current : Row) :
    Except Refusal (Option CommitResult × Db) := do
  let (appended, db') ← appendValidatedActions db current.revision request.actions
  match appended with
  | none => return (some (.refused .revision current.fence current.revision), db')
  | some receipts =>
    let revision := current.revision + request.actions.length
    let generation := request.generation.getD current.toGenerationPointers
    let updates := fun row : Row => row.id = request.sessionId &&
      row.fenceOwner = some request.owner && row.fence = request.fence && row.revision = revision
    if !db'.sessions.any updates then
      return (some (.refused .fence current.fence current.revision), db')
    let db'' := { db' with
      sessions := db'.sessions.map fun row =>
        if updates row then { row with toGenerationPointers := generation, state := request.state }
        else row }
    match db''.selectSession request.sessionId with
    | none => throw (.corruptRecord "session.commit" request.sessionId)
    | some row => return (some (.ok row receipts), db'')

/-- `commitSession`; `none` when the file has no such session. -/
def commitSession (rowByteCap : ℕ) (db : Db) (request : Commit) :
    Except Refusal (Option CommitResult × Db) :=
  match db.selectSession request.sessionId with
  | none => .ok (none, db)
  | some current =>
    match sessionAuthorityRefusal db request current with
    | some refusal => .ok (some refusal, db)
    | none =>
      match request.actions.findSome? (refuseRow rowByteCap) with
      | some refusal => .error refusal
      | none =>
        if !validActionBatch db request.actions request.sessionId then
          .ok (some (.refused .revision current.fence current.revision), db)
        else
          commitValidated db request current

def materializeSession (rowByteCap : ℕ) (db : Db) (input : Materialize) :
    Except Refusal (MaterializeResult × Db) :=
  if input.initialAction.sessionId ≠ input.row.id ∨
      input.initialAction.kind ≠ .sessionConfigure ∨
      input.initialAction.parentId ≠ none ∨ input.row.revision ≠ 0 then
    .error (.materializeRefused input.row.id .input)
  else match db.insertSession input.row with
    | none => match db.selectSession input.row.id with
      | none => .error (.materializeRefused input.row.id .state)
      | some existing => .ok (.existing existing, db)
    | some inserted => do
      match ← appendAction rowByteCap inserted input.initialAction 0 with
      | none => throw (.materializeRefused input.row.id .configuration)
      | some (receipt, db') =>
        match db'.selectSession input.row.id with
        | none => throw (.corruptRecord "materialize" input.row.id)
        | some row => return (.created row receipt, db')

def adoptFence (db : Db) (request : AdoptFence) : Except Refusal (ℕ × Db) :=
  match db.selectSession request.sessionId with
  | none => .error (.sessionNotFound request.sessionId)
  | some current =>
    if current.fenceOwner = some request.owner ∧ current.fence = request.fence then
      .ok (request.fence, db)
    else if current.fence ≥ request.fence then
      .error (.fenceRefused current.id current.fenceOwner current.fence)
    else
      .ok (request.fence, { db with
        sessions := db.sessions.map fun row =>
          if row.id = request.sessionId ∧ row.fence < request.fence then
            { row with fenceOwner := some request.owner, fence := request.fence }
          else row })

/-- The copy loop of `SessionStore.fork`. -/
def forkCopies (rowByteCap : ℕ) (db : Db) : Receipt → List Append → Except Refusal (Receipt × Db)
  | receipt, [] => .ok (receipt, db)
  | receipt, copy :: copies =>
    if !copy.valid then .error .invalid
    else do
      match ← appendAction rowByteCap db copy receipt.revision with
      | none => throw (.corruptRecord "session.fork" copy.id)
      | some (appended, db') => forkCopies rowByteCap db' appended copies

/-- The child-file transaction of `SessionStore.fork`. -/
def forkSession (rowByteCap : ℕ) (db : Db) (input : Materialize) (copies : List Append) :
    Except Refusal ((Row × String × ℕ) × Db) := do
  let (created, db') ← materializeSession rowByteCap db input
  match created with
  | .existing _ => throw (.materializeRefused input.row.id .state)
  | .created _ receipt =>
    let (head, db'') ← forkCopies rowByteCap db' receipt copies
    match db''.selectSession input.row.id with
    | none => throw (.corruptRecord "session.fork" input.row.id)
    | some row => return ((row, head.action.id, copies.length), db'')

/-- `BEGIN IMMEDIATE … COMMIT`: a throw restores the tables. -/
def transaction {α : Type} (operation : Db → Except Refusal (α × Db)) (db : Db) :
    Except Refusal α × Db :=
  match operation db with
  | .ok (a, db') => (.ok a, db')
  | .error refusal => (.error refusal, db)

inductive WriteOp where
  | materialize (input : Materialize)
  | adoptFence (input : AdoptFence)
  | commit (input : Commit)
  | append (input : Append) (expectedRevision : ℕ)
  | fork (input : Materialize) (copies : List Append)

inductive WriteOutcome where
  | materialized (result : MaterializeResult)
  | adopted (fence : ℕ)
  | committed (row : Row) (receipts : List Receipt)
  | appended (receipt : Option Receipt)
  | forked (row : Row) (head : String) (copied : ℕ)

/-- One entry point inside its transaction: the parse of its input, the write, and the refusals the
adapter makes of a value-level result. -/
def runWrite (rowByteCap : ℕ) (op : WriteOp) (db : Db) : Except Refusal (WriteOutcome × Db) :=
  match op with
  | .materialize input =>
    if !input.valid then .error .invalid
    else (materializeSession rowByteCap db input).map fun r => (.materialized r.1, r.2)
  | .adoptFence input =>
    if !input.valid then .error .invalid
    else (adoptFence db input).map fun r => (.adopted r.1, r.2)
  | .commit input =>
    if !input.valid then .error .invalid
    else do
      match ← commitSession rowByteCap db input with
      | (none, _) => throw (.sessionNotFound input.sessionId)
      | (some (.refused reason fence revision), _) =>
        throw (.commitRefused input.sessionId reason input.expectedRevision revision
          input.fence fence)
      | (some (.ok row receipts), db') => return (.committed row receipts, db')
  | .append input expectedRevision =>
    if !input.valid then .error .invalid
    else do
      match ← appendAction rowByteCap db input expectedRevision with
      | none => return (.appended none, db)
      | some (receipt, db') => return (.appended (some receipt), db')
  | .fork input copies =>
    if !input.valid then .error .invalid
    else (forkSession rowByteCap db input copies).map fun r =>
      (.forked r.1.1 r.1.2.1 r.1.2.2, r.2)

def write (rowByteCap : ℕ) (op : WriteOp) (db : Db) : Except Refusal WriteOutcome × Db :=
  transaction (runWrite rowByteCap op) db

def writes (rowByteCap : ℕ) (ops : List WriteOp) (db : Db) : Db :=
  ops.foldl (fun db op => (write rowByteCap op db).2) db

end OpenOmni
