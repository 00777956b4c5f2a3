import OpenOmni.Protocol.SessionTurn
import OpenOmni.Store.Write

/-! The pending inputs of a session, read in full and read on from an earlier snapshot. -/
namespace OpenOmni

open PlainValue SessionTransition

/-- An `action` row of a session file as `ActionSqlRow` takes it. `intent` and `effect` are what their texts
say, since the indexes over them refuse bytes that are no JSON; the inner `none` of `revert` is bytes that
are none, and `kind` is `none` outside the vocabulary. -/
structure StoredRow where
  id : String
  parentId : Option String
  sessionId : String
  kind : Option Kind
  intent : PlainValue
  effect : PlainValue
  revert : Option (Option PlainValue)
  irreversible : Bool
  encodingVersion : ℕ
  ts : ℚ
  ordinal : ℕ

def inDouble (q : ℚ) : Bool := decide (|q| < 2 ^ 1024 - 2 ^ 970)

mutual
/-- `PlainValueSchema` of what `JSON.parse` makes of a text. -/
def readable : PlainValue → Bool
  | .num q => inDouble q
  | .arr items => readableItems items
  | .obj fields => readableFields fields
  | _ => true
def readableItems : List PlainValue → Bool
  | [] => true
  | item :: items => readable item && readableItems items
def readableFields : List (String × PlainValue) → Bool
  | [] => true
  | (_, item) :: fields => readable item && readableFields fields
end

def parsePlainJson (document : PlainValue) : Option PlainValue :=
  if readable document then some document else none

/-- The `revert` of a row, or its `irreversible`. -/
def decodeRevert (row : StoredRow) : Option (Option PlainValue) :=
  match row.revert with
  | none => if row.irreversible then some none else none
  | some text => (text.bind parsePlainJson).map some

def decodeAction (row : StoredRow) : Option Node := do
  let kind ← row.kind
  let intent ← parsePlainJson row.intent
  let effect ← parsePlainJson row.effect
  let revert ← decodeRevert row
  let action : Append := ⟨row.id, row.parentId, row.sessionId, kind, intent, effect, revert, row.ts⟩
  if row.encodingVersion = 1 ∧ action.valid ∧ 0 < row.ordinal then some ⟨action, row.ordinal⟩ else none

variable [PlainCoding]

/-- `decodeActionDegraded`: a row that does not decode is read with its texts as they are, if that does. -/
def decodeActionDegraded (row : StoredRow) : Option Node :=
  (decodeAction row).or <| decodeAction
    { row with intent := .str (PlainCoding.jsonText row.intent),
               effect := .str (PlainCoding.jsonText row.effect), revert := none }

def inputRowKinds : List Kind := [.prompt, .signal, .action]

section
variable (numText : ℚ → String)

/-- What SQLite compares with a text column; `numText` writes a number. -/
def SqlValue.asText : SqlValue → String
  | .num q => numText q
  | .text s => s

/-- The values of `json_each(v, '$.key')`. -/
def jsonEach (v : PlainValue) (key : String) : List PlainValue :=
  match v.get? key with
  | none => []
  | some (.arr items) => items
  | some (.obj fields) => fields.map Prod.snd
  | some value => [value]

/-- An input row with `json_extract(effect, '$.deliveryKind') IS NOT NULL`. -/
def isInput (kind : Kind) (effect : PlainValue) : Bool :=
  inputRowKinds.contains kind && (jsonExtract effect ["deliveryKind"]).isSome

/-- The ids that a row puts into `PENDING_MESSAGES_SQL`'s two anti-joins. -/
def closedIds (kind : Kind) (intent : PlainValue) : List String :=
  if inputRowKinds.contains kind then ((jsonExtract intent ["deliveryId"]).map (SqlValue.asText numText)).toList
  else if kind = .turn then
    (jsonEach intent "consumedStale").filterMap fun value => (sqlValue value).map (SqlValue.asText numText)
  else []

def StoredRow.isInput (row : StoredRow) : Bool := row.kind.any (OpenOmni.isInput · row.effect)

def StoredRow.closes (row : StoredRow) : List String := row.kind.elim [] (closedIds numText · row.intent)

def isClosed (rows : List StoredRow) (id : String) : Bool := rows.any fun row => (row.closes numText).contains id

/-- `pendingMessages` of a session's rows, which stand in the order of their ordinals. -/
def pendingMessages (rows : List StoredRow) : List Node :=
  (rows.filter fun row => row.isInput && !isClosed numText rows row.id).filterMap decodeAction

def afterCursorOf (intent : PlainValue) : Option ℕ := (intent.get? "after").bind asCount

/-- `openDeliveryRow` of a pending row; `none` is its throw. -/
def openDeliveryRow (action : Node) (index : ℕ) : Option DeliveryRow := do
  let kind ← field action.effect "deliveryKind" (readEnum InputKind.members InputKind.text)
  let content ← field action.effect "content" asStr
  let delivery ← optional (readEnum DeliveryWidth.members DeliveryWidth.text) (action.effect.get? "delivery")
  return ⟨action.id, action.sessionId, kind, content, action.intent, delivery, afterCursorOf action.intent,
    .pending, action.ts, index + 1⟩

/-- `actions.map(openDeliveryRow)`. -/
def openDeliveryRows (actions : List Node) : Option (List DeliveryRow) :=
  (actions.mapIdx fun index action => openDeliveryRow action index).mapM id

end

/-- The page size of `tailSince`. -/
def tailPage : ℕ := 256

def range (rows : List StoredRow) (after limit : ℕ) : List Node :=
  ((rows.filter fun row => after < row.ordinal).take limit).filterMap decodeActionDegraded

/-- The ids of `tailFact` that the action consumes. -/
def tailConsumes (action : Node) : List String :=
  if action.kind = .turn then
    ((action.intent.get? "consumedStale").bind asArr).elim [] fun ids => ids.filterMap asStr
  else if inputRowKinds.contains action.kind then
    ((action.intent.get? "deliveryId").bind asStr).toList
  else []

end OpenOmni
