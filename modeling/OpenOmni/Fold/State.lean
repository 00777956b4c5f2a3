import OpenOmni.Fold.Message

/-! The state that a session's rows fold to, and the checkpoint rows that hold it. -/
namespace OpenOmni
namespace FoldCheckpoint

open PlainValue SessionTransition

/-- `FoldCheckpoint.BudgetState`: what an open turn has been charged. -/
structure BudgetState where
  startTime : ℚ
  chargedAt : ℚ
  turns : ℕ
  toolCalls : ℕ
  toolRuntimeMs : ℚ
  totalInputTokens : ℕ
  totalOutputTokens : ℕ
  toolsThrough : ℚ
  openTools : List (String × ℚ)
deriving DecidableEq

inductive Speaker where
  | user | assistant
deriving DecidableEq

def Speaker.text : Speaker → String
  | .user => "user"
  | .assistant => "assistant"

def Speaker.members : List Speaker := [.user, .assistant]

/-- A member of `compatibility`. -/
structure CompatibilityRow where
  id : String
  role : Speaker
  text : String
deriving DecidableEq

/-- `FoldCheckpoint.State`. `budgetState` is absent in old rows, and null between turns. -/
structure State where
  messages : List Message.WithParts
  canonicalTurn : Bool
  messageTurns : List (String × Option String)
  parents : List (String × Option String)
  compatibility : List CompatibilityRow
  successorActionId : Option String
  budgetState : Option (Option BudgetState)
deriving DecidableEq

inductive Reason where
  | interval | compaction
deriving DecidableEq

def Reason.text : Reason → String
  | .interval => "interval"
  | .compaction => "compaction"

def Reason.members : List Reason := [.interval, .compaction]

/-- `FoldCheckpoint.Intent`, whose phase and fold version are literals. -/
structure Intent where
  revision : ℕ
  reason : Reason

/-- `FoldCheckpoint.Result`, of which a `FoldCheckpoint.Effect` is made. -/
structure Result where
  revision : ℕ
  stateHash : String
  state : State

def linkToPlain (link : String × Option String) : PlainValue := .arr [.str link.1, ofNullable .str link.2]

def openToolToPlain (tool : String × ℚ) : PlainValue := .arr [.str tool.1, .num tool.2]

def BudgetState.toPlain (b : BudgetState) : PlainValue :=
  record [("startTime", some (.num b.startTime)), ("chargedAt", some (.num b.chargedAt)), ("turns", some (.num b.turns)),
    ("toolCalls", some (.num b.toolCalls)), ("toolRuntimeMs", some (.num b.toolRuntimeMs)),
    ("totalInputTokens", some (.num b.totalInputTokens)), ("totalOutputTokens", some (.num b.totalOutputTokens)),
    ("toolsThrough", some (.num b.toolsThrough)), ("openTools", some (.arr (b.openTools.map openToolToPlain)))]

def CompatibilityRow.toPlain (c : CompatibilityRow) : PlainValue :=
  record [("id", some (.str c.id)), ("role", some (.str c.role.text)), ("text", some (.str c.text))]

def State.toPlain (s : State) : PlainValue :=
  record [("messages", some (.arr (s.messages.map Message.WithParts.toPlain))),
    ("canonicalTurn", some (.bool s.canonicalTurn)), ("messageTurns", some (.arr (s.messageTurns.map linkToPlain))),
    ("parents", some (.arr (s.parents.map linkToPlain))),
    ("compatibility", some (.arr (s.compatibility.map CompatibilityRow.toPlain))),
    ("successorActionId", some (ofNullable .str s.successorActionId)),
    ("budgetState", s.budgetState.map (ofNullable BudgetState.toPlain))]

def Intent.toPlain (t : Intent) : PlainValue :=
  record [("phase", some (.str "checkpoint")), ("revision", some (.num t.revision)), ("foldVersion", some (.num 1)),
    ("reason", some (.str t.reason.text))]

def Result.toPlain (r : Result) : PlainValue :=
  record [("revision", some (.num r.revision)), ("foldVersion", some (.num 1)), ("stateHash", some (.str r.stateHash)),
    ("state", some r.state.toPlain)]

/-- A `FoldCheckpoint.Effect` of a result. -/
def effectToPlain (r : Result) : PlainValue :=
  record [("phase", some (.str "result")), ("terminal", some (.str "executed")), ("result", some r.toPlain)]

/-- `z.tuple([first, second])`. -/
def readPair {α β : Type} (first : PlainValue → Option α) (second : PlainValue → Option β) : PlainValue → Option (α × β)
  | .arr [v, w] => do return (← first v, ← second w)
  | _ => none

def budgetKeys : List String :=
  ["startTime", "chargedAt", "turns", "toolCalls", "toolRuntimeMs", "totalInputTokens", "totalOutputTokens",
    "toolsThrough", "openTools"]

def BudgetState.ofPlain (v : PlainValue) : Option BudgetState := do
  guard (v.strict budgetKeys)
  let startTime ← field v "startTime" readEpoch
  let chargedAt ← field v "chargedAt" readEpoch
  let turns ← field v "turns" asCount
  let toolCalls ← field v "toolCalls" asCount
  let toolRuntimeMs ← field v "toolRuntimeMs" asCount
  let totalInputTokens ← field v "totalInputTokens" asCount
  let totalOutputTokens ← field v "totalOutputTokens" asCount
  let toolsThrough ← field v "toolsThrough" readEpoch
  let openTools ← field v "openTools" (asList (readPair readId readEpoch))
  return ⟨startTime, chargedAt, turns, toolCalls, toolRuntimeMs, totalInputTokens, totalOutputTokens, toolsThrough,
    openTools⟩

def CompatibilityRow.ofPlain (v : PlainValue) : Option CompatibilityRow := do
  guard (v.strict ["id", "role", "text"])
  let id ← field v "id" readId
  let role ← field v "role" (readEnum Speaker.members Speaker.text)
  let text ← field v "text" asStr
  return ⟨id, role, text⟩

def stateKeys : List String :=
  ["messages", "canonicalTurn", "messageTurns", "parents", "compatibility", "successorActionId", "budgetState"]

/-- `FoldCheckpoint.State.parse`. -/
def State.ofPlain (v : PlainValue) : Option State := do
  guard (v.strict stateKeys)
  let messages ← field v "messages" (asList Message.WithParts.ofPlain)
  let canonicalTurn ← field v "canonicalTurn" asBool
  let messageTurns ← field v "messageTurns" (asList (readPair readId (nullable readId)))
  let parents ← field v "parents" (asList (readPair readId (nullable readId)))
  let compatibility ← field v "compatibility" (asList CompatibilityRow.ofPlain)
  let successorActionId ← field v "successorActionId" (nullable readId)
  let budgetState ← optional (nullable BudgetState.ofPlain) (v.get? "budgetState")
  return ⟨messages, canonicalTurn, messageTurns, parents, compatibility, successorActionId, budgetState⟩

/-- `FoldCheckpoint.Intent.parse`. -/
def Intent.ofPlain (v : PlainValue) : Option Intent := do
  guard (v.strict ["phase", "revision", "foldVersion", "reason"])
  field v "phase" (SessionTurn.readLiteral "checkpoint")
  let revision ← field v "revision" asCount
  guard (v.get? "foldVersion" = some (.num 1))
  let reason ← field v "reason" (readEnum Reason.members Reason.text)
  return ⟨revision, reason⟩

def Result.ofPlain (v : PlainValue) : Option Result := do
  guard (v.strict ["revision", "foldVersion", "stateHash", "state"])
  let revision ← field v "revision" asCount
  guard (v.get? "foldVersion" = some (.num 1))
  let stateHash ← field v "stateHash" readId
  let state ← field v "state" State.ofPlain
  return ⟨revision, stateHash, state⟩

/-- `FoldCheckpoint.Effect.parse`. -/
def effectOfPlain (v : PlainValue) : Option Result := do
  guard (v.strict ["phase", "terminal", "result"])
  field v "phase" (SessionTurn.readLiteral "result")
  field v "terminal" (SessionTurn.readLiteral "executed")
  field v "result" Result.ofPlain

lemma asCount_cast {q : ℚ} {n : ℕ} (h : asCount (.num q) = some n) : (n : ℚ) = q := by
  unfold asCount asInt at h
  dsimp only at h
  split at h
  · rename_i hint
    have hnum : (q.num : ℚ) = q := Rat.coe_int_num_of_den_eq_one hint.1
    rw [Option.bind_some] at h
    split at h
    · rename_i hnonneg
      have hn : q.num.toNat = n := Option.some.inj h
      calc (n : ℚ) = ((q.num.toNat : ℤ) : ℚ) := by rw [← hn, Int.cast_natCast]
        _ = (q.num : ℚ) := by rw [Int.toNat_of_nonneg hnonneg]
        _ = q := hnum
    · cases h
  · cases h

end FoldCheckpoint
end OpenOmni
