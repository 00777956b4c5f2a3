import OpenOmni.Fold.History
import OpenOmni.Loop.TurnRows
import OpenOmni.Loop.WaveRows

/-! The turns and tool calls that a run charges as it goes, beside those that the fold counts in the turn's rows. -/
namespace OpenOmni
namespace Budget

open PlainValue

/-- `BudgetState` of a run, without its tokens. -/
structure LiveBudget where
  startTime : ℚ
  turns : ℕ
  toolCalls : ℕ
  toolRuntimeMs : ℚ

def restoreBudgetState (checkpointed : FoldCheckpoint.BudgetState) (now : ℚ) : LiveBudget where
  startTime := now - (checkpointed.chargedAt - checkpointed.startTime)
  turns := checkpointed.turns
  toolCalls := checkpointed.toolCalls
  toolRuntimeMs := checkpointed.toolRuntimeMs

def recordTurn (state : LiveBudget) : LiveBudget := { state with turns := state.turns + 1 }

def recordToolCall (state : LiveBudget) (durationMs : ℚ) : LiveBudget :=
  { state with toolCalls := state.toolCalls + 1, toolRuntimeMs := state.toolRuntimeMs + durationMs }

/-- `RunState`, as far as it counts. -/
structure RunState where
  budgetState : LiveBudget
  turnIndex : ℤ := 0
  chargedTurnIndex : ℤ := -1

/-- `createRunState` over the checkpointed counters. -/
def createRunState (budgetState : FoldCheckpoint.BudgetState) (now : ℚ) : RunState :=
  { budgetState := restoreBudgetState budgetState now }

def recordRunTurn (state : RunState) : RunState :=
  if state.chargedTurnIndex = state.turnIndex then state
  else { state with chargedTurnIndex := state.turnIndex, budgetState := recordTurn state.budgetState }

def advanceRunTurn (state : RunState) : RunState := { state with turnIndex := state.turnIndex + 1 }

/-- What `settleModelTools` charges for the pending calls of a wave: each call, and the wall time once. -/
def settleModelTools (state : RunState) (elapsedMs : ℚ) (calls : ℕ) : RunState :=
  { state with
    budgetState := (List.range calls).foldl (fun budget index => recordToolCall budget (if index = 0 then elapsedMs else 0))
      state.budgetState }

def replay (rows : List Node) : Option FoldCheckpoint.BudgetState :=
  (rows.filter (·.kind ≠ .foldCheckpoint)).foldl chargeBudget none

/-- A `runBatch` of new calls that comes back. -/
structure Batch where
  kind : Kind
  options : WaveOptions
  items : List BatchItem
  wave : Wave
  run : ∃ trace, Transition.Run (Wave.Step options items) Wave.start trace wave
  done : wave.point = .done
  noTurn : kind ≠ .turn
  fresh : ∀ item ∈ items, item.original = false

def Batch.denied (batch : Batch) : ℕ := batch.wave.pre.countP (·.verdict = .deny)

def Batch.admitted (batch : Batch) : ℕ := batch.wave.pre.countP (·.verdict ≠ .deny)

/-- What a committed row of a batch says, as far as the budget reads it; calls are named by the ids of their intents. -/
inductive Journals (ids : ℕ → String) (kind : Kind) : WaveRow → Append → Prop where
  | intent {call : ℕ} {row : Append} (hid : row.id = ids call) (hkind : row.kind = kind)
      (hphase : extractIs row.intent "phase" "intent") (hattempt : row.intent.get? "attempt" = none) :
      Journals ids kind (.intent call) row
  | application {call : ℕ} {row : Append} (hkind : row.kind = kind) (hphase : extractIs row.intent "phase" "application") :
      Journals ids kind (.application call) row
  | boundary {call : ℕ} {value : PlainValue} {row : Append} (hkind : row.kind = kind)
      (hphase : extractIs row.intent "phase" "boundary") : Journals ids kind (.boundary call value) row
  | result {call : ℕ} {outcome : ExecutionResult} {row : Append} (hparent : row.parentId = some (ids call))
      (hkind : row.kind = kind) (hphase : extractIs row.intent "phase" "result") :
      Journals ids kind (.result call outcome) row

def Batch.Rows (batch : Batch) (rows : List Append) : Prop :=
  ∃ ids, List.Forall₂ (Journals ids batch.kind) batch.wave.rows rows

def isToolIntent (row : Append) : Bool := row.kind = .tool && extractIs row.intent "phase" "intent"

def isToolResult (row : Append) : Bool := row.kind = .tool && extractIs row.intent "phase" "result"

def isModelIntent (row : Append) : Bool :=
  row.kind = .llm && extractIs row.intent "phase" "intent" && ((row.intent.get? "attempt").bind asNum).isNone

def WithinTurn (row : Append) : Prop :=
  row.kind = .turn → ¬ extractIs row.intent "phase" "intent" ∧ ∀ ordinal, turnTerminal ⟨row, ordinal⟩ = none

/-- Every other row of a turn: attempts and their results, policy decisions, messages, checkpoints. -/
structure Uncharged (row : Append) : Prop where
  tool : isToolIntent row = false ∧ isToolResult row = false
  model : isModelIntent row = false
  turn : WithinTurn row

/-- The rows grow by those of the batches and by others, in any order that the writers keep. -/
structure Commits (batches : List Batch) (before after : List Node) : Prop where
  written : Written after
  rows : ∃ new parts others, after = before ++ new ∧ (new.map Node.toAppend).Perm (List.flatten parts ++ others) ∧
    List.Forall₂ Batch.Rows batches parts ∧ ∀ row ∈ others, Uncharged row

inductive LoopPoint where
  | model | tools | stop | ended

structure LoopState where
  point : LoopPoint
  run : RunState
  rows : List Node

inductive ModelOutcome where
  | stop | continues | failed

/-- What the loop does next. Besides its own batch a step has the batches made inside it: calls that bodies make of
the cell door, compactions and completions; a pending call that never reaches the batch is `none`. -/
inductive LoopEvent where
  | model (own : Batch) (inner : List Batch) (attempts : ℕ) (outcome : ModelOutcome)
  | tools (calls : List (Option BatchItem)) (own : Batch) (inner : List Batch) (elapsedMs : ℚ)
  | judge (continues : Bool)
  | aside (inner : List Batch)

/-- `buildTurn` of each attempt. -/
def buildTurns (state : RunState) (attempts : ℕ) : RunState := recordRunTurn^[attempts] state

def behindModel (outcome : ModelOutcome) (state : RunState) : LoopPoint × RunState :=
  match outcome with
  | .stop => (.tools, state)
  | .continues => (.model, advanceRunTurn state)
  | .failed => (.ended, state)

inductive Step : LoopState → LoopEvent → LoopState → Prop where
  | model {s : LoopState} {own : Batch} {inner : List Batch} {attempts : ℕ} {outcome : ModelOutcome} {rows : List Node}
      (hpoint : s.point = .model) (hkind : own.kind = .llm) (hsingle : own.items.length = 1) (hattempts : 0 < attempts)
      (hexecuted : outcome ≠ .failed → ∃ value, own.wave.results = [.executed value none])
      (hrows : Commits (own :: inner) s.rows rows) :
      Step s (.model own inner attempts outcome)
        ⟨(behindModel outcome (buildTurns s.run attempts)).1, (behindModel outcome (buildTurns s.run attempts)).2, rows⟩
  | tools {s : LoopState} {calls : List (Option BatchItem)} {own : Batch} {inner : List Batch} {elapsedMs : ℚ}
      {rows : List Node} (hpoint : s.point = .tools) (hkind : own.kind = .tool) (hitems : own.items = calls.reduceOption)
      (hrows : Commits (own :: inner) s.rows rows) :
      Step s (.tools calls own inner elapsedMs) ⟨.stop, settleModelTools s.run elapsedMs calls.length, rows⟩
  | judge {s : LoopState} {continues : Bool} (hpoint : s.point = .stop) :
      Step s (.judge continues)
        { s with point := if continues then .model else .ended, run := if continues then advanceRunTurn s.run else s.run }
  | aside {s : LoopState} {inner : List Batch} {rows : List Node} (hrows : Commits inner s.rows rows) :
      Step s (.aside inner) { s with rows }

/-- A run that begins, or resumes, from the counters that the fold has of its turn. -/
def Started (s : LoopState) : Prop :=
  ∃ budget now, s.point = .model ∧ replay s.rows = some budget ∧ s.run = createRunState budget now

/-- The fold counts the turns and calls that the run has charged: resumed from the rows, it has the same budget left. -/
def Agrees (s : LoopState) : Prop :=
  ∃ budget, replay s.rows = some budget ∧ budget.turns = s.run.budgetState.turns ∧
    budget.toolCalls = s.run.budgetState.toolCalls

def admittedOf (kind : Kind) (batches : List Batch) : ℕ := ((batches.filter (·.kind = kind)).map Batch.admitted).sum

/-- The calls that end before their intent are as many as the calls that are journaled inside others. -/
def Balanced : LoopEvent → Prop
  | .model own inner _ _ => own.denied = admittedOf .llm inner ∧ admittedOf .tool inner = 0
  | .tools calls own inner _ => calls.count none + own.denied = admittedOf .tool inner ∧ admittedOf .llm inner = 0
  | .judge _ => True
  | .aside inner => admittedOf .llm inner = 0 ∧ admittedOf .tool inner = 0

end Budget
end OpenOmni
