import OpenOmni.Fold.Checkpoint

/-! The one writer of a session's rows: what it pins, where it puts checkpoints and the tail it carries. -/
namespace OpenOmni

open PlainValue SessionTransition FoldCheckpoint

def PlainValue.withField (v : PlainValue) (key : String) (value : PlainValue) : PlainValue :=
  .obj ((v.asObj.getD []).filter (·.1 ≠ key) ++ [(key, value)])

/-- `executedCompactionResult`: it forces a checkpoint behind it. -/
def executedCompactionResult (action : Append) : Bool :=
  action.kind = .compaction && extractIs action.effect "phase" "result" && extractIs action.effect "terminal" "executed"

def startsTurn (action : Append) : Bool :=
  action.kind = .turn && (extractIs action.intent "phase" "intent" || extractIs action.intent "phase" "resume")

def needsProjection (action : Append) : Bool := action.kind = .compaction || startsTurn action

variable [PlainCoding]

def projectionHash (projection : List Message.WithParts) : String :=
  canonicalDigest (record [("foldVersion", some (.num 1)),
    ("projection", some (.arr (projection.map Message.WithParts.toPlain)))])

def contextOf (snapshotActionId : String) (state : State) (sourceRevision : ℕ) : SessionTurn.Context where
  snapshotActionId := snapshotActionId
  sourceRevision := sourceRevision
  projectionHash := projectionHash (deriveHistory state)
  messageIds := (deriveHistory state).map (·.info.id)
  successorActionId := state.successorActionId

/-- `pinContext`; `none` where the pinned intent is refused. -/
def pinContext (action : Append) (state : State) (sourceRevision : ℕ) : Option Append :=
  if startsTurn action then
    let pinned := action.intent.withField "context" (contextOf action.id state sourceRevision).toPlain
    let intent :=
      if extractIs action.intent "phase" "intent" then (SessionTurn.Intent.ofPlain pinned).map (·.toPlain)
      else (SessionTurn.Resume.ofPlain pinned).map (·.toPlain)
    intent.map fun intent => { action with intent := intent }
  else some action

/-- `CompactionPortService.pinAction`; `none` where it throws. -/
abbrev PinAction := Db → Append → State → ℕ → Option Append

def pinThroughPort (port : Option PinAction) (db : Db) (action : Append) (state : State) (sourceRevision : ℕ) :
    Option Append :=
  match port with
  | some pin => pin db action state sourceRevision
  | none => if action.kind = .compaction then none else some action

inductive CheckpointMode where
  | all | compaction | none

def CheckpointMode.admits : CheckpointMode → Reason → Bool
  | .all, _ => true
  | .compaction, reason => reason = .compaction
  | .none, _ => false

/-- `FoldPlan`, also while it grows; `added` are the checkpoints among its rows. -/
structure FoldPlan where
  actions : List Append := []
  added : List Append := []
  state : State
  count : ℕ
  bytes : ℕ

/-- `past`: the tail has reached the policy's limits. -/
def FoldPlan.past (plan : FoldPlan) (policy : CheckpointPolicy) : Bool :=
  decide (policy.everyActions ≤ plan.count) || decide (policy.maxTailBytes < plan.bytes)

def FoldPlan.add (plan : FoldPlan) (input : Commit) (checkpoints : CheckpointMode) (parentId : Option String)
    (revision : ℕ) (reason : Reason) : Option FoldPlan :=
  if checkpoints.admits reason then do
    let interval ← foldCheckpointAction input.sessionId parentId revision input.now reason plan.state
    return { plan with
      actions := plan.actions ++ [interval]
      added := plan.added ++ [interval]
      count := 0
      bytes := actionPayloadBytes interval }
  else some plan

def FoldPlan.take (plan : FoldPlan) (action : Append) (state : State) : FoldPlan where
  actions := plan.actions ++ [action]
  added := plan.added
  state := state
  count := if action.kind = .foldCheckpoint then plan.count else plan.count + 1
  bytes := plan.bytes + actionPayloadBytes action

/-- One draft of `planFoldBatch`'s loop. -/
def FoldPlan.step (port : Option PinAction) (db : Db) (input : Commit) (policy : CheckpointPolicy)
    (checkpoints : CheckpointMode) (plan : FoldPlan) (draft : Append) : Option FoldPlan := do
  let sourceRevision := input.expectedRevision + plan.actions.length
  let contextPinned ← pinContext draft plan.state sourceRevision
  let action ← pinThroughPort port db contextPinned plan.state sourceRevision
  let ordinal := sourceRevision + 1
  let state ← foldHistoryState input.sessionId [{ action with ordinal := ordinal }] plan.state
  let next := plan.take action state
  if executedCompactionResult action then next.add input checkpoints (some action.id) ordinal .compaction
  else if next.past policy then next.add input checkpoints (some action.id) ordinal .interval
  else return next

/-- `planFoldBatch`; `none` where it throws. -/
def planFoldBatch (port : Option PinAction) (db : Db) (input : Commit) (seed : FoldPlan) (policy : CheckpointPolicy)
    (checkpoints : CheckpointMode) : Option FoldPlan := do
  let plan ← input.actions.foldlM (FoldPlan.step port db input policy checkpoints) seed
  if plan.actions = [] ∧ plan.past policy then
    let parent := (latestAction (db.rows input.sessionId) input.expectedRevision).map (·.id)
    plan.add input checkpoints parent input.expectedRevision .interval
  else return plan

/-- `WriterTail`: the tail of a session as its last commit left it. -/
structure WriterTail where
  revision : ℕ
  count : ℕ
  bytes : ℕ
  refused : Bool
  state : Option State
  suffix : List Node

/-- How a commit through the writer ends: in the ledger's refusal, or in a throw on the way. -/
inductive CommitFailure where
  | ledger (refusal : Refusal)
  | history (failure : ReadFailure)
  | defect

/-- What a commit through the writer leaves. `warned` is the checkpoint its log says the row cap refused. -/
structure FoldCommit where
  outcome : Except CommitFailure (Row × List Receipt)
  db : Db
  tail : Option WriterTail
  warned : Option String := none

/-- `kernel.commit`. -/
def kernelCommit (cap : ℕ) (input : Commit) (db : Db) : Except Refusal (Row × List Receipt) × Db :=
  match write cap (.commit input) db with
  | (.ok (.committed row receipts), db') => (.ok (row, receipts), db')
  | (.ok _, db') => (.error .invalid, db')
  | (.error refusal, db') => (.error refusal, db')

/-- `resolveTail`: the counters of the tail, the carried tail they are of, or the checkpoint read for them. -/
structure ResolvedTail where
  memo : Option WriterTail
  checkpoint : Option HistoryCheckpoint
  count : ℕ
  bytes : ℕ
  refused : Bool

def resolveTail (db : Db) (carried : Option WriterTail) (input : Commit) (external : Bool) :
    Except ReadFailure ResolvedTail :=
  match carried.filter fun tail => !external && decide (tail.revision = input.expectedRevision) with
  | some tail => .ok ⟨some tail, none, tail.count, tail.bytes, tail.refused⟩
  | none => do
    let checkpoint ← readHistoryCheckpoint db input.sessionId (some input.expectedRevision)
    return ⟨none, some checkpoint, checkpoint.nonCheckpointActions, checkpoint.tailBytes db input.sessionId, false⟩

def ResolvedTail.state (tail : ResolvedTail) (db : Db) (input : Commit) : Except CommitFailure State :=
  match tail.memo.bind fun memo => memo.state.map (memo, ·) with
  | some (memo, state) => match foldHistoryState input.sessionId memo.suffix state with
    | none => .error (.history .parse)
    | some folded => .ok folded
  | none =>
    let checkpoint : Except ReadFailure HistoryCheckpoint := match tail.checkpoint with
      | some checkpoint => .ok checkpoint
      | none => readHistoryCheckpoint db input.sessionId (some input.expectedRevision)
    match checkpoint.bind fun read => read.read db input.sessionId none with
    | .error failure => .error (.history failure)
    | .ok hydrated => .ok hydrated.state

/-- A commit of rows whose tail the writer knows without folding them. -/
def commitCounted (cap : ℕ) (db : Db) (input : Commit) (external : Bool) (tail : ResolvedTail) (count bytes : ℕ) :
    FoldCommit :=
  match kernelCommit cap input db with
  | (.error refusal, db') => ⟨.error (.ledger refusal), db', none, none⟩
  | (.ok (row, receipts), db') =>
    let carried : WriterTail := {
      revision := row.revision
      count := count
      bytes := bytes
      refused := tail.refused
      state := tail.memo.bind (·.state)
      suffix := match tail.memo.bind fun memo => memo.state.map fun _ => memo with
        | none => []
        | some memo => memo.suffix ++ receipts.map (·.action) }
    ⟨.ok (row, receipts), db', if external then none else some carried, none⟩

def commitPlanned (cap : ℕ) (db : Db) (input : Commit) (external refused : Bool) (plan : FoldPlan)
    (warned : Option String) : Except Refusal FoldCommit :=
  match kernelCommit cap { input with actions := plan.actions } db with
  | (.error refusal, _) => .error refusal
  | (.ok (row, receipts), db') =>
    let carried : WriterTail := {
      revision := row.revision, count := plan.count, bytes := plan.bytes, refused := refused
      state := some plan.state, suffix := [] }
    .ok ⟨.ok (row, receipts), db', if external then none else some carried, warned⟩

/-- The checkpoint of the plan that the row cap refused, if that is what the refusal says. -/
def refusedCheckpoint (plan : FoldPlan) : Refusal → Option String
  | .schemaRefused _ actionId _ reason =>
    if reason = "row_bytes" ∧ plan.added.any (·.id = actionId) then some actionId else none
  | _ => none

/-- The commit of a batch that is folded: with the checkpoints that are due, or without any where the row cap refuses
one of them. -/
def commitFolded (cap : ℕ) (port : Option PinAction) (db : Db) (input : Commit) (external : Bool)
    (policy : CheckpointPolicy) (tail : ResolvedTail) (state : State) : FoldCommit :=
  let seed : FoldPlan := { state := state, count := tail.count, bytes := tail.bytes }
  match planFoldBatch port db input seed policy (if tail.refused then .compaction else .all) with
  | none => ⟨.error .defect, db, none, none⟩
  | some planned =>
    match commitPlanned cap db input external (tail.refused && planned.added.isEmpty) planned none with
    | .ok committed => committed
    | .error refusal => match refusedCheckpoint planned refusal with
      | none => ⟨.error (.ledger refusal), db, none, none⟩
      | some checkpoint => match planFoldBatch port db input seed policy .none with
        | none => ⟨.error .defect, db, none, some checkpoint⟩
        | some fallback => match commitPlanned cap db input external true fallback (some checkpoint) with
          | .ok committed => committed
          | .error refusal => ⟨.error (.ledger refusal), db, none, some checkpoint⟩

/-- The commit behind a tail: counted as far as the policy goes, folded from there on. -/
def commitResolved (cap : ℕ) (port : Option PinAction) (db : Db) (input : Commit) (tail : ResolvedTail) : FoldCommit :=
  let policy := checkpointPolicy (db.rows input.sessionId)
  let external := input.actions.any (·.kind = .foldCheckpoint)
  let count := tail.count + input.actions.countP (·.kind ≠ .foldCheckpoint)
  let bytes := tail.bytes + (input.actions.map actionPayloadBytes).sum
  if (tail.refused || (decide (count < policy.everyActions) && decide (bytes ≤ policy.maxTailBytes))) &&
      !input.actions.any needsProjection then
    commitCounted cap db input external tail count bytes
  else match tail.state db input with
    | .error failure => ⟨.error failure, db, none, none⟩
    | .ok state => commitFolded cap port db input external policy tail state

/-- `commitFoldBatch`, with the session's carried tail. -/
def commitFoldBatch (cap : ℕ) (port : Option PinAction) (db : Db) (carried : Option WriterTail) (input : Commit) :
    FoldCommit :=
  match resolveTail db carried input (input.actions.any (·.kind = .foldCheckpoint)) with
  | .error failure => ⟨.error (.history failure), db, none, none⟩
  | .ok tail => commitResolved cap port db input tail

end OpenOmni
