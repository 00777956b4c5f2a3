import OpenOmni.Fold.Written

/-! How compaction rows are pinned to the projection they were computed of, and refused once it has moved. -/
namespace OpenOmni
open Option (bind_eq_some_iff)

open PlainValue SessionTransition FoldCheckpoint

/-- `Source`: the projection that a compaction started from. -/
structure CompactionSource where
  sourceRevision : ℕ
  predecessorActionId : Option String
  predecessorProjectionHash : String

namespace CompactionSource

def slots (s : CompactionSource) : List (String × PlainValue) :=
  [("sourceRevision", .num s.sourceRevision), ("foldVersion", .num 1),
    ("predecessorActionId", ofNullable .str s.predecessorActionId),
    ("predecessorProjectionHash", .str s.predecessorProjectionHash)]

def toPlain (s : CompactionSource) : PlainValue := .obj s.slots

/-- `Source.safeParse`. -/
def ofPlain (v : PlainValue) : Option CompactionSource := do
  guard (v.strict ["sourceRevision", "foldVersion", "predecessorActionId", "predecessorProjectionHash"])
  let sourceRevision ← field v "sourceRevision" asCount
  guard (v.get? "foldVersion" = some (.num 1))
  let predecessorActionId ← field v "predecessorActionId" (nullable asStr)
  let predecessorProjectionHash ← field v "predecessorProjectionHash" asStr
  return ⟨sourceRevision, predecessorActionId, predecessorProjectionHash⟩

end CompactionSource

def PlainValue.withFields (v : PlainValue) (fields : List (String × PlainValue)) : PlainValue :=
  fields.foldl (fun v field => v.withField field.1 field.2) v

variable [PlainCoding]

/-- `identity`: where a fold state stands. -/
def compactionIdentity (sessionId : String) (state : State) (sourceRevision : ℕ) : Option CompactionSource :=
  (foldSessionHistory sessionId [] state).map fun projection =>
    ⟨sourceRevision, state.successorActionId, projectionHash projection⟩

/-- `pinIntent`: the intent under its source, unless it was prepared of another projection. -/
def pinIntent (action : Append) (current : CompactionSource) : Option Append :=
  match ((action.intent.get? "value").bind objectValue).bind (·.get? "predecessorProjectionHash") with
  | some prepared =>
    if prepared = .str current.predecessorProjectionHash then
      some { action with intent := action.intent.withField "context" current.toPlain }
    else none
  | none => some { action with intent := action.intent.withField "context" current.toPlain }

/-- `capturedSource`: the source pinned at the parent's intent, or read again where there is none. -/
def capturedSource (db : Db) (action : Append) : Option CompactionSource := do
  let parent ← action.parentId.bind db.actionById
  guard (parent.sessionId = action.sessionId)
  let _ ← parent.intent.objectValue
  match parent.intent.get? "context" with
  | none =>
    let prior ← (hydrateSessionHistory db action.sessionId (some (parent.ordinal - 1))).toOption
    compactionIdentity action.sessionId prior.state prior.revision
  | some context => CompactionSource.ofPlain context

def resultProjection (action : Append) : Option (List PlainValue) :=
  (action.effect.get? "result").bind fun result => (result.get? "projection").bind asArr

def pinnedFields (action : Append) (captured : CompactionSource) (projection : List Message.WithParts) :
    List (String × PlainValue) :=
  captured.slots ++
    [("successorActionId",
        .str (if extractIs action.effect "phase" "boundary" then action.parentId.getD "" ++ ":result" else action.id)),
      ("messageIds", .arr (projection.map fun message => .str message.info.id)),
      ("projection", .arr (projection.map Message.WithParts.toPlain)),
      ("projectionHash", .str (projectionHash projection))]

/-- `pinResult`: refused where the projection is not the one that was captured. -/
def pinResult (db : Db) (action : Append) (items : List PlainValue) (current : CompactionSource) : Option Append := do
  let captured ← capturedSource db action
  guard (captured.predecessorProjectionHash = current.predecessorProjectionHash)
  guard (captured.predecessorActionId = current.predecessorActionId)
  guard (captured.sourceRevision ≤ current.sourceRevision)
  let projection ← items.mapM Message.WithParts.ofPlain
  let result := ((action.effect.get? "result").getD .null).withFields (pinnedFields action captured projection)
  return { action with
    effect := action.effect.withFields [("result", result), ("resultHash", .str (canonicalDigest result))] }

/-- The effect of a compaction that has been executed: at its boundary, or as its result. -/
def executedEffect (action : Append) : Bool :=
  extractIs action.effect "phase" "boundary" ||
    (extractIs action.effect "phase" "result" && extractIs action.effect "terminal" "executed")

/-- `createCompactionPin`; `none` where it throws. -/
def pinCompactionAction (db : Db) (action : Append) (state : State) (sourceRevision : ℕ) : Option Append :=
  if action.kind = .compaction then do
    let _ ← action.intent.objectValue
    let _ ← action.effect.objectValue
    let current ← compactionIdentity action.sessionId state sourceRevision
    if extractIs action.intent "phase" "intent" then pinIntent action current
    else if executedEffect action then
      match resultProjection action with
      | none => some action
      | some items => pinResult db action items current
    else some action
  else some action

inductive ComposedPort : Option PinAction → Prop where
  | absent : ComposedPort none
  | wired : ComposedPort (some pinCompactionAction)

structure SameRow (a b : Append) : Prop where
  id : b.id = a.id
  parentId : b.parentId = a.parentId
  sessionId : b.sessionId = a.sessionId
  kind : b.kind = a.kind

variable {db : Db} {action pinned : Append} {state : State} {sourceRevision : ℕ}

lemma pinCompactionAction_same (h : pinCompactionAction db action state sourceRevision = some pinned) :
    SameRow action pinned := by
  unfold pinCompactionAction at h
  split at h
  · simp only [Option.bind_eq_bind, bind_eq_some_iff] at h
    obtain ⟨_, -, _, -, current, -, h⟩ := h
    split at h
    · unfold pinIntent at h
      split at h
      · split at h
        · cases h
          exact ⟨rfl, rfl, rfl, rfl⟩
        · cases h
      · cases h
        exact ⟨rfl, rfl, rfl, rfl⟩
    · split at h
      · split at h
        · cases h
          exact ⟨rfl, rfl, rfl, rfl⟩
        · unfold pinResult at h
          simp only [Option.bind_eq_bind, bind_eq_some_iff] at h
          obtain ⟨captured, -, _, -, _, -, _, -, projection, -, h⟩ := h
          cases h
          exact ⟨rfl, rfl, rfl, rfl⟩
      · cases h
        exact ⟨rfl, rfl, rfl, rfl⟩
  · cases h
    exact ⟨rfl, rfl, rfl, rfl⟩

lemma pinContext_same (h : pinContext action state sourceRevision = some pinned) : SameRow action pinned := by
  unfold pinContext at h
  split at h
  · obtain ⟨intent, -, rfl⟩ := Option.map_eq_some_iff.mp h
    exact ⟨rfl, rfl, rfl, rfl⟩
  · cases h
    exact ⟨rfl, rfl, rfl, rfl⟩

lemma pinThroughPort_same {port : Option PinAction} (hport : ComposedPort port)
    (h : pinThroughPort port db action state sourceRevision = some pinned) : SameRow action pinned := by
  cases hport with
  | absent =>
    unfold pinThroughPort at h
    dsimp only at h
    split at h
    · cases h
    · cases h
      exact ⟨rfl, rfl, rfl, rfl⟩
  | wired => exact pinCompactionAction_same h

end OpenOmni
