import OpenOmni.Fold.History
import OpenOmni.Session.AlarmRead

/-! Checkpoint rows: how one is made of a fold, read back as the seed of the next, and where the tail behind it ends. -/
namespace OpenOmni

open PlainValue SessionTransition FoldCheckpoint

structure CheckpointPolicy where
  everyActions : ℕ
  maxTailBytes : ℕ
deriving DecidableEq

/-- `DEFAULT_CHECKPOINT_POLICY`. -/
def defaultCheckpointPolicy : CheckpointPolicy := ⟨256, 4 * 1024 * 1024⟩

def CheckpointPolicy.ofPlain (v : PlainValue) : Option CheckpointPolicy := do
  guard (v.strict ["everyActions", "maxTailBytes"])
  let everyActions ← field v "everyActions" SessionTurn.readPositive
  let maxTailBytes ← field v "maxTailBytes" SessionTurn.readPositive
  return ⟨everyActions, maxTailBytes⟩

/-- `ConfigureSettingsIntent.safeParse` of a configure row. -/
def configureSettings (row : Node) : Option PlainValue :=
  if row.kind = .sessionConfigure then (row.intent.get? "settings").filter Journal.settings else none

/-- `latestSettingsIn`. -/
def latestSettings (rows : List Node) : Option PlainValue := (rows.filterMap configureSettings).getLast?

def checkpointPolicy (rows : List Node) : CheckpointPolicy :=
  ((latestSettings rows).bind fun settings => field settings "checkpoint" CheckpointPolicy.ofPlain).getD
    defaultCheckpointPolicy

variable [PlainCoding]

def stateHash (state : State) : String :=
  canonicalDigest (record [("foldVersion", some (.num 1)), ("state", some state.toPlain)])

def checkpointId (sessionId : String) (revision : ℕ) : String := sessionId ++ ":fold:" ++ toString revision

/-- `foldCheckpointAction`; `none` where the schema refuses the state. -/
def foldCheckpointAction (sessionId : String) (parentId : Option String) (revision : ℕ) («at» : ℚ) (reason : Reason)
    (state : State) : Option Append := do
  let intent ← FoldCheckpoint.Intent.ofPlain (FoldCheckpoint.Intent.toPlain ⟨revision, reason⟩)
  let result ← effectOfPlain (effectToPlain ⟨revision, stateHash state, state⟩)
  return {
    id := checkpointId sessionId revision
    parentId := parentId
    sessionId := sessionId
    kind := .foldCheckpoint
    intent := intent.toPlain
    effect := effectToPlain result
    ts := «at» }

lemma foldCheckpointAction_kind {sessionId : String} {parentId : Option String} {revision : ℕ} {«at» : ℚ}
    {reason : Reason} {state : State} {row : Append}
    (h : foldCheckpointAction sessionId parentId revision «at» reason state = some row) : row.kind = .foldCheckpoint := by
  unfold foldCheckpointAction at h
  obtain ⟨_, -, h⟩ := Option.bind_eq_some_iff.mp h
  obtain ⟨_, -, h⟩ := Option.bind_eq_some_iff.mp h
  cases h
  rfl

inductive SeedReason where
  | version | revision | seed | stateHash
deriving DecidableEq

def checkpointSeed (sessionId : String) (checkpoint : Node) : Except SeedReason FoldCheckpoint.Result :=
  let intent := checkpoint.intent
  let result := (checkpoint.effect.get? "result").getD .null
  let revision : PlainValue := .num ((checkpoint.ordinal : ℚ) - 1)
  if intent.get? "foldVersion" ≠ some (.num 1) ∨ result.get? "foldVersion" ≠ some (.num 1) then .error .version
  else if intent.get? "revision" ≠ some revision ∨ result.get? "revision" ≠ intent.get? "revision" ∨
      checkpoint.sessionId ≠ sessionId then .error .revision
  else match effectOfPlain checkpoint.effect, FoldCheckpoint.Intent.ofPlain intent with
    | some parsed, some _ => if stateHash parsed.state = parsed.stateHash then .ok parsed else .error .stateHash
    | _, _ => .error .seed

omit [PlainCoding] in
/-- `latestFoldCheckpoint`, over a session's rows in the order of their ordinals. -/
def latestFoldCheckpoint (rows : List Node) (throughRevision : ℕ) : Option Node :=
  (rows.filter fun row => row.kind = .foldCheckpoint && decide (row.ordinal ≤ throughRevision)).getLast?

def payloadBytes (rows : List Node) (afterRevision throughRevision : ℕ) : ℕ :=
  ((rows.filter fun row => decide (afterRevision < row.ordinal) && decide (row.ordinal ≤ throughRevision)).map
    fun row => actionPayloadBytes row.toAppend).sum

omit [PlainCoding] in
def latestAction (rows : List Node) (throughRevision : ℕ) : Option Node :=
  (rows.filter fun row => decide (row.ordinal ≤ throughRevision)).getLast?

/-- `RestoreTelemetry`, without its clock. -/
structure RestoreTelemetry where
  rows : ℕ := 0
  bytes : ℕ := 0
  pages : ℕ := 0
deriving DecidableEq

/-- `HydratedSessionHistory`, whose history and messages are read off its state. -/
structure HydratedSessionHistory where
  revision : ℕ
  state : State
  nonCheckpointActions : ℕ
  telemetry : RestoreTelemetry
deriving DecidableEq

inductive ReadFailure where
  | sessionNotFound
  | integrity (reason : SeedReason)
  | revisionGap
  | parse
  /-- `RestoreRefused`. -/
  | refused (revision maxTailBytes : ℕ) (telemetry : RestoreTelemetry)
deriving DecidableEq

/-- `RESTORE_PAGE_ROWS`. -/
def restorePageRows : ℕ := 256

/-- The loop of `readHistorySuffix`: one page after the other, each counted before it is folded. -/
def readSuffixPages (db : Db) (sessionId : String) (revision : ℕ) (maxTailBytes : Option ℕ) :
    ℕ → ℕ → HydratedSessionHistory → Except ReadFailure HydratedSessionHistory
  | 0, _, read => .ok read
  | fuel + 1, cursor, read =>
    if revision ≤ cursor then .ok read
    else
      let suffix := (db.range sessionId cursor restorePageRows).filter fun action => decide (action.ordinal ≤ revision)
      if suffix = [] then .error .revisionGap
      else
        let telemetry : RestoreTelemetry := {
          rows := read.telemetry.rows + suffix.length
          bytes := read.telemetry.bytes + (suffix.map fun action => actionPayloadBytes action.toAppend).sum
          pages := read.telemetry.pages + 1 }
        if maxTailBytes.any (· < telemetry.bytes) then
          .error (.refused revision (maxTailBytes.getD 0) telemetry)
        else match foldHistoryState sessionId suffix read.state with
          | none => .error .parse
          | some state => readSuffixPages db sessionId revision maxTailBytes fuel
              ((suffix.getLast?.map (·.ordinal)).getD cursor)
              { read with
                state := state
                nonCheckpointActions := read.nonCheckpointActions + suffix.countP fun action => action.kind ≠ .foldCheckpoint
                telemetry := telemetry }

/-- `readHistorySuffix`; no page is empty, so the loop ends within the session's rows. -/
def readHistorySuffix (db : Db) (sessionId : String) (revision : ℕ) (initial : State) (afterRevision count : ℕ)
    (maxTailBytes : Option ℕ) : Except ReadFailure HydratedSessionHistory :=
  readSuffixPages db sessionId revision maxTailBytes (revision - afterRevision) afterRevision
    ⟨revision, initial, count, {}⟩

/-- What `readHistoryCheckpoint` has read before a suffix is. -/
structure HistoryCheckpoint where
  revision : ℕ
  checkpoint : Option Node
  seed : Option FoldCheckpoint.Result

def readHistoryCheckpoint (db : Db) (sessionId : String) (throughRevision : Option ℕ) :
    Except ReadFailure HistoryCheckpoint :=
  match db.selectSession sessionId with
  | none => .error .sessionNotFound
  | some row =>
    let revision := throughRevision.elim row.revision (min row.revision)
    match latestFoldCheckpoint (db.rows sessionId) revision with
    | none => .ok ⟨revision, none, none⟩
    | some checkpoint => match checkpointSeed sessionId checkpoint with
      | .error reason => .error (.integrity reason)
      | .ok seed => .ok ⟨revision, some checkpoint, some seed⟩

namespace HistoryCheckpoint

omit [PlainCoding] in
def afterRevision (h : HistoryCheckpoint) : ℕ := h.seed.elim 0 (·.revision)

omit [PlainCoding] in
def nonCheckpointActions (h : HistoryCheckpoint) : ℕ := h.revision - h.checkpoint.elim 0 (·.ordinal)

def tailBytes (h : HistoryCheckpoint) (db : Db) (sessionId : String) : ℕ :=
  payloadBytes (db.rows sessionId) h.afterRevision h.revision

/-- `hydrate`, and `restore` under a bound. -/
def read (h : HistoryCheckpoint) (db : Db) (sessionId : String) (maxTailBytes : Option ℕ) :
    Except ReadFailure HydratedSessionHistory :=
  match foldHistoryState sessionId [] (h.seed.elim emptyState (·.state)) with
  | none => .error .parse
  | some initial => readHistorySuffix db sessionId h.revision initial h.afterRevision 0 maxTailBytes

end HistoryCheckpoint

def hydrateSessionHistory (db : Db) (sessionId : String) (throughRevision : Option ℕ) :
    Except ReadFailure HydratedSessionHistory := do
  let checkpoint ← readHistoryCheckpoint db sessionId throughRevision
  checkpoint.read db sessionId none

def restoreSessionHistory (db : Db) (sessionId : String) : Except ReadFailure HydratedSessionHistory := do
  let checkpoint ← readHistoryCheckpoint db sessionId none
  checkpoint.read db sessionId (some (checkpointPolicy (db.rows sessionId)).maxTailBytes)

end OpenOmni
