import OpenOmni.Session.ArmedIndex
import Mathlib.Data.Finset.Card

/-! The arm verb of a session's activation, and the one forwarder that sends what its commits arm. -/
namespace OpenOmni
namespace Forwarder

open PlainValue SessionTransition

/-- `AlarmFired`; the payload stands for its canonical JSON. -/
structure AlarmFired where
  occurrenceId : String
  purpose : String
  alarmId : String
  armSeq : ℕ
  sourceKey : String
  payload : PlainValue
  fireAt : ℚ
  tick : Option ℚ := none
deriving DecidableEq

/-- The number behind `<alarmId>:arm:`, as `armAction` writes it. -/
def armSeqOf (id alarmId : String) : Option ℕ :=
  let digits := id.toList.drop (alarmId ++ ":arm:").length
  if digits.all Char.isDigit then some (Nat.ofDigitChars 10 digits 0) else none

def armedOccurrenceOf (action : Append) : Option AlarmFired := do
  guard (action.kind = .alarm)
  guard (action.intent.get? "op" = some (.str "arm"))
  let fireAt ← field action.intent "at" asNum
  let alarmId ← field action.intent "alarmId" readId
  let purpose ← field action.intent "purpose" readId
  let sourceKey ← field action.intent "sourceKey" readId
  let payload ← optional objectValue (action.intent.get? "payload")
  let occurrenceId ← field action.effect "occurrenceId" readId
  let armSeq ← armSeqOf action.id alarmId
  return { occurrenceId, purpose, alarmId, armSeq, sourceKey, payload := payload.getD (.obj []), fireAt }

def armRows (db : Db) (row : ArmedRow) : List Node :=
  db.actions.filter fun node => node.kind = .alarm && node.intent.get? "op" = some (.str "arm") &&
    node.effect.get? "occurrenceId" = some (.str row.occurrenceId)

/-- `ArmIntentView`, of a row moved by a quiet fire with its new time. -/
def armedAlarmRow (row : ArmedRow) (node : Node) : Option AlarmFired := do
  let due ← field node.intent "at" asNum
  let purpose ← field node.intent "purpose" readId
  let sourceKey ← field node.intent "sourceKey" readId
  let payload ← optional objectValue (node.intent.get? "payload")
  let armSeq ← armSeqOf node.id row.alarmId
  return {
    occurrenceId := row.occurrenceId, purpose, alarmId := row.alarmId, armSeq, sourceKey,
    payload := payload.getD (.obj []), fireAt := row.fireAt, tick := if row.fireAt = due then none else some row.fireAt }

def DueBefore (a b : ArmedRow) : Prop := a.fireAt < b.fireAt ∨ a.fireAt = b.fireAt ∧ a.alarmId ≤ b.alarmId

instance : DecidableRel DueBefore := fun _ _ => inferInstanceAs (Decidable (_ ∨ _))

/-- `armedAlarms`; `none` where a row does not parse. -/
def armedAlarms (db : Db) : Option (List AlarmFired) :=
  ((db.armed.insertionSort DueBefore).flatMap fun row => (armRows db row).map fun node => (row, node)).mapM
    fun e => armedAlarmRow e.1 e.2

inductive OnRefused where
  | retire | ignore
deriving DecidableEq

structure Entry where
  occurrence : AlarmFired
  onRefused : OnRefused
deriving DecidableEq

/-- Where the forwarder's fiber stands; a refused occurrence that is to be retired waits for the gate. -/
inductive Stage where
  | next
  | sending (entry : Entry)
  | refused (entry : Entry) (reason : String)
deriving DecidableEq

structure ArmInput where
  purpose : String
  «at» : Option ℚ
  payload : List (String × PlainValue)
  alarmId : Option String := none
  supersedes : Option String := none
  sourceKey : String

/-- An arm that holds the gate, past its budget; the forwarder's own retires a refused occurrence. -/
structure Arming where
  input : ArmInput
  latest : Option String
  orphan : Option String
  forwarder : Bool := false

inductive ArmRefused where
  | alarmBudget | reservedPurpose | staleActivation | revision
deriving DecidableEq

/-- `ActivationHandle` with its `ForwardState`, as far as arms are concerned. `own` has the alarms whose armed
occurrence one of the activation's own commits wrote. -/
structure Activation where
  authority : Authority
  queued : Dict String Entry := .empty
  sent : Dict String String := .empty
  orphans : List String := []
  running : Bool := false
  fiber : Option Stage := none
  gate : Option Arming := none
  closing : Bool := false
  own : List String := []

/-- `maxArmed`, and whether a send port is composed. -/
structure Config where
  maxArmed : ℕ
  sends : Bool

/-- The later of two entries of an alarm takes its place at the end of the queue. -/
def queueAll (queued : Dict String Entry) (entries : List Entry) : Dict String Entry :=
  entries.foldl (fun queued entry => (queued.erase entry.occurrence.alarmId).set entry.occurrence.alarmId entry) queued

/-- `enqueueForwards`: a fiber is forked only when none runs. -/
def Activation.enqueue (config : Config) (a : Activation) (entries : List Entry) : Activation :=
  if !config.sends || a.closing || entries.isEmpty then a
  else if a.running then { a with queued := queueAll a.queued entries }
  else { a with queued := queueAll a.queued entries, running := true, fiber := some .next }

/-- `takeForward`. -/
def Activation.take (a : Activation) : Option Entry × Activation :=
  match a.queued.entries with
  | [] => (none, { a with running := false })
  | (alarmId, entry) :: _ =>
    if a.closing then (none, { a with queued := .empty, running := false })
    else (some entry, { a with queued := a.queued.erase alarmId })

/-- One pass of `forwardLoop`, up to its send. -/
def Activation.forward (db : Db) (a : Activation) : Option AlarmFired × Activation :=
  match a.take with
  | (none, a) => (none, { a with fiber := none })
  | (some entry, a) =>
    let occurrence := entry.occurrence
    if (db.latestArm occurrence.alarmId).map (·.occurrenceId) ≠ some occurrence.occurrenceId then (none, a)
    else
      (some occurrence,
        { a with sent := a.sent.set occurrence.alarmId occurrence.occurrenceId, fiber := some (.sending entry) })

inductive SendResult where
  | sent
  | failed
  | refused (reason : String)

/-- How `sendArmedOccurrence` goes on. -/
def Entry.answered (entry : Entry) : SendResult → Stage
  | .refused reason => if entry.onRefused = .retire then .refused entry reason else .next
  | _ => .next

inductive ArmEnd where
  | armed
  | refused (code : ArmRefused)
  | died

def armEnd : Except Refusal WriteOutcome → ArmEnd
  | .ok _ => .armed
  | .error (.commitRefused _ .fence _ _ _ _) => .refused .staleActivation
  | .error (.commitRefused _ .revision _ _ _ _) => .refused .revision
  | .error (.fenceRefused _ _ _) => .refused .staleActivation
  | .error _ => .died

def ArmEnd.survived : ArmEnd → Bool
  | .armed => true
  | .refused code => code = .staleActivation
  | .died => false

/-- The forwarder behind its retirement of a refused occurrence. -/
def Activation.resumeForwards (a : Activation) (result : ArmEnd) : Activation :=
  if result.survived then { a with fiber := some .next } else { a with fiber := none, running := false }

/-- The gate is free again, and the forwarder goes on where the arm was its own. -/
def Activation.released (a : Activation) (arming : Arming) (result : ArmEnd) : Activation :=
  let released := { a with gate := none }
  if arming.forwarder then released.resumeForwards result else released

def ArmInput.chain (input : ArmInput) (sessionId : String) : String :=
  input.alarmId.getD (sessionId ++ ":" ++ input.purpose)

/-- `armBudget`; the result is the occurrence that the arm orphans. -/
def armBudget (config : Config) (db : Db) (a : Activation) (alarmId : String) («at» : Option ℚ)
    (latest : Option AlarmArmView) : Except ArmRefused (Option String) :=
  if «at» = none then .ok none
  else match latest with
    | none => if config.maxArmed ≤ db.armed.length then .error .alarmBudget else .ok none
    | some latest =>
      if a.sent.get? alarmId ≠ some latest.occurrenceId then .ok none
      else if config.maxArmed ≤ a.orphans.length then .error .alarmBudget
      else .ok (some latest.occurrenceId)

/-- `entityArmVerb`, behind the gate and up to the commit. -/
def entityArm (config : Config) (sessionId : String) (db : Db) (a : Activation) (input : ArmInput) :
    Except ArmRefused Arming :=
  if a.closing then .error .staleActivation
  else if reservedPurposes.contains input.purpose || input.purpose = "rescan" then .error .reservedPurpose
  else
    let latest := db.latestArm (input.chain sessionId)
    (armBudget config db a (input.chain sessionId) input.at latest).map fun orphan =>
      { input, latest := latest.map (·.occurrenceId), orphan }

def Entry.retirement (entry : Entry) (reason : String) : ArmInput where
  purpose := entry.occurrence.purpose
  «at» := none
  payload := [("reason", .str "send_refused"), ("detail", .str reason)]
  alarmId := some entry.occurrence.alarmId
  supersedes := some entry.occurrence.occurrenceId
  sourceKey := entry.occurrence.sourceKey

def Arming.arm (arming : Arming) (db : Db) (row : Row) (now : ℚ) : Arm where
  parentId := (db.rows row.id).getLast?.map (·.id)
  sessionId := row.id
  purpose := arming.input.purpose
  «at» := arming.input.at
  supersedes := arming.input.supersedes.or arming.latest
  alarmId := arming.input.chain row.id
  sourceKey := arming.input.sourceKey
  payload := .obj arming.input.payload
  armSeq := row.revision + 1
  ts := now

section
variable [PlainCoding]

def Arming.commit (arming : Arming) (db : Db) (authority : Authority) (row : Row) (now : ℚ) : Commit where
  sessionId := row.id
  owner := authority.owner
  fence := authority.fence
  now := now
  expectedRevision := row.revision
  actions := [armAction (arming.arm db row now)]
  state := row.state

def armedBy (rows : List Append) : List String :=
  rows.filterMap fun action => match armedAlarmDelta action with
    | some (.upsert alarmId _ _) => some alarmId
    | _ => none

/-- A row of the activation's commits: an alarm row of the one constructor, or a row of no alarm. -/
inductive TapRow where
  | arm (input : Arm)
  | fired (input : Fired)
  | other (action : Append)

def TapRow.toAppend : TapRow → Append
  | .arm input => armAction input
  | .fired input => firedAction input
  | .other action => action

def TapRow.valid : TapRow → Bool
  | .arm input => input.payload.objectValue.isSome
  | .fired _ => true
  | .other action => action.kind ≠ .alarm

/-- The entries that `commitIn` queues of what it committed. -/
def tapped (rows : List Append) : List Entry := (rows.filterMap armedOccurrenceOf).map (⟨·, .ignore⟩)

/-- A session file, its activation while one is open, and the alarms whose armed occurrence an arm of the verb wrote. -/
structure ArmSystem where
  db : Db
  activation : Option Activation := none
  accepted : List String := []

/-- What happens next: a write of another door (the turn's ledger, the host), a strike, the life of an activation and
its resend walk, the steps of the verb, the other commits, a delivery, and the steps of the forwarder. -/
inductive ArmEvent where
  | outside (op : WriteOp)
  | strike (occurrenceId : String)
  | opened (authority : Authority)
  | arm (input : ArmInput)
  | retire
  | abandon
  | commitArm (now : ℚ)
  | commit (rows : List TapRow) (input : Commit)
  | quiet (fired : AlarmFired) («at» : ℚ)
  | deliver (occurrenceId : String)
  | next
  | answer (result : SendResult)
  | resumeSend (occurrenceId : String)
  | closing
  | interrupt
  | closed

def spared (alarms : List String) (rows : List Append) : List String := alarms.filter fun id => !(armedBy rows).contains id

def Activation.committed (config : Config) (a : Activation) (rows : List Append) : Activation :=
  let queued := a.enqueue config (tapped rows)
  { queued with own := armedBy rows ++ queued.own }

def Activation.orphan (a : Activation) (occurrenceId : Option String) : Activation :=
  { a with orphans := occurrenceId.elim a.orphans a.orphans.insert }

/-- The arm that holds the gate commits: its occurrence goes to the queue, and the one it orphans into the set. -/
def commitArm (cap : ℕ) (config : Config) (s : ArmSystem) (a : Activation) (arming : Arming) (row : Row) (now : ℚ) :
    ArmSystem :=
  let input := arming.commit s.db a.authority row now
  match write cap (.commit input) s.db with
  | (result, db) =>
    if refused result then { s with activation := some (a.released arming (armEnd result)) }
    else
      let orphaned := (a.committed config input.actions).orphan arming.orphan
      { db, activation := some (orphaned.released arming (armEnd result)), accepted := armedBy input.actions ++ s.accepted }

def ArmSystem.step (cap : ℕ) (config : Config) (sessionId : String) (s : ArmSystem) : ArmEvent → Option ArmSystem
  | .outside op =>
    match write cap op s.db with
    | (result, db) =>
      if refused result then none
      else some { db, activation := s.activation.map fun a => { a with own := spared a.own op.rows },
                  accepted := spared s.accepted op.rows }
  | .strike occurrenceId => some { s with db := { s.db with armed := strikeArmed occurrenceId s.db.armed } }
  | .opened authority =>
    if s.activation.isSome then none
    else (armedAlarms s.db).map fun resent =>
      { s with activation := some (({ authority } : Activation).enqueue config (resent.map (⟨·, .retire⟩))) }
  | .arm input => s.activation.bind fun a =>
    if a.gate.isSome then none
    else match entityArm config sessionId s.db a input with
      | .error _ => some s
      | .ok arming => some { s with activation := some { a with gate := some arming } }
  | .retire => s.activation.bind fun a =>
    if a.gate.isSome then none
    else match a.fiber with
      | some (.refused entry reason) =>
        match entityArm config sessionId s.db a (entry.retirement reason) with
        | .error code => some { s with activation := some (a.resumeForwards (.refused code)) }
        | .ok arming => some { s with activation := some { a with gate := some { arming with forwarder := true } } }
      | _ => none
  | .abandon => s.activation.bind fun a =>
    if a.gate.any (!·.forwarder) then some { s with activation := some { a with gate := none } } else none
  | .commitArm now => s.activation.bind fun a => a.gate.bind fun arming =>
    (s.db.selectSession sessionId).map fun row => commitArm cap config s a arming row now
  | .commit rows input => s.activation.bind fun a =>
    let actions := rows.map TapRow.toAppend
    match write cap (.commit { input with actions }) s.db with
    | (result, db) =>
      if refused result || !rows.all TapRow.valid then none
      else some { db, activation := some (a.committed config actions), accepted := spared s.accepted actions }
  | .quiet fired «at» => s.activation.bind fun a =>
    -- a delivered occurrence names the alarm it was minted for
    if (s.db.latestArm fired.alarmId).map (·.occurrenceId) ≠ some fired.occurrenceId then none
    else some { s with
      db := { s.db with armed := requeueArmed fired.occurrenceId «at» s.db.armed }
      activation := some (a.enqueue config [⟨{ fired with tick := some «at» }, .retire⟩]) }
  | .deliver occurrenceId => s.activation.map fun a =>
    { s with activation := some { a with orphans := a.orphans.erase occurrenceId } }
  | .next => s.activation.bind fun a =>
    if a.fiber = some .next then some { s with activation := some (a.forward s.db).2 } else none
  | .answer result => s.activation.bind fun a =>
    match a.fiber with
    | some (.sending entry) => some { s with activation := some { a with fiber := some (entry.answered result) } }
    | _ => none
  | .resumeSend occurrenceId => s.activation.bind fun _ => (armedAlarms s.db).bind fun armed =>
    (armed.find? (·.occurrenceId = occurrenceId)).map fun _ => s
  | .closing => s.activation.map fun a => { s with activation := some { a with closing := true } }
  | .interrupt => s.activation.map fun a =>
    { s with activation := some { a with
        fiber := none, running := a.running && a.fiber.isNone, gate := a.gate.filter (!·.forwarder) } }
  | .closed => s.activation.bind fun a => if a.closing then some { s with activation := none } else none

def ArmSystem.sends (s : ArmSystem) : ArmEvent → Option AlarmFired
  | .next => s.activation.bind fun a => if a.fiber = some .next then (a.forward s.db).1 else none
  | .resumeSend occurrenceId => (armedAlarms s.db).bind (·.find? (·.occurrenceId = occurrenceId))
  | _ => none

omit [PlainCoding] in
def ArmSystem.acceptedArmed (s : ArmSystem) : Finset String :=
  (s.db.armed.map (·.alarmId)).toFinset.filter (· ∈ s.accepted)

omit [PlainCoding] in
def IdleEmpty (s : ArmSystem) : Prop :=
  ∀ a, s.activation = some a → a.running = false → a.queued.entries = []

/-- The occurrence is queued, or was the last sent of its alarm. -/
def Has (queued : Dict String Entry) (sent : Dict String String) (alarmId occurrenceId : String) : Prop :=
  (queued.get? alarmId).map (·.occurrence.occurrenceId) = some occurrenceId ∨ sent.get? alarmId = some occurrenceId

def Covered (own : List String) (armed : List ArmedRow) (queued : Dict String Entry) (sent : Dict String String) : Prop :=
  ∀ alarmId ∈ own, ∀ occurrenceId, IsArmed alarmId occurrenceId armed → Has queued sent alarmId occurrenceId

/-- What an open activation's own commits armed is queued or sent. -/
def CoveredOpen (config : Config) (s : ArmSystem) : Prop :=
  config.sends = true → ∀ a, s.activation = some a → a.closing = false → Covered a.own s.db.armed a.queued a.sent

/-- A timed arm of an armed chain that was not armed by the verb. -/
def TakesOver (sessionId : String) (s : ArmSystem) : ArmEvent → Prop
  | .arm input =>
    input.at ≠ none ∧ (s.db.latestArm (input.chain sessionId)).isSome ∧ input.chain sessionId ∉ s.accepted
  | _ => False

/-- The forwarder's fiber ends by a failure: a retirement that it does not survive, or the close of its scope. -/
def Fails (cap : ℕ) (config : Config) (sessionId : String) (s : ArmSystem) (a : Activation) : ArmEvent → Prop
  | .interrupt => a.fiber.isSome
  | .retire => ∃ entry reason code, a.fiber = some (.refused entry reason) ∧ a.gate = none ∧
      entityArm config sessionId s.db a (entry.retirement reason) = .error code ∧ code ≠ .staleActivation
  | .commitArm now => ∃ arming row, a.gate = some arming ∧ arming.forwarder ∧ s.db.selectSession sessionId = some row ∧
      (armEnd (write cap (.commit (arming.commit s.db a.authority row now)) s.db).1).survived = false
  | _ => False

def LeavesQueued (cap : ℕ) (config : Config) (sessionId : String) (s : ArmSystem) (event : ArmEvent) : Prop :=
  ∃ a, s.activation = some a ∧ a.queued.entries ≠ [] ∧ Fails cap config sessionId s a event

end

end Forwarder
end OpenOmni
