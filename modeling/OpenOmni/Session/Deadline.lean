import OpenOmni.Session.EntityAlarm

/-! What the rows of a request do to its deadline, and what the deliveries of a deadline's occurrence
still know of the arm that minted it. -/
namespace OpenOmni
open List

open SessionTransition PlainValue Transition

lemma deadlineAlarmId_inj {requestId requestId' : String}
    (h : deadlineAlarmId requestId = deadlineAlarmId requestId') : requestId = requestId' := by
  simpa [deadlineAlarmId] using h

variable {occurrence : String} {db db' : Db} {session : Row} {revision : ℕ} {P : Db → Prop} {authority : Authority}

theorem firingId_inj {occurrence' : String} {outcome outcome' : FiredOutcome}
    (h : occurrence ++ ":" ++ outcome.text = occurrence' ++ ":" ++ outcome'.text) :
    occurrence = occurrence' ∧ outcome = outcome' := by
  have hend := congrArg (fun id : String => id.toList.reverse.take 3) h
  have houtcome : outcome = outcome' := by
    cases outcome <;> cases outcome' <;> simp [FiredOutcome.text] at hend ⊢
  subst houtcome
  exact ⟨by simpa using h, rfl⟩

lemma settled_eq_false : db.settled occurrence = false ↔ ∀ node ∈ db.actions,
      node.id ≠ occurrence ++ ":delivered" ∧ node.id ≠ occurrence ++ ":exhausted" := by
  simp only [Db.settled, Db.actionById, Bool.or_eq_false_iff, Option.isSome_eq_false_iff,
    Option.isNone_iff_eq_none, find?_eq_none, decide_eq_true_eq]
  exact ⟨fun h node hnode => ⟨h.1 node hnode, h.2 node hnode⟩,
    fun h => ⟨fun node hnode => (h node hnode).1, fun node hnode => (h node hnode).2⟩⟩

def OneSession (db : Db) : Prop := ∀ a ∈ db.sessionIds, ∀ b ∈ db.sessionIds, a = b

lemma OneSession.id_eq (h : OneSession db) {a b : Row} (ha : a ∈ db.sessions) (hb : b ∈ db.sessions) : a.id = b.id :=
  h _ (mem_map_of_mem ha) _ (mem_map_of_mem hb)

lemma OneSession.rows_eq (h : OneSession db) (hdb : ChainInv db) (hsession : session ∈ db.sessions) :
    db.rows session.id = db.actions := by
  rw [Db.rows, filter_eq_self]
  intro node hnode
  obtain ⟨owner, howner, hid⟩ := hdb.owned node hnode
  have hsame := h.id_eq howner hsession
  simp [← hid, hsame]

lemma OneSession.sessionId_eq (h : OneSession db) (hdb : ChainInv db) (hsession : session ∈ db.sessions)
    {node : Node} (hnode : node ∈ db.actions) : node.sessionId = session.id := by
  obtain ⟨owner, howner, hid⟩ := hdb.owned node hnode
  exact hid.symm.trans (h.id_eq howner hsession)

/-- The session is past the revision, or the file still says what it said then. -/
def AsOf (db : Db) (revision : ℕ) (P : Db → Prop) : Prop :=
  ∃ session ∈ db.sessions, revision ≤ session.revision ∧ (session.revision = revision → P db)

lemma AsOf.imp {Q : Db → Prop} (h : AsOf db revision P) (himp : P db → Q db) : AsOf db revision Q := by
  obtain ⟨session, hsession, hle, hP⟩ := h
  exact ⟨session, hsession, hle, fun heq => himp (hP heq)⟩

lemma AsOf.now (hone : OneSession db) (hdb : ChainInv db) (h : AsOf db session.revision P)
    (hsession : session ∈ db.sessions) : P db := by
  obtain ⟨other, hother, -, hP⟩ := h
  obtain rfl := hdb.session_unique hother hsession (hone.id_eq hother hsession)
  exact hP rfl

theorem AsOf.grow {submitted : List Append} (h : AsOf db revision P) (hgrow : Grows submitted db db')
    (hdb : ChainInv db) (hdb' : ChainInv db') (hone : OneSession db) (hone' : OneSession db')
    (hkept : FencesKept db db') (hrows : db'.actions = db.actions → P db → P db') : AsOf db' revision P := by
  obtain ⟨session, hsession, hle, hP⟩ := h
  obtain ⟨session', hsession', hid, -⟩ := hkept session hsession
  obtain ⟨hmono, heq⟩ := hgrow.rows_eq hdb hdb' hsession hsession' hid
  refine ⟨session', hsession', hle.trans hmono, fun hrevision => ?_⟩
  have hsame : session'.revision = session.revision := by omega
  have hactions := heq hsame
  rw [← hid, hone'.rows_eq hdb' hsession', hid, hone.rows_eq hdb hsession] at hactions
  exact hrows hactions (hP (by omega))

def Stale (db : Db) (authority : Authority) : Prop :=
  ∃ session ∈ db.sessions, authority.fence < session.fence

lemma Stale.grow (h : Stale db authority) (hkept : FencesKept db db') : Stale db' authority := by
  obtain ⟨session, hsession, hlt⟩ := h
  obtain ⟨session', hsession', -, hle, -⟩ := hkept session hsession
  exact ⟨session', hsession', hlt.trans_le hle⟩

lemma Held.grow {sessionId : String} (h : Held db sessionId authority) (hkept : FencesKept db db') :
    Held db' sessionId authority := by
  obtain ⟨session, hsession, hid, hle, howner⟩ := h
  obtain ⟨session', hsession', hid', hle', howner'⟩ := hkept session hsession
  refine ⟨session', hsession', hid'.trans hid, hle.trans hle', fun heq => ?_⟩
  have hfence : session.fence = authority.fence := by omega
  rw [howner' (heq.trans hfence.symm)]
  exact howner hfence

theorem sparesArmed_receivedMessage (delivery : DeliveryCommit) (alarmId occurrence : String) :
    SparesArmed alarmId occurrence (deliveryCommitAction delivery) := by
  have hkind : (deliveryCommitAction delivery).kind ≠ .alarm := by
    simp only [deliveryCommitAction]
    split
    · simp
    · split <;> simp
  intro delta hdelta
  simp [armedAlarmDelta, hkind] at hdelta

theorem sparesArmed_request {action : Append} (hkind : action.kind = .request)
    (alarmId occurrence : String) : SparesArmed alarmId occurrence action := by
  intro delta hdelta
  simp [armedAlarmDelta, hkind] at hdelta

section
variable [PlainCoding] {cap : ℕ} {db db' : Db} {rows : List Append} {sessionId requestId : String}

lemma OneSession.write (h : OneSession db) {op : WriteOp}
    (hfile : ∀ id ∈ op.creates, ∀ session ∈ db.sessions, session.id = id) :
    OneSession (write cap op db).2 := by
  rcases write_sessionIds cap op db with heq | heq
  · rw [OneSession, heq]
    exact h
  · have hcreates : ∀ a ∈ op.creates, ∀ b ∈ op.creates, a = b := by
      cases op <;> simp [WriteOp.creates]
    have hold : ∀ a ∈ db.sessionIds, ∀ b ∈ op.creates, a = b := by
      intro a ha b hb
      obtain ⟨session, hsession, rfl⟩ := mem_map.mp ha
      exact hfile b hb session hsession
    rw [OneSession, heq]
    intro a ha b hb
    rcases mem_append.mp ha with ha | ha <;> rcases mem_append.mp hb with hb | hb
    · exact h a ha b hb
    · exact hold a ha b hb
    · exact (hold b hb a ha).symm
    · exact hcreates a ha b hb

theorem Stale.refused {c : Commit} {authority : Authority} (h : Stale db authority)
    (hone : OneSession db) (hdb : ChainInv db) (hfence : c.fence = authority.fence) :
    refused (write cap (.commit c) db).1 = true := by
  by_contra hok
  obtain ⟨row, hrow, -, -, hheld, -⟩ := write_commit_authority (Bool.eq_false_iff.mpr hok)
  obtain ⟨session, hsession, hlt⟩ := h
  obtain rfl := hdb.session_unique hrow hsession (hone.id_eq hrow hsession)
  omega

/-- A row that leaves an open request's deadline armed and unsettled. -/
def Spares (sessionId requestId : String) (action : Append) : Prop :=
  SparesArmed (deadlineAlarmId requestId) (deadlineOccurrence sessionId requestId) action ∧
    ∀ outcome : FiredOutcome, action.id ≠ deadlineOccurrence sessionId requestId ++ ":" ++ outcome.text

/-- The deadline of an open request as the ledger keeps it: its occurrence armed, not settled, and
minted by the request's own arm. -/
structure Scheduled (db : Db) (sessionId requestId : String) : Prop where
  armed : IsArmed (deadlineAlarmId requestId) (deadlineOccurrence sessionId requestId) db.armed
  unsettled : db.settled (deadlineOccurrence sessionId requestId) = false
  minted : ∃ node ∈ db.actions, ∃ command request, node.toAppend = armAction (deadlineArm command request) ∧
    command.sessionId = sessionId ∧ request.requestId = requestId

lemma Scheduled.canTimeOut (h : Scheduled db sessionId requestId) : CanTimeOut db requestId := by
  obtain ⟨row, hrow, halarm, hoccurrence⟩ := h.armed
  refine ⟨row, hrow, halarm, ?_⟩
  rw [hoccurrence]
  exact h.unsettled

theorem settled_of_wrote {occurrence : String} (h : db.settled occurrence = false)
    (hwrote : Wrote rows db db')
    (hrows : ∀ a ∈ rows, ∀ outcome : FiredOutcome, a.id ≠ occurrence ++ ":" ++ outcome.text) :
    db'.settled occurrence = false := by
  obtain ⟨new, hactions, rfl⟩ := hwrote.actions
  rw [settled_eq_false] at h ⊢
  intro node hnode
  rw [hactions] at hnode
  rcases mem_append.mp hnode with hold | hnew
  · exact h node hold
  · have hids := hrows node.toAppend (mem_map_of_mem hnew)
    have hdelivered := hids .delivered
    have hexhausted := hids .exhausted
    simp only [FiredOutcome.text, String.append_assoc] at hdelivered hexhausted
    exact ⟨hdelivered, hexhausted⟩

lemma Scheduled.wrote (h : Scheduled db sessionId requestId) (hwrote : Wrote rows db db')
    (hspares : ∀ a ∈ rows, Spares sessionId requestId a) : Scheduled db' sessionId requestId where
  armed := h.armed.foldlM (fun a ha => (hspares a ha).1) hwrote.armed
  unsettled := settled_of_wrote h.unsettled hwrote fun a ha => (hspares a ha).2
  minted := by
    obtain ⟨node, hnode, hminted⟩ := h.minted
    exact ⟨node, hwrote.grows.subset node hnode, hminted⟩

theorem Scheduled.withArmed (h : Scheduled db sessionId requestId) {f : ArmedRow → ArmedRow}
    (halarm : ∀ row, (f row).alarmId = row.alarmId)
    (hoccurrence : ∀ row, (f row).occurrenceId = row.occurrenceId) :
    Scheduled { db with armed := db.armed.map f } sessionId requestId where
  armed := h.armed.map halarm hoccurrence
  unsettled := h.unsettled
  minted := h.minted

variable {row : Node} {action a : Append} {other : String} {session : Row} {found : Request}

lemma requestById_eq (h : db.requestStateById requestId = some row) :
    db.requestById requestId = ((row.effect.get? "request").bind Request.ofPlain).map some := by
  simp [Db.requestById, h]

lemma requestById_congr (h : db'.actions = db.actions) :
    db'.requestById requestId = db.requestById requestId := by
  simp [Db.requestById, Db.requestStateById, Db.requestStates, h]

def IsOpen (db : Db) (sessionId requestId : String) : Prop :=
  ∃ row request, OpenOwned db row request ∧ row.sessionId = sessionId ∧ request.requestId = requestId

theorem OpenOwned.of_wrote {request : Request} (h : OpenOwned db' row request) (hwrote : Wrote rows db db')
    (hother : ∀ a ∈ rows, carriesRequest request.requestId a = false) : OpenOwned db row request := by
  have hstate := hwrote.requestStateById_eq hother
  have hlatest := hstate.symm.trans h.latest
  refine ⟨hlatest, ?_, h.owned, h.state⟩
  rw [requestById_eq hlatest, ← requestById_eq h.latest]
  exact h.fold

lemma carriesRequest_iff {request : Request} (hkind : action.kind = .request)
    (heffect : action.effect.get? "request" = some request.toPlain) :
    carriesRequest requestId action = true ↔ request.requestId = requestId := by
  simp [carriesRequest, hkind, jsonExtract, heffect, Request.get?_toPlain, Request.slots,
    sqlValue]

lemma carriesRequest_of_foreign (h : isForeign action = true) : carriesRequest requestId action = false := by
  simp only [isForeign, Bool.and_eq_true, decide_eq_true_eq] at h
  simp [carriesRequest, h.1]

variable {command : Command} {decision : RequestDecision} {request : Request} {resolution : Resolution}
  {terminal : Bool} {admission : List DeliveryCommit} {authority : Authority} {now : ℚ}
  {state : SessionState}

theorem deadlineArms_open {next : Request} (hpayload : command.payload = .open next) :
    deadlineArms command request terminal = [armAction (deadlineArm command request)] := by
  simp [deadlineArms, hpayload]

theorem deadlineArms_moved (hpayload : ∀ next, command.payload ≠ .open next) :
    deadlineArms command request false = [] := by
  unfold deadlineArms
  split
  · rename_i next heq
    exact absurd heq (hpayload next)
  · rfl

lemma deadlineArms_alarmId (h : a ∈ deadlineArms command request terminal) :
    ∃ arm : Arm, a = armAction arm ∧ arm.alarmId = deadlineAlarmId request.requestId := by
  unfold deadlineArms at h
  split at h
  · exact ⟨_, mem_singleton.mp h, rfl⟩
  · cases terminal with
    | false => simp at h
    | true => exact ⟨_, mem_singleton.mp h, rfl⟩

theorem sparesArmed_otherDeadline {arm : Arm} (halarm : arm.alarmId = deadlineAlarmId requestId)
    (hne : requestId ≠ other) (occurrence : String) :
    SparesArmed (deadlineAlarmId other) occurrence (armAction arm) := by
  have hempty : arm.alarmId ≠ "" := halarm ▸ deadlineAlarmId_ne_empty requestId
  have hother : arm.alarmId ≠ deadlineAlarmId other := by
    rw [halarm]
    exact fun heq => hne (deadlineAlarmId_inj heq)
  intro delta hdelta
  rw [armDelta_armAction hempty, Option.some.injEq] at hdelta
  subst hdelta
  cases arm.at <;> exact hother

/-- Where a planned request comes from, as the file says at the plan's revision. -/
inductive PlannedFrom (db : Db) (command : Command) (request : Request) (resolution : Resolution) :
    Bool → Prop where
  | opened (hpayload : command.payload = .open request) :
      PlannedFrom db command request resolution false
  | moved (current : Request) (terminal : Bool) (hpayload : ∀ next, command.payload ≠ .open next)
      (hread : db.requestById request.requestId = some (some current))
      (hsession : current.sessionId = command.sessionId)
      (hmove : Moved current command request resolution terminal) :
      PlannedFrom db command request resolution terminal

lemma PlannedFrom.congr (h : PlannedFrom db command request resolution terminal)
    (hactions : db'.actions = db.actions) : PlannedFrom db' command request resolution terminal := by
  cases h with
  | opened hpayload => exact .opened hpayload
  | moved current _ hpayload hread hsession hmove =>
    exact .moved current _ hpayload ((requestById_congr hactions).trans hread) hsession hmove

def Based (db : Db) (command : Command) (request : Request) (resolution : Resolution)
    (terminal : Bool) : Prop :=
  AsOf db command.expectedRevision fun db => PlannedFrom db command request resolution terminal

lemma LedgerInv.openOwned (h : LedgerInv db) (hone : OneSession db) (hsession : session ∈ db.sessions)
    {current : Request} (hread : db.requestById requestId = some (some current)) (hstate : current.state = .opened)
    (howned : current.sessionId = session.id) :
    current.requestId = requestId ∧ ∃ row, row.sessionId = session.id ∧ OpenOwned db row current := by
  obtain ⟨row, recorded, hlatest, hrow, -, -, -, hid, hparse⟩ := h.recorded hread
  obtain ⟨hsame, -⟩ := ofPlain_toPlain_fields hparse
  have hname : current.requestId = requestId := hsame.trans hid
  have hrowSession := hone.sessionId_eq h.chain hsession hrow
  refine ⟨hname, row, hrowSession, ?_, ?_, howned.trans hrowSession.symm, hstate⟩
  · rw [hname]
    exact hlatest
  · rw [hname]
    exact hread

section
variable (h : Planned db command decision request resolution terminal)
  (hadmission : ∀ d ∈ admission, isForeign (deliveryCommitAction d) = true)
include h hadmission

theorem Planned.messages (ha : a ∈ (decision.receive.toList ++ admission).map deliveryCommitAction) :
    isForeign a = true ∧ ∀ alarmId occurrence, SparesArmed alarmId occurrence a := by
  obtain ⟨delivery, hdelivery, rfl⟩ := mem_map.mp ha
  refine ⟨?_, sparesArmed_receivedMessage delivery⟩
  rcases mem_append.mp hdelivery with hreceive | hadmitted
  · rw [h.receive] at hreceive
    exact isForeign_receivingIntake (mem_map_of_mem hreceive)
  · exact hadmission delivery hadmitted

theorem Planned.spares_other (hne : request.requestId ≠ other)
    (occurrence : String) (ha : a ∈ (requestCommit command decision admission authority now state).actions) :
    SparesArmed (deadlineAlarmId other) occurrence a := by
  simp only [requestCommit, h.actions, recordRequest, mem_append, mem_singleton] at ha
  rcases ha with ((rfl | hresolution) | harm) | hmessage
  · exact sparesArmed_request rfl _ _
  · cases terminal with
    | false => simp at hresolution
    | true =>
      obtain rfl := mem_singleton.mp hresolution
      exact sparesArmed_request rfl _ _
  · obtain ⟨arm, rfl, halarm⟩ := deadlineArms_alarmId harm
    exact sparesArmed_otherDeadline halarm hne occurrence
  · exact (h.messages hadmission hmessage).2 _ _

end

theorem Planned.spares_recorded (h : Planned db command decision request resolution false)
    (hadmission : ∀ d ∈ admission, isForeign (deliveryCommitAction d) = true)
    (hpayload : ∀ next, command.payload ≠ .open next) (alarmId occurrence : String)
    (ha : a ∈ (requestCommit command decision admission authority now state).actions) :
    SparesArmed alarmId occurrence a := by
  simp only [requestCommit, h.actions, recordRequest, deadlineArms_moved hpayload, append_nil,
    Bool.false_eq_true, if_false, mem_append, mem_singleton] at ha
  rcases ha with rfl | hmessage
  · exact sparesArmed_request rfl _ _
  · exact (h.messages hadmission hmessage).2 _ _

section
variable (h : Planned db command decision request resolution terminal)
  (hadmission : ∀ d ∈ admission, isForeign (deliveryCommitAction d) = true)
  (hwrote : Wrote (requestCommit command decision admission authority now state).actions db db')
include h hadmission hwrote

theorem Planned.latest : ∃ row ∈ db'.actions, db'.requestStateById request.requestId = some row ∧
      row.effect.get? "request" = some request.toPlain := by
  have hinput : inputRecord command request (requestInputDigest command.payload) resolution ∈
      (requestCommit command decision admission authority now state).actions := by
    simp [requestCommit, h.actions, recordRequest]
  have hrecords : RecordsInput command request resolution
      (inputRecord command request (requestInputDigest command.payload) resolution) :=
    ⟨h.valid, h.target, rfl⟩
  obtain ⟨row, hrow, hlatest, hsubmitted, hcarries⟩ := hwrote.requestStateById_new
    ⟨_, hinput, (carriesRequest_iff rfl (requestRow_effect (.inl hrecords))).mpr rfl⟩
  refine ⟨row, hrow, hlatest, ?_⟩
  rcases h.rows hadmission hsubmitted with heq | heq | hforeign
  · exact requestRow_effect (.inl (heq ▸ hrecords))
  · have hresolves : ResolvesRequest command request resolution row.toAppend := by rw [heq]; rfl
    exact requestRow_effect (.inr hresolves)
  · rw [carriesRequest_of_foreign hforeign] at hcarries
    contradiction

theorem Planned.recordedOpen (hopen : OpenOwned db' row found) (hsame : request.requestId = found.requestId) : request.state = .opened := by
  obtain ⟨latest, -, hlatest, heffect⟩ := h.latest hadmission hwrote
  have hfold := hopen.fold
  rw [← hsame, requestById_eq hlatest, heffect, Option.bind_some, Option.map_eq_some_iff] at hfold
  obtain ⟨read, hparse, heq⟩ := hfold
  cases heq
  obtain ⟨-, -, -, hstate⟩ := ofPlain_toPlain_fields hparse
  exact hstate.symm.trans hopen.state

theorem Planned.openOwned (hdb : LedgerInv db)
    (hone : OneSession db) (hsession : session ∈ db.sessions) (hid : session.id = command.sessionId)
    (hfrom : PlannedFrom db command request resolution terminal)
    (hrow : row.sessionId = session.id) (hopen : OpenOwned db' row found) : (IsOpen db row.sessionId found.requestId ∧
        ∀ a ∈ (requestCommit command decision admission authority now state).actions,
          SparesArmed (deadlineAlarmId found.requestId)
            (deadlineOccurrence row.sessionId found.requestId) a) ∨
      (command.payload = .open request ∧ found.requestId = request.requestId) := by
  by_cases hsame : request.requestId = found.requestId
  · cases hfrom with
    | opened hpayload => exact .inr ⟨hpayload, hsame.symm⟩
    | moved current _ hpayload hread howned hmove =>
      have hopened := h.recordedOpen hadmission hwrote hopen hsame
      have hmoved := hmove.state
      cases terminal with
      | true => exact absurd hopened hmoved.2
      | false =>
        have hcurrent : current.state = .opened := hmoved.1.symm.trans hopened
        obtain ⟨hname, row₀, hrow₀, hopen₀⟩ :=
          hdb.openOwned hone hsession hread hcurrent (howned.trans hid.symm)
        refine .inl ⟨⟨row₀, current, hopen₀, hrow₀.trans hrow.symm, hname.trans hsame⟩, ?_⟩
        intro a ha
        exact h.spares_recorded hadmission hpayload _ _ ha
  · refine .inl ⟨⟨row, found, hopen.of_wrote hwrote ?_, rfl, rfl⟩, ?_⟩
    · intro a ha
      cases hcarries : carriesRequest found.requestId a with
      | false => rfl
      | true =>
        rcases h.rows hadmission ha with rfl | rfl | hforeign
        · have hrecords : RecordsInput command request resolution (inputRecord command request
              (requestInputDigest command.payload) resolution) := ⟨h.valid, h.target, rfl⟩
          exact absurd ((carriesRequest_iff rfl (requestRow_effect (.inl hrecords))).mp hcarries) hsame
        · have hresolves : ResolvesRequest command request resolution
              (resolutionRecord command request resolution) := rfl
          exact absurd ((carriesRequest_iff rfl (requestRow_effect (.inr hresolves))).mp hcarries) hsame
        · rw [carriesRequest_of_foreign hforeign] at hcarries
          contradiction
    · intro a ha
      exact h.spares_other hadmission hsame _ ha

theorem Planned.timeoutCloses
    (hfrom : PlannedFrom db command request resolution terminal) (hpayload : command.payload = .timeout requestId)
    (hopen : OpenOwned db' row found) : found.requestId ≠ requestId := by
  intro hname
  have htarget := h.target
  rw [hpayload, targetRequestId, ← hname] at htarget
  have hopened := h.recordedOpen hadmission hwrote hopen htarget
  cases hfrom with
  | opened hother => simp [hpayload] at hother
  | moved current _ hother hread hsession hmove => exact hmove.timeout hpayload hopened

theorem Planned.scheduled (hpayload : command.payload = .open request)
    (hunsettled : db.settled (deadlineOccurrence command.sessionId request.requestId) = false)
    (hids : ∀ a ∈ (requestCommit command decision admission authority now state).actions,
      ¬ IsFiringId a.id) : Scheduled db' command.sessionId request.requestId := by
  have hactions : (requestCommit command decision admission authority now state).actions =
      ([inputRecord command request (requestInputDigest command.payload) resolution] ++
        if terminal then [resolutionRecord command request resolution] else []) ++
      armAction (deadlineArm command request) ::
        (decision.receive.toList ++ admission).map deliveryCommitAction := by
    simp [requestCommit, h.actions, recordRequest, deadlineArms_open hpayload]
  have hmem : armAction (deadlineArm command request) ∈
      (requestCommit command decision admission authority now state).actions := by
    rw [hactions]
    exact mem_append_right _ mem_cons_self
  refine ⟨?_, ?_, ?_⟩
  · have harmed := hwrote.armed
    rw [hactions] at harmed
    have hdelta : armedAlarmDelta (armAction (deadlineArm command request)) =
        some (.upsert (deadlineAlarmId request.requestId)
          (deadlineOccurrence command.sessionId request.requestId) request.deadline) :=
      armDelta_armAction (deadlineAlarmId_ne_empty _)
    exact isArmed_of_upsert hdelta (fun a ha => (h.messages hadmission ha).2 _ _) harmed
  · refine settled_of_wrote hunsettled hwrote fun a ha outcome heq => hids a ha ?_
    exact ⟨_, _, outcome, heq⟩
  · obtain ⟨new, hrows, hnew⟩ := hwrote.actions
    rw [← hnew] at hmem
    obtain ⟨node, hnode, heq⟩ := mem_map.mp hmem
    refine ⟨node, ?_, command, request, heq, rfl, rfl⟩
    rw [hrows]
    exact mem_append_right _ hnode

end

end

end OpenOmni
