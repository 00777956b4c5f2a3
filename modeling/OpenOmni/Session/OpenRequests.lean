import OpenOmni.Session.Deadline

/-! Every open request can time out, in the runs whose deliveries come in time. -/
namespace OpenOmni
open List

open SessionTransition PlainValue Transition

lemma isForeign_firedAction (input : Fired) : isForeign (firedAction input) = true := by
  have hphase : isInvocation (firedAction input) = false := by
    simp [isInvocation, firedAction, get?_record, List.lookup]
  simp [isForeign, forkKeeps_of_not_invocation hphase]
  simp [firedAction]

section
variable [PlainCoding]

/-- The law, and what every read, plan and delivery still says of the ledger. -/
structure AlarmInv (s : AlarmSystem) : Prop where
  base : SystemInv s.toRequestSystem
  one : OneSession s.db
  keys : ArmedKeys s.db.armed
  reads : ∀ read ∈ s.requests,
    AsOf s.db read.1.revision fun db => db.requestById read.2.1 = some read.2.2
  plans : ∀ plan ∈ s.decided, plan.2.actions ≠ [] → ∃ request resolution terminal,
    Planned s.db plan.1 plan.2 request resolution terminal ∧
      Based s.db plan.1 request resolution terminal
  scheduled : ∀ sessionId requestId, IsOpen s.db sessionId requestId →
    Scheduled s.db sessionId requestId
  minted : ∀ delivery ∈ s.deliveries, ∃ node ∈ s.db.actions, node.toAppend = armAction delivery.arm
  held : ∀ delivery ∈ s.deliveries, Held s.db delivery.arm.sessionId delivery.authority
  collisionFree : ∀ delivery ∈ s.deliveries, ∀ sessionId requestId, CollisionFree
    [delivery.arm.key, occurrenceKey sessionId (deadlineAlarmId requestId) 1 "deadline"]
  harmless : ∀ delivery ∈ s.deliveries, ∀ outcome, delivery.stage = .firing outcome →
    ∀ sessionId requestId, IsOpen s.db sessionId requestId →
      delivery.arm.occurrenceId = deadlineOccurrence sessionId requestId →
      Stale s.db delivery.authority

lemma AlarmInv.openRequestsTimeOut {s : AlarmSystem} (h : AlarmInv s) : OpenRequestsTimeOut s.db := by
  intro row request hopen
  exact (h.scheduled _ _ ⟨row, request, hopen, rfl, rfl⟩).canTimeOut

lemma AlarmInv.empty : AlarmInv {} where
  base := SystemInv.fresh LedgerInv.empty
  one := by simp [OneSession, Db.sessionIds]
  keys := nodup_nil
  reads := by simp
  plans := by simp
  scheduled := by
    rintro _ _ ⟨row, request, hopen, -⟩
    have hlatest := hopen.latest
    simp [Db.requestStateById, Db.requestStates] at hlatest
  minted := by simp
  held := by simp
  collisionFree := by simp
  harmless := by simp

variable {s : AlarmSystem} {delivery : Delivery} {sessionId requestId : String} {cap : ℕ}
  {recentOpen : ApprovalRecentOpen}

variable {arm : Arm} {request : Request} {db' db : Db} {node : Node} {command : Command} {decision : RequestDecision}
  {resolution : Resolution} {terminal : Bool} {admission : List DeliveryCommit} {authority : Authority} {now : ℚ}
  {state : SessionState} {snapshot : RequestSnapshot}

theorem Arm.eq_of_occurrenceId
    (hfree : CollisionFree [arm.key, occurrenceKey sessionId (deadlineAlarmId requestId) 1 "deadline"])
    (h : arm.occurrenceId = deadlineOccurrence sessionId requestId) :
    arm.sessionId = sessionId ∧ arm.alarmId = deadlineAlarmId requestId ∧ arm.armSeq = 1 := by
  have hkey := hfree arm.key (by simp) _ (by simp) h
  simp only [Arm.key, occurrenceKey, canonical, canonicalList, PlainValue.arr.injEq, List.cons.injEq,
    PlainValue.str.injEq, PlainValue.num.injEq, and_true, true_and] at hkey
  exact ⟨hkey.1, hkey.2.1, by exact_mod_cast hkey.2.2.1⟩

lemma armAction_id_eq (command : Command) (halarm : arm.alarmId = deadlineAlarmId request.requestId)
    (hseq : arm.armSeq = 1) : (armAction arm).id = (armAction (deadlineArm command request)).id := by
  simp [armAction, deadlineArm, halarm, hseq]

section
variable (h : AlarmInv s) (hmem : delivery ∈ s.deliveries) (hopen : IsOpen s.db sessionId requestId)
  (hoccurrence : delivery.arm.occurrenceId = deadlineOccurrence sessionId requestId)
include h hmem hopen hoccurrence

theorem AlarmInv.deadline : delivery.arm.purpose = "deadline" ∧ delivery.requestId = some requestId ∧
      delivery.arm.sessionId = sessionId ∧ delivery.arm.alarmId = deadlineAlarmId requestId := by
  obtain ⟨hsession, halarm, hseq⟩ :=
    Arm.eq_of_occurrenceId (h.collisionFree delivery hmem sessionId requestId) hoccurrence
  obtain ⟨node, hnode, harm⟩ := h.minted delivery hmem
  obtain ⟨own, hown, command, request, hminted, -, rfl⟩ := (h.scheduled _ _ hopen).minted
  have hid : node.id = own.id := by
    have heq := armAction_id_eq command halarm hseq
    rw [← harm, ← hminted] at heq
    exact heq
  obtain rfl := inj_on_of_nodup_map h.base.ledger.chain.actionIds hnode hown hid
  have hintent := congrArg Append.intent (harm.symm.trans hminted)
  have hpurpose := congrArg (PlainValue.get? · "purpose") hintent
  have hpayload := congrArg (PlainValue.get? · "payload") hintent
  simp only [armAction_purpose, armAction_payload, Option.some.injEq, PlainValue.str.injEq]
    at hpurpose hpayload
  refine ⟨hpurpose, ?_, hsession, halarm⟩
  simp [Delivery.requestId, hpayload, deadlineArm, get?_record, List.lookup, asStr]

theorem AlarmInv.disposition : delivery.disposition s.db = .run := by
  obtain ⟨-, -, -, halarm⟩ := h.deadline hmem hopen hoccurrence
  have hscheduled := h.scheduled _ _ hopen
  obtain ⟨row, hrow, hrowAlarm, hrowOccurrence⟩ := hscheduled.armed
  obtain ⟨node, hnode, harm⟩ := h.minted delivery hmem
  have hknown : (s.db.actionById (delivery.arm.alarmId ++ ":arm:" ++ toString delivery.arm.armSeq)).isNone =
      false := by
    have hid : node.id = delivery.arm.alarmId ++ ":arm:" ++ toString delivery.arm.armSeq :=
      congrArg Append.id harm
    rw [Db.actionById, ← hid, Option.isNone_eq_false_iff, find?_isSome]
    exact ⟨node, hnode, by simp⟩
  have hlatest : s.db.latestArm delivery.arm.alarmId =
      some ⟨delivery.arm.occurrenceId, some row.fireAt⟩ := by
    have hfind := h.keys.find? hrow
    rw [hrowAlarm, ← halarm] at hfind
    rw [Db.latestArm, hfind, hoccurrence, ← hrowOccurrence]
    rfl
  have hunsettled : s.db.settled delivery.arm.occurrenceId = false := by
    rw [hoccurrence]
    exact hscheduled.unsettled
  rw [Delivery.disposition, hknown, if_neg Bool.false_ne_true, alarmDisposition, hlatest]
  simp [hunsettled]

end

/-- A growing file keeps the invariant when every request it leaves open is scheduled, and was open
before or is delivered by nobody. -/
theorem AlarmInv.grow (h : AlarmInv s) {submitted : List Append}
    (hbase : SystemInv { s.toRequestSystem with db := db' }) (hgrow : Grows submitted s.db db')
    (hkept : FencesKept s.db db') (hone : OneSession db') (hkeys : ArmedKeys db'.armed)
    (hopen : ∀ sessionId requestId, IsOpen db' sessionId requestId →
      Scheduled db' sessionId requestId ∧ (IsOpen s.db sessionId requestId ∨
        ∀ delivery ∈ s.deliveries,
          delivery.arm.occurrenceId ≠ deadlineOccurrence sessionId requestId)) : AlarmInv (s.withDb db') where
  base := hbase
  one := hone
  keys := hkeys
  reads := by
    intro read hread
    exact (h.reads read hread).grow hgrow h.base.ledger.chain hbase.ledger.chain h.one hone hkept
      fun hactions => (requestById_congr hactions).trans
  plans := by
    intro plan hplan hactions
    obtain ⟨request, resolution, terminal, hplanned, hbased⟩ := h.plans plan hplan hactions
    refine ⟨request, resolution, terminal,
      hplanned.grow h.base.ledger.chain hgrow hbase.ledger.chain hkept, ?_⟩
    exact AsOf.grow hbased hgrow h.base.ledger.chain hbase.ledger.chain h.one hone hkept
      fun hrows hfrom => hfrom.congr hrows
  scheduled := fun sessionId requestId hnow => (hopen sessionId requestId hnow).1
  minted := by
    intro delivery hmem
    obtain ⟨node, hnode, harm⟩ := h.minted delivery hmem
    exact ⟨node, hgrow.subset node hnode, harm⟩
  held := fun delivery hmem => (h.held delivery hmem).grow hkept
  collisionFree := h.collisionFree
  harmless := by
    intro delivery hmem outcome hstage sessionId requestId hnow hoccurrence
    rcases (hopen sessionId requestId hnow).2 with hbefore | hnone
    · exact (h.harmless delivery hmem outcome hstage _ _ hbefore hoccurrence).grow hkept
    · exact absurd hoccurrence (hnone delivery hmem)

theorem AlarmInv.withArmed (h : AlarmInv s) {f : ArmedRow → ArmedRow}
    (halarm : ∀ row, (f row).alarmId = row.alarmId)
    (hoccurrence : ∀ row, (f row).occurrenceId = row.occurrenceId) :
    AlarmInv (s.withDb { s.db with armed := s.db.armed.map f }) := by
  have hgrow : Grows [] s.db { s.db with armed := s.db.armed.map f } := Grows.of_actions_eq rfl
  refine h.grow (h.base.withArmed _) hgrow (FencesKept.refl s.db) h.one
    (h.keys.map halarm) ?_
  intro sessionId requestId hopen
  have hbefore : IsOpen s.db sessionId requestId := by
    obtain ⟨row, request, ⟨hlatest, hfold, howned, hstate⟩, hids⟩ := hopen
    exact ⟨row, request, ⟨hlatest, hfold, howned, hstate⟩, hids⟩
  exact ⟨(h.scheduled _ _ hbefore).withArmed halarm hoccurrence, .inl hbefore⟩

theorem AlarmInv.deliver (h : AlarmInv s) (hmem : delivery ∈ s.deliveries) {stage : DeliveryStage}
    (hharmless : ∀ outcome, stage = .firing outcome → ∀ sessionId requestId,
      IsOpen s.db sessionId requestId →
      delivery.arm.occurrenceId = deadlineOccurrence sessionId requestId →
      Stale s.db delivery.authority) : AlarmInv (s.deliver delivery stage) where
  base := h.base
  one := h.one
  keys := h.keys
  reads := h.reads
  plans := h.plans
  scheduled := h.scheduled
  minted := by
    intro other hother
    rcases mem_cons.mp hother with rfl | hother
    · exact h.minted delivery hmem
    · exact h.minted other hother
  held := by
    intro other hother
    rcases mem_cons.mp hother with rfl | hother
    · exact h.held delivery hmem
    · exact h.held other hother
  collisionFree := by
    intro other hother
    rcases mem_cons.mp hother with rfl | hother
    · exact h.collisionFree delivery hmem
    · exact h.collisionFree other hother
  harmless := by
    intro other hother
    rcases mem_cons.mp hother with rfl | hother
    · exact hharmless
    · exact h.harmless other hother

lemma Wrote.fresh {rows : List Append} (h : Wrote rows db db') (hdb' : ChainInv db') (hnode : node ∈ db.actions)
    {a : Append} (ha : a ∈ rows) : node.id ≠ a.id := by
  obtain ⟨new, hactions, rfl⟩ := h.actions
  obtain ⟨added, hadded, rfl⟩ := mem_map.mp ha
  have hids := hdb'.actionIds
  rw [hactions, map_append, nodup_append] at hids
  exact hids.2.2 _ (mem_map_of_mem hnode) _ (mem_map_of_mem hadded)

theorem AlarmInv.plannedFrom (h : AlarmInv s) (hbased : Based s.db command request resolution terminal)
    (hok : refused (write cap (.commit (requestCommit command decision admission authority now state))
      s.db).1 = false) : PlannedFrom s.db command request resolution terminal := by
  obtain ⟨session, hsession, -, -, -, hrevision⟩ := write_commit_authority hok
  have hnow : session.revision = command.expectedRevision := hrevision
  rw [Based, ← hnow] at hbased
  exact hbased.now h.one h.base.ledger.chain hsession

theorem AlarmInv.land (h : AlarmInv s) (hplanned : Planned s.db command decision request resolution terminal)
    (hbased : Based s.db command request resolution terminal)
    (hadmission : ∀ d ∈ admission, isForeign (deliveryCommitAction d) = true)
    (hids : ∀ a ∈ (requestCommit command decision admission authority now state).actions, ¬ IsFiringId a.id)
    (hunsettled : ∀ next, command.payload = .open next →
      s.db.settled (deadlineOccurrence command.sessionId next.requestId) = false) :
    AlarmInv (s.withDb (write cap (.commit
      (requestCommit command decision admission authority now state)) s.db).2) := by
  by_cases hrefused : refused (write cap (.commit
      (requestCommit command decision admission authority now state)) s.db).1 = true
  · rw [write_refused hrefused]
    exact h
  have hok := Bool.eq_false_iff.mpr hrefused
  have hwrote := write_commit_wrote hok
  obtain ⟨session, hsession, hid, -⟩ := write_commit_authority hok
  have hfrom := h.plannedFrom hbased hok
  obtain ⟨hchain, hkept⟩ := write_chainInv cap (.commit
    (requestCommit command decision admission authority now state)) h.base.ledger.chain
  have hledger : LedgerInv (write cap (.commit
      (requestCommit command decision admission authority now state)) s.db).2 :=
    hplanned.ledgerInv h.base.ledger hadmission
  have hone : OneSession (write cap (.commit
      (requestCommit command decision admission authority now state)) s.db).2 :=
    h.one.write (by simp [WriteOp.creates])
  refine h.grow (h.base.grow hwrote.grows hledger hkept) hwrote.grows hkept hone
    (h.keys.foldlM hwrote.armed) ?_
  rintro _ _ ⟨row, found, hopen, rfl, rfl⟩
  have hrow : row.sessionId = session.id := by
    obtain ⟨session', hsession', hid', -⟩ := hkept session hsession
    have hstates : row ∈ _ := mem_of_getLast? hopen.latest
    exact (hone.sessionId_eq hchain hsession' (mem_filter.mp hstates).1).trans hid'
  rcases hplanned.openOwned hadmission hwrote h.base.ledger h.one hsession hid hfrom hrow hopen with
    ⟨hbefore, hspares⟩ | ⟨hpayload, hname⟩
  · refine ⟨(h.scheduled _ _ hbefore).wrote hwrote fun a ha => ⟨hspares a ha, ?_⟩, .inl hbefore⟩
    exact fun outcome heq => hids a ha ⟨_, _, outcome, heq⟩
  · have hscheduled := hplanned.scheduled hadmission hwrote hpayload (hunsettled request hpayload) hids
    rw [hrow, hid, hname]
    refine ⟨hscheduled, .inr fun delivery hmem hoccurrence => ?_⟩
    -- the request's own arm would stand under the id of the delivery's
    obtain ⟨-, halarm, hseq⟩ := Arm.eq_of_occurrenceId
      (h.collisionFree delivery hmem command.sessionId request.requestId) hoccurrence
    obtain ⟨node, hnode, harm⟩ := h.minted delivery hmem
    have hmemArm : armAction (deadlineArm command request) ∈
        (requestCommit command decision admission authority now state).actions := by
      simp [requestCommit, hplanned.actions, recordRequest, deadlineArms_open hpayload]
    refine hwrote.fresh hchain hnode hmemArm ?_
    rw [← armAction_id_eq command halarm hseq, ← harm]

theorem AlarmInv.other (h : AlarmInv s) {op : WriteOp}
    (hbase : SystemInv { s.toRequestSystem with db := (write cap op s.db).2 })
    (hforeign : ∀ a ∈ op.rows, isForeign a = true)
    (hfile : ∀ id ∈ op.creates, ∀ session ∈ s.db.sessions, session.id = id)
    (hspares : ∀ a ∈ op.rows, ∀ sessionId requestId, IsOpen s.db sessionId requestId →
      Spares sessionId requestId a) : AlarmInv (s.withDb (write cap op s.db).2) := by
  rcases write_wrote cap op s.db with heq | hwrote
  · rw [heq]
    exact h
  · refine h.grow hbase hwrote.grows (write_chainInv cap op h.base.ledger.chain).2
      (h.one.write hfile) (h.keys.foldlM hwrote.armed) ?_
    rintro _ _ ⟨row, found, hopen, rfl, rfl⟩
    have hbefore : IsOpen s.db row.sessionId found.requestId :=
      ⟨row, found, hopen.of_wrote hwrote fun a ha => carriesRequest_of_foreign (hforeign a ha), rfl, rfl⟩
    exact ⟨(h.scheduled _ _ hbefore).wrote hwrote fun a ha => hspares a ha _ _ hbefore, .inl hbefore⟩

theorem Records.plannedFrom (h : Records command snapshot decision request resolution terminal) (hdb : LedgerInv db)
    (hread : db.requestById requestId = some snapshot.request) :
    PlannedFrom db command request resolution terminal := by
  have howns := h.owns
  simp only [ownsRequestRevision, Bool.and_eq_true, decide_eq_true_eq] at howns
  obtain ⟨⟨⟨hrow, -⟩, -⟩, -⟩ := howns
  cases h.origin with
  | opened node hpayload hunknown hstate hsession hterminal =>
    subst hterminal
    exact .opened hpayload
  | moved current hpayload hcurrent hid hsession hmove =>
    rw [hcurrent] at hread
    obtain ⟨_, recorded, -, -, -, -, -, hname, hparse⟩ := hdb.recorded hread
    obtain ⟨hsame, -⟩ := ofPlain_toPlain_fields hparse
    refine .moved current _ hpayload ?_ (hsession.trans hrow) hmove
    rw [← hid, hsame, hname]
    exact hread

theorem decide_timeout {current : Request} (hvalid : command.valid = true)
    (howns : ownsRequestRevision command snapshot.row = true) (hinput : snapshot.inputRecord = none)
    (hrequest : snapshot.request = some current) (hpayload : command.payload = .timeout current.requestId)
    (hsession : current.sessionId = snapshot.row.id) (hstate : current.state = .opened)
    (hdue : current.deadline ≤ command.at) : (decideRequestTransition command snapshot recentOpen).actions ≠ [] := by
  have hexpire : transition command snapshot (requestInputDigest command.payload) recentOpen =
      recordRequest command current.expire (requestInputDigest command.payload) .expired true := by
    have htargets : targets current (.timeout current.requestId) snapshot.row.id = true := by
      simp [targets, targetRequestId, hsession]
    rw [transition, hpayload]
    simp [hrequest, htargets, hstate, expireRequest, not_lt.mpr hdue]
  simp [decideRequestTransition, hvalid, howns, repeatedInput, hinput, hexpire, recordRequest]

lemma isFiringId_of_fired {outcome : FiredOutcome} {id : String}
    (h : id = deadlineOccurrence sessionId requestId ++ ":" ++ outcome.text) : IsFiringId id :=
  ⟨sessionId, requestId, outcome, h⟩

theorem not_isOpen_fork (h : LedgerInv db) {parent : Row} {childId anchorId : String} {pointers : GenerationPointers}
    {genesis : Append} {copies : List Append}
    (hcopies : planCopies parent.id childId anchorId (db.rows parent.id) = some copies)
    (hgenesis : isForeign genesis = true)
    (hsessions : ∀ node ∈ db.rows parent.id, ∀ request,
      (node.effect.get? "request").bind Request.ofPlain = some request → request.sessionId ≠ childId) :
    ¬ IsOpen (write cap (.fork ⟨forkedRow childId parent pointers, genesis⟩ copies) {}).2
      sessionId requestId := by
  rintro ⟨row, request, hopen, -⟩
  have hstates : row ∈ _ := mem_of_getLast? hopen.latest
  obtain ⟨hrow, hcarries⟩ := mem_filter.mp hstates
  simp only [Bool.and_eq_true, decide_eq_true_eq] at hcarries
  have hok : refused (write cap (.fork ⟨forkedRow childId parent pointers, genesis⟩ copies) {}).1 =
      false := by
    by_contra hrefused
    rw [write_refused (by simpa using hrefused)] at hrow
    simp at hrow
  have hexact := write_fork_rows hok
  obtain ⟨nodes, rest, hrows, hplan⟩ := planCopies_some hcopies
  have hmem : row.toAppend ∈ genesis :: copies := by
    have himage : row.toAppend ∈ List.map (·.toAppend)
        (write cap (.fork ⟨forkedRow childId parent pointers, genesis⟩ copies) {}).2.actions :=
      mem_map_of_mem hrow
    rwa [hexact] at himage
  rcases mem_cons.mp hmem with heq | hcopied
  · have hkind : row.toAppend.kind = .request := hcarries.1
    rw [heq] at hkind
    simp [isForeign, hkind] at hgenesis
  · rw [hplan] at hcopied
    obtain ⟨node, hnode, heq⟩ := mem_map.mp hcopied
    obtain ⟨hin, -⟩ := mem_filter.mp hnode
    have hkind : node.kind = .request := (congrArg Append.kind heq).trans hcarries.1
    have hcopy := (h.copy_request childId hrows hin hkind rfl).1
    have hsame := hcopy.symm.trans heq
    have heffect : node.effect = row.effect := by
      simpa using congrArg (·.effect) hsame
    have hsession : childId = row.sessionId := by
      simpa using congrArg (·.sessionId) hsame
    have hfold := hopen.fold
    rw [requestById_eq hopen.latest, Option.map_eq_some_iff] at hfold
    obtain ⟨read, hread, hreadEq⟩ := hfold
    obtain rfl := Option.some.inj hreadEq
    refine hsessions node ?_ read (heffect ▸ hread) (hopen.owned.trans hsession.symm)
    rw [hrows]
    exact mem_append_left _ hin

lemma AlarmInv.requestStep (h : AlarmInv s) {event : RequestEvent} {t : RequestSystem}
    (hstep : RequestSystem.Step cap recentOpen s.toRequestSystem event t)
    (hfile : event.keepsFile s.db) (htimely : (AlarmEvent.request event).Timely s) :
    AlarmInv { toRequestSystem := t, deliveries := if event.isFork then [] else s.deliveries } := by
  have hbase := h.base.step hstep
  cases hstep with
  | readRow row owner hrow | readInput row inputId hrow => exact { h with base := hbase }
  | readRequest row requestId request hrow hread =>
    refine { h with base := hbase, reads := ?_ }
    intro read hmem
    rcases mem_cons.mp hmem with rfl | hmem
    · obtain ⟨current, hcurrent, -, hle⟩ := h.base.heads row hrow
      exact ⟨current, hcurrent, hle, fun _ => hread⟩
    · exact h.reads read hmem
  | decide command snapshot requestId hinput hinvocation hrequest hnamed =>
    refine { h with base := hbase, plans := ?_ }
    intro plan hplan hactions
    rcases mem_cons.mp hplan with rfl | hplan
    · obtain ⟨request, resolution, terminal, hrecords⟩ := decideRequestTransition_records hactions
      refine ⟨request, resolution, terminal,
        h.base.planned hinput hinvocation hrequest hrecords, ?_⟩
      have howns := hrecords.owns
      simp only [ownsRequestRevision, Bool.and_eq_true, decide_eq_true_eq] at howns
      have hread := h.reads _ hrequest
      simp only [howns.2] at hread
      exact hread.imp (hrecords.plannedFrom h.base.ledger)
    · exact h.plans plan hplan hactions
  | land command decision admission authority now state hdecided hactions hadmission =>
    obtain ⟨request, resolution, terminal, hplanned, hbased⟩ := h.plans _ hdecided hactions
    exact h.land hplanned hbased hadmission htimely.1 htimely.2
  | other op hforeign =>
    refine h.other hbase hforeign hfile ?_
    rintro a ha _ _ ⟨row, request, hopen, rfl, rfl⟩
    obtain ⟨hid, hspares⟩ := htimely a ha
    exact ⟨hspares row request hopen, fun outcome heq => hid (isFiringId_of_fired heq)⟩
  | strike occurrenceId | requeue occurrenceId fireAt =>
    refine h.withArmed (fun row => ?_) (fun row => ?_) <;> split <;> rfl
  | fork parent childId anchorId pointers genesis copies hparent hcopies hgenesis =>
    have hnone : ∀ sessionId requestId, ¬ IsOpen (write cap
        (.fork ⟨forkedRow childId parent pointers, genesis⟩ copies) {}).2 sessionId requestId :=
      fun _ _ => not_isOpen_fork h.base.ledger hcopies hgenesis htimely
    refine ⟨hbase, ?_, ?_, by simp, by simp, ?_, by simp [RequestEvent.isFork],
      by simp [RequestEvent.isFork], by simp [RequestEvent.isFork], by simp [RequestEvent.isFork]⟩
    · have hempty : OneSession {} := by simp [OneSession, Db.sessionIds]
      exact hempty.write (by simp)
    · rcases write_wrote cap (.fork ⟨forkedRow childId parent pointers, genesis⟩ copies) {} with
        heq | hwrote
      · simp only [heq]
        exact nodup_nil
      · have hempty : ArmedKeys ({} : Db).armed := nodup_nil
        exact hempty.foldlM hwrote.armed
    · intro sessionId requestId hopen
      exact absurd hopen (hnone sessionId requestId)

theorem AlarmInv.found (h : AlarmInv s) (hmem : delivery ∈ s.deliveries)
    (hopen : IsOpen s.db sessionId requestId)
    (hoccurrence : delivery.arm.occurrenceId = deadlineOccurrence sessionId requestId)
    {named : String} (hbody : delivery.requestId = some named) :
    named = requestId ∧ ∃ node request, OpenOwned s.db node request ∧ request.requestId = named := by
  obtain ⟨-, hrequestId, -⟩ := h.deadline hmem hopen hoccurrence
  obtain ⟨node, request, hopen, -, hid⟩ := hopen
  have hsame : named = requestId := Option.mem_unique hbody hrequestId
  exact ⟨hsame, node, request, hopen, hid.trans hsame.symm⟩

theorem AlarmInv.staleTimeout (h : AlarmInv s) (hmem : delivery ∈ s.deliveries) {row : Row} {clock : ℚ}
    {domainRevisions : Option DomainRevisions} {requests : List Request}
    (hrow : s.db.selectSession delivery.arm.sessionId = some row) (hopen : OpenOwned s.db node request)
    (hvalid : (timeoutCommand delivery request.requestId row clock).valid = true)
    (hfree : s.db.requestInputById row.id (deadlineAlarmId request.requestId) = none)
    (hdue : request.deadline ≤ clock)
    (hnothing : (decideRequestTransition (timeoutCommand delivery request.requestId row clock)
      (requestSnapshot s.db row request.requestId (deadlineAlarmId request.requestId) (some request)
        domainRevisions requests) recentOpen).actions = []) : Stale s.db delivery.authority := by
  obtain ⟨hsession, hid⟩ := selectSession_some hrow
  obtain ⟨held, hheld, hheldId, hle, howner⟩ := h.held delivery hmem
  obtain rfl := h.base.ledger.chain.session_unique hheld hsession (hheldId.trans hid.symm)
  refine ⟨held, hheld, lt_of_le_of_ne hle fun hfence => ?_⟩
  have howns : ownsRequestRevision (timeoutCommand delivery request.requestId held clock) held = true := by
    simp [ownsRequestRevision, timeoutCommand, hheldId, howner hfence.symm, hfence]
  have hstates : node ∈ _ := mem_of_getLast? hopen.latest
  have hnode := h.one.sessionId_eq h.base.ledger.chain hheld (mem_filter.mp hstates).1
  exact decide_timeout hvalid howns hfree rfl rfl (hopen.owned.trans hnode) hopen.state hdue hnothing

lemma AlarmInv.step (h : AlarmInv s) {event : AlarmEvent} {t : AlarmSystem}
    (hstep : AlarmSystem.Step cap recentOpen s event t) (htimely : event.Timely s) : AlarmInv t := by
  cases hstep with
  | request event t hstep hfile => exact h.requestStep hstep hfile htimely
  | arrive arm tick authority harm hheld =>
    refine { h with minted := ?_, held := ?_, collisionFree := ?_, harmless := ?_ }
    · intro other hother
      rcases mem_cons.mp hother with rfl | hother
      · exact harm
      · exact h.minted other hother
    · intro other hother
      rcases mem_cons.mp hother with rfl | hother
      · exact hheld
      · exact h.held other hother
    · intro other hother
      rcases mem_cons.mp hother with rfl | hother
      · exact htimely
      · exact h.collisionFree other hother
    · intro other hother
      rcases mem_cons.mp hother with rfl | hother
      · simp
      · exact h.harmless other hother
  | skip delivery reason hmem hstage hquiet hskip =>
    refine h.deliver hmem fun _ _ sessionId requestId hopen hoccurrence => ?_
    rw [h.disposition hmem hopen hoccurrence] at hskip
    contradiction
  | strike delivery hmem hstage hcurrent hrun =>
    have hstruck : AlarmInv (s.withDb { s.db with
        armed := strikeArmed delivery.arm.occurrenceId s.db.armed }) := by
      refine h.withArmed (fun row => ?_) (fun row => ?_) <;> split <;> rfl
    refine hstruck.deliver hmem fun outcome hfiring _ _ hopen hoccurrence => ?_
    obtain ⟨row, request, ⟨hlatest, hfold, howned, hstate⟩, rfl, rfl⟩ := hopen
    refine absurd ?_ (htimely row request ⟨hlatest, hfold, howned, hstate⟩ hoccurrence)
    unfold Delivery.afterStrike at hfiring ⊢
    split at hfiring
    · split at hfiring
      · rename_i hfull
        simp [hfull]
      · contradiction
    · contradiction
  | wake delivery outcome hmem hstage hpurpose hreserved =>
    refine h.deliver hmem fun _ _ sessionId requestId hopen hoccurrence => ?_
    exact absurd (h.deadline hmem hopen hoccurrence).1 hpurpose
  | expireClosed delivery requestId request hmem hstage hpurpose hbody hread hclosed =>
    refine h.deliver hmem fun _ _ _ _ hopen hoccurrence => ?_
    obtain ⟨-, node, found, hfound, rfl⟩ := h.found hmem hopen hoccurrence hbody
    have hsame : some (some found) = some request := hfound.fold.symm.trans hread
    exact absurd hfound.state (hclosed found (Option.some.inj hsame).symm)
  | expireUnrecorded delivery requestId row clock request domainRevisions requests hmem hstage hpurpose
      hbody hrow hread hnothing =>
    refine h.deliver hmem fun _ _ _ _ hopen hoccurrence => ?_
    obtain ⟨-, node, found, hfound, rfl⟩ := h.found hmem hopen hoccurrence hbody
    obtain ⟨hvalid, hfree, hdue⟩ := htimely node found hfound rfl
    have hsame : some (some found) = some request := hfound.fold.symm.trans hread
    cases hsame
    exact h.staleTimeout hmem hrow hfound hvalid hfree hdue hnothing
  | expireLanded delivery requestId command decision authority now state hmem hstage hpurpose hbody
      hcommand hdecided hactions hlanded =>
    obtain ⟨request, resolution, terminal, hplanned, hbased⟩ := h.plans _ hdecided hactions
    have hnext : AlarmInv (s.withDb (write cap (.commit
        (requestCommit command decision [] authority now state)) s.db).2) :=
      h.land hplanned hbased (by simp) htimely (by simp [hcommand])
    refine hnext.deliver hmem fun _ _ sessionId requestId' hopen hoccurrence => ?_
    obtain ⟨-, node, found, hfound, rfl⟩ := hnext.found hmem hopen hoccurrence hbody
    have hfrom := h.plannedFrom hbased hlanded
    exact absurd rfl (hplanned.timeoutCloses (by simp) (write_commit_wrote hlanded) hfrom hcommand hfound)
  | fire delivery outcome parentId now row hmem hstage hnew =>
    have hforeign : ∀ a ∈ (WriteOp.commit (firedCommit delivery outcome parentId now row)).rows,
        isForeign a = true := by
      simpa [WriteOp.rows, firedCommit] using isForeign_firedAction _
    have hother : RequestSystem.Step cap recentOpen s.toRequestSystem _ _ := .other _ hforeign
    have hbase := h.base.step hother
    by_cases hrefused : refused (write cap (.commit (firedCommit delivery outcome parentId now row))
        s.db).1 = true
    · rw [write_refused hrefused]
      exact h
    · refine h.other hbase hforeign (by simp [WriteOp.creates]) ?_
      · intro a ha sessionId requestId hopen
        obtain rfl : a = _ := mem_singleton.mp ha
        have hne : delivery.arm.occurrenceId ≠ deadlineOccurrence sessionId requestId := by
          intro hoccurrence
          have hstale := h.harmless delivery hmem outcome hstage _ _ hopen hoccurrence
          exact hrefused (hstale.refused h.one h.base.ledger.chain rfl)
        refine ⟨fun delta hdelta => ?_, fun other heq => hne (firingId_inj heq).1⟩
        rw [firedDelta_firedAction (occurrenceId_ne_empty _ _ _ _), Option.some.injEq] at hdelta
        subst hdelta
        exact hne

/-- Every open request can still time out, in every state of every run whose steps all come in
time. -/
theorem open_requests_time_out (cap : ℕ) (recentOpen : ApprovalRecentOpen)
    (trace : List (AlarmSystem × AlarmEvent)) (s : AlarmSystem)
    (h : Run (AlarmSystem.Step cap recentOpen) {} trace s) (htimely : ∀ e ∈ trace, e.2.Timely e.1) :
    (∀ e ∈ trace, OpenRequestsTimeOut e.1.db) ∧ OpenRequestsTimeOut s.db := by
  have hrun := Run.restrict_iff.mpr ⟨h, htimely⟩
  have hstep : ∀ a event b, AlarmInv a → AlarmSystem.Step cap recentOpen a event b ∧ event.Timely a →
      AlarmInv b := fun _ _ _ hinv hstep => hinv.step hstep.1 hstep.2
  refine ⟨fun e he => ?_, (hrun.preserves AlarmInv.empty hstep).openRequestsTimeOut⟩
  exact (hrun.visits AlarmInv.empty hstep e he).openRequestsTimeOut

end

theorem OpenOwned.stranded [PlainCoding] {db : Db} {row : Node} {request : Request}
    (h : OpenOwned db row request) (harmed : db.armed = []) : ¬ OpenRequestsTimeOut db := by
  intro htimes
  obtain ⟨armed, hmem, -⟩ := htimes row request h
  simp [harmed] at hmem

def endsLikeFiring (id : String) : Bool :=
  [['d', 'e', 'r'], ['e', 'l', 'a'], ['d', 'e', 't']].contains (id.toList.reverse.take 3)

lemma not_isFiringId [PlainCoding] {id : String} (h : endsLikeFiring id = false) :
    ¬ IsFiringId id := by
  rintro ⟨sessionId, requestId, outcome, rfl⟩
  cases outcome <;> simp [endsLikeFiring, FiredOutcome.text] at h

variable {s : AlarmSystem}

lemma timely_other [PlainCoding] {op : WriteOp} (hids : ∀ a ∈ op.rows, endsLikeFiring a.id = false)
    (hdeltas : ∀ a ∈ op.rows, armedAlarmDelta a = none) : (AlarmEvent.request (.other op)).Timely s := by
  intro a ha
  refine ⟨not_isFiringId (hids a ha), fun _ _ _ delta hdelta => ?_⟩
  rw [hdeltas a ha] at hdelta
  contradiction

theorem reachable_unrecorded [PlainCoding] {cap : ℕ} {recentOpen : ApprovalRecentOpen}
    (h : Reachable (· = ({} : AlarmSystem)) (AlarmSystem.Step cap recentOpen) s) (arm : Arm) (authority : Authority)
    (requestId : String) (row : Row) (clock : ℚ) (request : Option Request)
    (harm : ∃ node ∈ s.db.actions, node.toAppend = armAction arm) (hheld : Held s.db arm.sessionId authority)
    (hpurpose : arm.purpose = "deadline")
    (hbody : Delivery.requestId ⟨arm, none, authority, .arrived⟩ = some requestId)
    (hrun : Delivery.disposition s.db ⟨arm, none, authority, .arrived⟩ = .run)
    (hstruck : Delivery.afterStrike s.db ⟨arm, none, authority, .arrived⟩ = .struck)
    (hrow : s.db.selectSession arm.sessionId = some row) (hread : s.db.requestById requestId = some request)
    (hnothing : (decideRequestTransition
      (timeoutCommand ⟨arm, none, authority, .struck⟩ requestId row clock)
      (requestSnapshot s.db row requestId (deadlineAlarmId requestId) request none request.toList)
      recentOpen).actions = [])
    (hnew : s.db.actionById (arm.occurrenceId ++ ":" ++ FiredOutcome.delivered.text) = none) :
    ∃ t, Reachable (· = ({} : AlarmSystem)) (AlarmSystem.Step cap recentOpen) t ∧
      t.db = (write cap (.commit
        (firedCommit ⟨arm, none, authority, .firing .delivered⟩ .delivered none clock row))
        { s.db with armed := strikeArmed arm.occurrenceId s.db.armed }).2 := by
  have harrived := h.step (.arrive arm none authority harm hheld)
  have hstrike := harrived.step (.strike ⟨arm, none, authority, .arrived⟩ (mem_cons_self) rfl rfl hrun)
  have hexpired := hstrike.step (.expireUnrecorded ⟨arm, none, authority, .struck⟩ requestId row clock
    request none request.toList (mem_cons.mpr (.inl (by rw [← hstruck]; rfl))) rfl hpurpose hbody hrow hread
    hnothing)
  exact ⟨_, hexpired.step (.fire ⟨arm, none, authority, .firing .delivered⟩ .delivered none clock row
    mem_cons_self rfl hnew), rfl⟩

namespace RequestSample

attribute [local instance] textCoding

abbrev TimelyStep (a : AlarmSystem) (event : AlarmEvent) (b : AlarmSystem) : Prop :=
  AlarmSystem.Step 1000000 recentOpen a event b ∧ event.Timely a

lemma setup_run (ops : List WriteOp) {s : AlarmSystem}
    (hfile : ∀ op ∈ ops, ∀ id ∈ op.creates, id = "s")
    (hsessions : ∀ id ∈ s.db.sessionIds, id = "s")
    (hforeign : ∀ op ∈ ops, ∀ a ∈ op.rows, isForeign a = true)
    (hids : ∀ op ∈ ops, ∀ a ∈ op.rows, endsLikeFiring a.id = false)
    (hdeltas : ∀ op ∈ ops, ∀ a ∈ op.rows, armedAlarmDelta a = none) :
    ∃ trace, Run TimelyStep s trace (s.withDb (writes 1000000 ops s.db)) := by
  induction ops generalizing s with
  | nil => exact ⟨[], .nil⟩
  | cons op ops ih =>
    have hkeeps : (RequestEvent.other op).keepsFile s.db := by
      intro id hid session hsession
      exact (hsessions _ (mem_map_of_mem hsession)).trans (hfile op mem_cons_self id hid).symm
    have hstep : TimelyStep s (.request (.other op)) (s.withDb (write 1000000 op s.db).2) :=
      ⟨.request _ _ (.other op (hforeign op mem_cons_self)) hkeeps,
        timely_other (hids op mem_cons_self) (hdeltas op mem_cons_self)⟩
    have hnext : ∀ id ∈ (write 1000000 op s.db).2.sessionIds, id = "s" := by
      intro id hid
      rcases write_sessionIds 1000000 op s.db with heq | heq
      · exact hsessions id (heq ▸ hid)
      · have hid' : id ∈ s.db.sessionIds ++ op.creates := heq ▸ hid
        exact (mem_append.mp hid').elim (hsessions id) (hfile op mem_cons_self id)
    obtain ⟨trace, hrun⟩ := ih (s := s.withDb _) (fun other hother => hfile other (mem_cons_of_mem _ hother)) hnext
      (fun other hother => hforeign other (mem_cons_of_mem _ hother))
      (fun other hother => hids other (mem_cons_of_mem _ hother))
      (fun other hother => hdeltas other (mem_cons_of_mem _ hother))
    exact ⟨_, (Run.nil.snoc hstep).trans hrun⟩

theorem landed_run : ∃ trace, Run TimelyStep {} trace ⟨landed, []⟩ := by
  obtain ⟨trace, hcalled⟩ := setup_run setup (s := {}) (by decide) (by decide) (by decide)
    (by decide) (by decide)
  have hhead := hcalled.snoc ⟨.request _ _ (.readRow row (some "o") (by decide)) trivial, trivial⟩
  have hrequest := hhead.snoc
    ⟨.request _ _ (.readRequest row "r" none (by decide) (by decide)) trivial, trivial⟩
  have hinput := hrequest.snoc
    ⟨.request _ _ (.readInput row "r:open" (by decide)) trivial, trivial⟩
  have hnone : called.requestInputById row.id "r:open" = none := by decide
  have hdecided := hinput.snoc ⟨.request _ _ (.decide openCommand openSnapshot "r" (by
      exact mem_singleton.mpr (congrArg (fun record => (row, "r:open", record)) hnone.symm)) (by
      rintro node heq
      cases heq
      decide) (mem_singleton.mpr rfl) fun _ => rfl) trivial, trivial⟩
  have hids : ∀ a ∈ opening.actions, endsLikeFiring a.id = false := by decide +kernel
  have hunsettled : called.settled (deadlineOccurrence "s" "r") = false := by decide
  have hlanded := hdecided.snoc ⟨.request _ _ (.land openCommand
    (decideRequestTransition openCommand openSnapshot recentOpen) [] ⟨"o", 1⟩ 1 .running
    (by simp) (by decide +kernel) (by simp)) trivial, fun a ha => not_isFiringId (hids a ha), by
      rintro next heq
      cases heq
      exact hunsettled⟩
  exact ⟨_, hlanded⟩

lemma landed_open : OpenOwned landed.db
    { inputRecord openCommand request (requestInputDigest openCommand.payload) .opened with
      ordinal := 4 } request := by
  obtain ⟨hlatest, hfold⟩ : landed.db.requestStateById "r" = some { inputRecord openCommand request
        (requestInputDigest openCommand.payload) .opened with ordinal := 4 } ∧
      landed.db.requestById "r" = some (some request) := by
    decide +kernel
  exact ⟨hlatest, hfold, rfl, rfl⟩

/-- Once it has landed, the opened request can time out. -/
theorem open_requests_time_out_landed : CanTimeOut landed.db "r" := by
  obtain ⟨trace, hrun⟩ := landed_run
  obtain ⟨hsteps, htimely⟩ := Run.restrict_iff.mp hrun
  exact (open_requests_time_out 1000000 recentOpen trace ⟨landed, []⟩ hsteps htimely).2 _ request
    landed_open

/-- The ledger once the deadline was delivered at 5, before it is due, and its occurrence fired. -/
def fired : Db :=
  (write 1000000 (.commit (firedCommit ⟨deadlineArm openCommand request, none, ⟨"o", 1⟩,
      .firing .delivered⟩ .delivered none 5 { row with revision := 5 }))
    { landed.db with
      armed := strikeArmed (deadlineArm openCommand request).occurrenceId landed.db.armed }).2

/-- A delivery before the deadline leaves its request open and its deadline settled. -/
theorem early_delivery_strands : ∃ s, Reachable (· = ({} : AlarmSystem))
    (AlarmSystem.Step 1000000 recentOpen) s ∧ ¬ OpenRequestsTimeOut s.db := by
  obtain ⟨trace, hrun⟩ := landed_run
  have hlanded : Reachable (· = ({} : AlarmSystem)) (AlarmSystem.Step 1000000 recentOpen) ⟨landed, []⟩ :=
    ⟨{}, trace, rfl, (Run.restrict_iff.mp hrun).1⟩
  let arm := deadlineArm openCommand request
  let head : Row := { row with revision := 5 }
  obtain ⟨harm, hheld, hrun, hstruck, hrow, hread, hnothing, hnew⟩ :
      (∃ node ∈ landed.db.actions, node.toAppend = armAction arm) ∧
      (head ∈ landed.db.sessions ∧ head.id = arm.sessionId ∧ 1 ≤ head.fence ∧
        (head.fence = 1 → head.fenceOwner = some "o")) ∧
      Delivery.disposition landed.db ⟨arm, none, ⟨"o", 1⟩, .arrived⟩ = .run ∧
      Delivery.afterStrike landed.db ⟨arm, none, ⟨"o", 1⟩, .arrived⟩ = .struck ∧
      landed.db.selectSession arm.sessionId = some head ∧
      landed.db.requestById "r" = some (some request) ∧
      (decideRequestTransition (OpenOmni.timeoutCommand ⟨arm, none, ⟨"o", 1⟩, .struck⟩ "r" head 5)
        (requestSnapshot landed.db head "r" (deadlineAlarmId "r") (some request) none [request])
        recentOpen).actions = [] ∧
      landed.db.actionById (arm.occurrenceId ++ ":" ++ FiredOutcome.delivered.text) = none := by
    decide +kernel
  obtain ⟨s, hs, hdb⟩ := reachable_unrecorded hlanded arm ⟨"o", 1⟩ "r" head 5 (some request) harm
    ⟨head, hheld⟩ rfl (by decide) hrun hstruck hrow hread hnothing hnew
  have hfired : s.db = fired := hdb
  obtain ⟨harmed, hlatest, hfold⟩ : fired.armed = [] ∧
      fired.requestStateById "r" = some { inputRecord openCommand request
        (requestInputDigest openCommand.payload) .opened with ordinal := 4 } ∧
      fired.requestById "r" = some (some request) := by
    decide +kernel
  have hopen : OpenOwned fired _ request := ⟨hlatest, hfold, rfl, rfl⟩
  refine ⟨s, hs, ?_⟩
  rw [hfired]
  exact hopen.stranded harmed

end RequestSample

end OpenOmni
