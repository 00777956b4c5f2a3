import OpenOmni.Session.AlarmRead
import OpenOmni.Session.Deadline

/-! The armed index of a session file refines the canonical fold of its alarm rows. -/
namespace OpenOmni
open List

open PlainValue Transition

/-- The rows that writers of alarms build: an arm, or a firing of the occurrence it minted. -/
inductive AlarmRow where
  | arm (input : Arm)
  | fired (input : Arm) (parentId : Option String) (outcome : FiredOutcome) (ts : ℚ)

def AlarmRow.source : AlarmRow → Arm
  | .arm input => input
  | .fired input _ _ _ => input

/-- An open chain of the fold: its latest arm has a due time and was not fired. -/
def OpenChain (chains : Dict String AlarmChainView) (alarmId occurrenceId : String) : Prop :=
  ∃ chain, chains.get? alarmId = some chain ∧ chain.latest.at ≠ none ∧ chain.loopClosed = false ∧
    chain.latest.occurrenceId = occurrenceId

/-- The index holds the occurrence of an alarm exactly when the alarm's chain is open on it. -/
def Refines (armed : List ArmedRow) (chains : Dict String AlarmChainView) : Prop :=
  ∀ alarmId occurrenceId, IsArmed alarmId occurrenceId armed ↔ OpenChain chains alarmId occurrenceId

section
variable [PlainCoding]

def Arm.fired (arm : Arm) (parentId : Option String) (outcome : FiredOutcome) (ts : ℚ) : Fired where
  parentId := parentId
  sessionId := arm.sessionId
  purpose := arm.purpose
  alarmId := arm.alarmId
  occurrenceId := arm.occurrenceId
  outcome := outcome
  ts := ts

def AlarmRow.toAppend : AlarmRow → Append
  | .arm input => armAction input
  | .fired input parentId outcome ts => firedAction (input.fired parentId outcome ts)

def OtherRow (arms : List Arm) (action : Append) : Prop :=
  action.kind ≠ .alarm ∧ ∀ arm ∈ arms, ∀ outcome : FiredOutcome,
    action.id ≠ arm.occurrenceId ++ ":" ++ outcome.text

def BuiltRow (arms : List Arm) (action : Append) : Prop :=
  ∃ row : AlarmRow, row.source ∈ arms ∧ row.source.payload.objectValue.isSome ∧ row.toAppend = action

/-- What happens to the file of a session: a write, or a move of the armed index alone. -/
inductive FileEvent where
  | write (op : WriteOp)
  | strike (occurrenceId : String)
  | requeue (occurrenceId : String) (fireAt : ℚ)

/-- One step of a session file whose alarm rows come from the given arms. -/
inductive FileStep (cap : ℕ) (arms : List Arm) (db : Db) : FileEvent → Db → Prop where
  | write (op : WriteOp) (hrows : ∀ a ∈ op.rows, OtherRow arms a ∨ BuiltRow arms a)
      (hfile : ∀ id ∈ op.creates, ∀ session ∈ db.sessions, session.id = id) :
      FileStep cap arms db (.write op) (write cap op db).2
  | strike (occurrenceId : String) :
      FileStep cap arms db (.strike occurrenceId) { db with armed := strikeArmed occurrenceId db.armed }
  | requeue (occurrenceId : String) (fireAt : ℚ) :
      FileStep cap arms db (.requeue occurrenceId fireAt)
        { db with armed := requeueArmed occurrenceId fireAt db.armed }

def Db.hasFired (db : Db) (occurrenceId : String) (outcome : FiredOutcome) : Prop :=
  ∃ node ∈ db.actions, ∃ input, node.toAppend = firedAction input ∧ input.occurrenceId = occurrenceId ∧
    input.outcome = outcome

end

section
variable [PlainCoding] {cap : ℕ} {db db' : Db}

lemma forkCopies_accepted {receipt head : Receipt} {copies : List Append}
    (h : forkCopies cap db receipt copies = .ok (head, db')) : ∀ a ∈ copies, refuseRow cap a = none := by
  induction copies generalizing db receipt with
  | nil => simp
  | cons copy copies ih =>
    obtain ⟨appended, next, hfirst, hrest⟩ := forkCopies_cons h
    have hcopy := (appendAction_ok hfirst).1
    have hcopies := ih hrest
    simp only [mem_cons, forall_eq_or_imp]
    exact ⟨hcopy, hcopies⟩

theorem write_accepted (cap : ℕ) (op : WriteOp) (db : Db) : (write cap op db).2 = db ∨
    (Wrote op.rows db (write cap op db).2 ∧ ∀ a ∈ op.rows, refuseRow cap a = none) := by
  unfold write transaction
  cases h : runWrite cap op db with
  | error refusal => exact .inl rfl
  | ok result =>
    obtain ⟨out, next⟩ := result
    have hwrote := runWrite_wrote h
    cases op with
    | materialize input =>
      obtain ⟨result, -, hmat⟩ := runWrite_materialize h
      rcases materializeSession_ok hmat with ⟨row, -, rfl⟩ | hcreated
      · exact .inl rfl
      · obtain ⟨row, receipt, inserted, rfl, -, -, -, -, hins, happ, -⟩ := hcreated
        refine .inr ⟨materializeSession_wrote hmat, ?_⟩
        simpa [WriteOp.rows] using (appendAction_ok happ).1
    | adoptFence input =>
      refine hwrote.imp_right fun hw => ⟨hw, ?_⟩
      simp [WriteOp.rows]
    | commit input =>
      obtain ⟨row, receipts, -, -, hcommit⟩ := runWrite_commit h
      exact .inr ⟨hcommit.wrote, hcommit.rows⟩
    | append input revision =>
      rcases runWrite_append h with ⟨-, rfl⟩ | ⟨receipt, -, happ⟩
      · exact .inl rfl
      · refine .inr ⟨(appendAction_ok happ).2.2.wrote, ?_⟩
        simpa [WriteOp.rows] using (appendAction_ok happ).1
    | fork input copies =>
      obtain ⟨result, -, hfork⟩ := runWrite_fork h
      obtain ⟨row, receipt, mid, head, hmat, hcopies, -⟩ := forkSession_ok hfork
      have hrest := forkCopies_accepted hcopies
      rcases materializeSession_ok hmat with ⟨existing, heq, -⟩ | hcreated
      · simp at heq
      · obtain ⟨_, _, inserted, -, -, -, -, -, hins, happ, -⟩ := hcreated
        refine .inr ⟨(materializeSession_wrote hmat).trans (forkCopies_wrote hcopies), ?_⟩
        simp only [WriteOp.rows, mem_cons, forall_eq_or_imp]
        exact ⟨(appendAction_ok happ).1, hrest⟩

theorem firstIssue_of_accepted {action : Append} (h : refuseRow cap action = none) :
    Journal.firstIssue action.kind action.intent action.effect = none := by
  unfold refuseRow at h
  split at h
  · contradiction
  · assumption

end

section
variable [PlainCoding] {chains : Dict String AlarmChainView} {node : Node}

variable {arm : Arm}

lemma alarmArmRow_armAction {payload : PlainValue} (hrow : node.toAppend = armAction arm)
    (hpayload : arm.payload.objectValue = some payload) :
    ∃ latest, alarmArmRow node (armAction arm).intent = some latest ∧
      latest.occurrenceId = arm.occurrenceId ∧ latest.at = arm.at := by
  have heffect : node.effect.objectValue = some (armAction arm).effect := by
    rw [hrow]
    rfl
  refine ⟨⟨arm.occurrenceId, arm.purpose, arm.at, arm.supersedes, arm.sourceKey, payload, node.ts,
    node.id⟩, ?_, rfl, rfl⟩
  simp [alarmArmRow, heffect, armAction, get?_record, List.lookup, hpayload, nullable_num]

theorem foldAlarmAction_arm (hrow : node.toAppend = armAction arm) (hpayload : arm.payload.objectValue.isSome)
    (hissue : Journal.firstIssue .alarm node.intent node.effect = none) :
    ∃ chain, foldAlarmAction chains node = chains.set arm.alarmId chain ∧
      chain.latest.occurrenceId = arm.occurrenceId ∧ chain.latest.at = arm.at ∧
      chain.loopClosed = false := by
  obtain ⟨payload, hobject⟩ := Option.isSome_iff_exists.mp hpayload
  obtain ⟨latest, hlatest, hoccurrence, hat⟩ := alarmArmRow_armAction hrow hobject
  have hkind : node.kind = .alarm := by rw [hrow]; rfl
  have hintent : node.intent = (armAction arm).intent := by rw [hrow]
  have hvalue : (armAction arm).intent.objectValue = some (armAction arm).intent := rfl
  have halarm : ((armAction arm).intent.get? "alarmId").bind asStr = some arm.alarmId := by
    simp [armAction, get?_record, List.lookup]
  have hop : (armAction arm).intent.get? "op" = some (.str "arm") := by
    simp [armAction, get?_record, List.lookup]
  rw [foldAlarmAction, if_pos hkind, foldAlarmRow, hissue, hintent]
  simp only [Option.isSome_none, Bool.false_eq_true, if_false, hvalue, halarm, hop, if_true, hlatest]
  cases hchain : chains.get? arm.alarmId with
  | none | some chain => exact ⟨_, rfl, hoccurrence, hat, rfl⟩

theorem alarmId_ne_empty (hrow : node.toAppend = armAction arm)
    (hissue : Journal.firstIssue .alarm node.intent node.effect = none) : arm.alarmId ≠ "" := by
  rintro hempty
  have hintent : node.intent.get? "alarmId" = some (.str "") := by
    rw [hrow]
    simp [armAction, get?_record, List.lookup, hempty]
  have hchecks := findSome?_eq_none_iff.mp (Option.bind_eq_none_iff.mp hissue _ rfl)
  have hcheck := hchecks ⟨.intent, "alarmId", isNonempty⟩ (by simp)
  simp [Journal.refineField, hintent, isNonempty, isId] at hcheck

end

section
variable {chains : Dict String AlarmChainView} {node : Node}

theorem foldAlarmAction_fired {input : Fired} (hrow : node.toAppend = firedAction input)
    (hissue : Journal.firstIssue .alarm node.intent node.effect = none) :
    foldAlarmAction chains node = match chains.get? input.alarmId with
      | none => chains
      | some chain => chains.set input.alarmId
          (chain.fire input.occurrenceId (some (.str input.outcome.text)) node.ts) := by
  have hkind : node.kind = .alarm := by rw [hrow]; rfl
  have hintent : node.intent = (firedAction input).intent := by rw [hrow]
  have hvalue : (firedAction input).intent.objectValue = some (firedAction input).intent := rfl
  have halarm : ((firedAction input).intent.get? "alarmId").bind asStr = some input.alarmId := by
    simp [firedAction, get?_record, List.lookup]
  have hop : (firedAction input).intent.get? "op" = some (.str "fired") := by
    simp [firedAction, get?_record, List.lookup]
  have hoccurrence : ((firedAction input).intent.get? "occurrenceId").bind asStr =
      some input.occurrenceId := by
    simp [firedAction, get?_record, List.lookup]
  have houtcome : (firedAction input).intent.get? "outcome" = some (.str input.outcome.text) := by
    simp [firedAction, get?_record, List.lookup]
  have hne : ¬ some (PlainValue.str "fired") = some (.str "arm") := by decide
  rw [foldAlarmAction, if_pos hkind, foldAlarmRow, hissue, hintent]
  cases hchain : chains.get? input.alarmId with
  | none => simp [hvalue, halarm, hop, hne, hoccurrence, hchain]
  | some chain => simp [hvalue, halarm, hop, hne, hoccurrence, houtcome, hchain]

end

@[simp] theorem AlarmChainView.fire_latest (chain : AlarmChainView) (occurrence : String)
    (outcome : Option PlainValue) (ts : ℚ) : (chain.fire occurrence outcome ts).latest = chain.latest := by
  unfold fire
  split
  · rfl
  · split <;> rfl

@[simp] theorem AlarmChainView.fire_loopClosed (chain : AlarmChainView) (occurrence : String)
    (outcome : Option PlainValue) (ts : ℚ) :
    (chain.fire occurrence outcome ts).loopClosed =
      (chain.loopClosed || occurrence = chain.latest.occurrenceId) := by
  unfold fire
  split
  · rfl
  · split <;> rfl

lemma foldAlarmAction_other {chains : Dict String AlarmChainView} {node : Node} (h : node.kind ≠ .alarm) :
    foldAlarmAction chains node = chains := if_neg h

section
variable {armed armed' : List ArmedRow} {alarmId occurrenceId : String}

lemma applyDelta_other {action : Append} (h : action.kind ≠ .alarm) :
    applyDelta armed action = .ok armed := by
  simp [applyDelta, armedAlarmDelta, h]

variable {other occurrence : String}

lemma isArmed_upsert {fireAt : ℚ} (h : applyArmedAlarmDelta armed (.upsert other occurrence fireAt) = .ok armed') :
    IsArmed alarmId occurrenceId armed' ↔
      if alarmId = other then occurrenceId = occurrence else IsArmed alarmId occurrenceId armed := by
  simp only [applyArmedAlarmDelta] at h
  split at h
  · contradiction
  split at h
  · rename_i hany
    obtain ⟨first, hfirst, hid⟩ := any_eq_true.mp hany
    cases h
    have hother : first.alarmId = other := by simpa using hid
    simp only [IsArmed, mem_map, exists_exists_and_eq_and]
    by_cases halarm : alarmId = other
    · rw [if_pos halarm]
      constructor
      · rintro ⟨row, hrow, hrowId, hocc⟩
        split at hrowId
        · rename_i heq
          rw [if_pos heq] at hocc
          exact hocc.symm
        · rename_i hne
          exact absurd (hrowId.trans halarm) hne
      · intro hocc
        exact ⟨first, hfirst, by simp [hother, halarm], by simp [hother, hocc]⟩
    · rw [if_neg halarm]
      constructor
      · rintro ⟨row, hrow, hrowId, hocc⟩
        split at hrowId
        · exact absurd hrowId.symm halarm
        · rename_i hne
          rw [if_neg hne] at hocc
          exact ⟨row, hrow, hrowId, hocc⟩
      · rintro ⟨row, hrow, hrowId, hocc⟩
        have hne : row.alarmId ≠ other := by
          rw [hrowId]
          exact halarm
        exact ⟨row, hrow, by rw [if_neg hne]; exact hrowId, by rw [if_neg hne]; exact hocc⟩
  · rename_i hany
    cases h
    have hnone : ∀ row ∈ armed, row.alarmId ≠ other := by simpa using hany
    simp only [IsArmed, mem_append, mem_singleton]
    by_cases halarm : alarmId = other
    · rw [if_pos halarm]
      constructor
      · rintro ⟨row, hrow | rfl, hrowId, hocc⟩
        · exact absurd (hrowId.trans halarm) (hnone row hrow)
        · exact hocc.symm
      · intro hocc
        exact ⟨_, .inr rfl, halarm.symm, hocc.symm⟩
    · rw [if_neg halarm]
      constructor
      · rintro ⟨row, hrow | rfl, hrowId, hocc⟩
        · exact ⟨row, hrow, hrowId, hocc⟩
        · exact absurd hrowId.symm halarm
      · rintro ⟨row, hrow, hrowId, hocc⟩
        exact ⟨row, .inl hrow, hrowId, hocc⟩

lemma isArmed_retire (h : applyArmedAlarmDelta armed (.retire other) = .ok armed') :
    IsArmed alarmId occurrenceId armed' ↔ alarmId ≠ other ∧ IsArmed alarmId occurrenceId armed := by
  cases h
  simp only [IsArmed, mem_filter, decide_eq_true_eq]
  constructor
  · rintro ⟨row, ⟨hrow, hne⟩, rfl, hocc⟩
    exact ⟨hne, row, hrow, rfl, hocc⟩
  · rintro ⟨hne, row, hrow, rfl, hocc⟩
    exact ⟨row, ⟨hrow, hne⟩, rfl, hocc⟩

lemma isArmed_fired (h : applyArmedAlarmDelta armed (.fired occurrence) = .ok armed') :
    IsArmed alarmId occurrenceId armed' ↔ occurrenceId ≠ occurrence ∧ IsArmed alarmId occurrenceId armed := by
  cases h
  simp only [IsArmed, mem_filter, decide_eq_true_eq]
  constructor
  · rintro ⟨row, ⟨hrow, hne⟩, hid, rfl⟩
    exact ⟨hne, row, hrow, hid, rfl⟩
  · rintro ⟨hne, row, hrow, hid, rfl⟩
    exact ⟨row, ⟨hrow, hne⟩, hid, rfl⟩

end

section
variable [PlainCoding] {arms : List Arm} {armed armed' : List ArmedRow}
  {chains : Dict String AlarmChainView} {node : Node}

/-- Every indexed occurrence was minted by one of the arms, for its alarm. -/
def Minted (arms : List Arm) (armed : List ArmedRow) : Prop :=
  ∀ alarmId occurrenceId, IsArmed alarmId occurrenceId armed →
    ∃ arm ∈ arms, arm.alarmId = alarmId ∧ arm.occurrenceId = occurrenceId

theorem alarmId_eq_of_occurrence (hfree : CollisionFree (arms.map Arm.key)) {a b : Arm} (ha : a ∈ arms)
    (hb : b ∈ arms) (h : a.occurrenceId = b.occurrenceId) : a.alarmId = b.alarmId := by
  have hkeys := (canonicalDigest_eq_iff hfree (mem_map_of_mem ha) (mem_map_of_mem hb)).mp h
  have hfields : a.sessionId = b.sessionId ∧ a.alarmId = b.alarmId ∧ a.armSeq = b.armSeq ∧
      a.sourceKey = b.sourceKey := by
    simpa [Arm.key, occurrenceKey, canonical, canonicalList] using hkeys
  exact hfields.2.1

variable {input : Arm}

lemma Refines.arm (h : Refines armed chains) (hrow : node.toAppend = armAction input)
    (hpayload : input.payload.objectValue.isSome) (hissue : Journal.firstIssue .alarm node.intent node.effect = none)
    (hdelta : applyDelta armed node.toAppend = .ok armed') : Refines armed' (foldAlarmAction chains node) := by
  have hopened : ∃ chain, foldAlarmAction chains node = chains.set input.alarmId chain ∧
      chain.latest.occurrenceId = input.occurrenceId ∧ chain.latest.at = input.at ∧
      chain.loopClosed = false := foldAlarmAction_arm hrow hpayload hissue
  obtain ⟨chain, hfold, hoccurrence, hat, hopen⟩ := hopened
  have harm := armDelta_armAction (alarmId_ne_empty hrow hissue)
  intro alarmId occurrenceId
  rw [hrow] at hdelta
  simp only [applyDelta, harm] at hdelta
  simp only [OpenChain, hfold, Dict.get?_set]
  cases hdue : input.at with
  | none =>
    rw [hdue] at hdelta
    rw [isArmed_retire hdelta]
    by_cases heq : alarmId = input.alarmId
    · simp [heq, hat, hdue]
    · simp only [heq, ne_eq, not_false_eq_true, true_and, if_false]
      exact h alarmId occurrenceId
  | some fireAt =>
    rw [hdue] at hdelta
    rw [isArmed_upsert hdelta]
    by_cases heq : alarmId = input.alarmId
    · simp only [heq, if_true, Option.some.injEq, exists_eq_left', hat, hdue, hopen, hoccurrence]
      constructor
      · rintro rfl
        exact ⟨by simp, trivial, rfl⟩
      · rintro ⟨-, -, hocc⟩
        exact hocc.symm
    · simp only [heq, if_false]
      exact h alarmId occurrenceId

lemma Refines.fired (h : Refines armed chains) (hminted : Minted arms armed)
    (hfree : CollisionFree (arms.map Arm.key)) (hinput : input ∈ arms) {parentId : Option String}
    {outcome : FiredOutcome} {ts : ℚ} (hrow : node.toAppend = firedAction (input.fired parentId outcome ts))
    (hissue : Journal.firstIssue .alarm node.intent node.effect = none)
    (hdelta : applyDelta armed node.toAppend = .ok armed') : Refines armed' (foldAlarmAction chains node) := by
  have hne : (input.fired parentId outcome ts).occurrenceId ≠ "" := occurrenceId_ne_empty _ _ _ _
  have hfired := firedDelta_firedAction hne
  -- another alarm is not armed under this occurrence
  have hother : ∀ alarmId occurrenceId, OpenChain chains alarmId occurrenceId →
      occurrenceId = input.occurrenceId → alarmId = input.alarmId := by
    intro alarmId occurrenceId hopen heq
    obtain ⟨source, hsource, hid, hocc⟩ := hminted alarmId occurrenceId ((h _ _).mpr hopen)
    have hsame := alarmId_eq_of_occurrence hfree hsource hinput (hocc.trans heq)
    exact hid.symm.trans hsame
  intro alarmId occurrenceId
  rw [hrow] at hdelta
  simp only [applyDelta, hfired] at hdelta
  rw [isArmed_fired hdelta, h alarmId occurrenceId, foldAlarmAction_fired hrow hissue]
  simp only [Arm.fired]
  cases hchain : chains.get? input.alarmId with
  | none =>
    change _ ∧ OpenChain chains alarmId occurrenceId ↔ OpenChain chains alarmId occurrenceId
    constructor
    · exact fun hopen => hopen.2
    · intro hopen
      refine ⟨fun heq => ?_, hopen⟩
      have hsame := hother alarmId occurrenceId hopen heq
      obtain ⟨chain, hfound, -⟩ := hopen
      rw [hsame, hchain] at hfound
      contradiction
  | some chain =>
    simp only [OpenChain, Dict.get?_set]
    by_cases heq : alarmId = input.alarmId
    · subst heq
      simp only [hchain, if_true, Option.some.injEq, exists_eq_left', AlarmChainView.fire_latest,
        AlarmChainView.fire_loopClosed, Bool.or_eq_false_iff, decide_eq_false_iff_not]
      constructor
      · rintro ⟨hocc, hdue, hopen, rfl⟩
        exact ⟨hdue, ⟨hopen, Ne.symm hocc⟩, rfl⟩
      · rintro ⟨hdue, ⟨hopen, hocc⟩, rfl⟩
        exact ⟨Ne.symm hocc, hdue, hopen, rfl⟩
    · simp only [heq, if_false]
      constructor
      · exact fun hopen => hopen.2
      · intro hopen
        exact ⟨fun hocc => heq (hother alarmId occurrenceId hopen hocc), hopen⟩

lemma Minted.applyDelta (hminted : Minted arms armed) {action : Append}
    (hissue : Journal.firstIssue action.kind action.intent action.effect = none)
    (hrow : OtherRow arms action ∨ BuiltRow arms action)
    (hdelta : applyDelta armed action = .ok armed') : Minted arms armed' := by
  rcases hrow with hrow | ⟨row, hsource, -, rfl⟩
  · rw [applyDelta_other hrow.1] at hdelta
    cases hdelta
    exact hminted
  · intro alarmId occurrenceId harmed
    cases row with
    | arm input =>
      have hne : input.alarmId ≠ "" := @alarmId_ne_empty _ ⟨armAction input, 0⟩ input rfl hissue
      simp only [AlarmRow.toAppend, OpenOmni.applyDelta, armDelta_armAction hne] at hdelta
      cases hdue : input.at with
      | none =>
        rw [hdue] at hdelta
        exact hminted _ _ ((isArmed_retire hdelta).mp harmed).2
      | some fireAt =>
        rw [hdue] at hdelta
        rw [isArmed_upsert hdelta] at harmed
        by_cases heq : alarmId = input.alarmId
        · rw [if_pos heq] at harmed
          exact ⟨input, hsource, heq.symm, harmed.symm⟩
        · rw [if_neg heq] at harmed
          exact hminted _ _ harmed
    | fired input parentId outcome ts =>
      have hne : (input.fired parentId outcome ts).occurrenceId ≠ "" := occurrenceId_ne_empty _ _ _ _
      simp only [AlarmRow.toAppend, OpenOmni.applyDelta, firedDelta_firedAction hne] at hdelta
      exact hminted _ _ ((isArmed_fired hdelta).mp harmed).2

theorem Refines.row (h : Refines armed chains) (hminted : Minted arms armed)
    (hfree : CollisionFree (arms.map Arm.key)) (hissue : Journal.firstIssue node.kind node.intent node.effect = none)
    (hrow : OtherRow arms node.toAppend ∨ BuiltRow arms node.toAppend)
    (hdelta : applyDelta armed node.toAppend = .ok armed') :
    Refines armed' (foldAlarmAction chains node) := by
  rcases hrow with hrow | ⟨row, hsource, hpayload, hrow⟩
  · rw [applyDelta_other hrow.1] at hdelta
    cases hdelta
    rw [foldAlarmAction_other hrow.1]
    exact h
  · cases row with
    | arm input =>
      have hkind : node.kind = .alarm := by rw [← hrow]; rfl
      rw [hkind] at hissue
      exact h.arm hrow.symm hpayload hissue hdelta
    | fired input parentId outcome ts =>
      have hkind : node.kind = .alarm := by rw [← hrow]; rfl
      rw [hkind] at hissue
      exact h.fired hminted hfree hsource hrow.symm hissue hdelta

theorem Refines.rows {nodes : List Node} (h : Refines armed chains) (hminted : Minted arms armed)
    (hfree : CollisionFree (arms.map Arm.key))
    (hissues : ∀ a ∈ nodes.map (·.toAppend), Journal.firstIssue a.kind a.intent a.effect = none)
    (hrows : ∀ a ∈ nodes.map (·.toAppend), OtherRow arms a ∨ BuiltRow arms a)
    (hdeltas : (nodes.map (·.toAppend)).foldlM applyDelta armed = .ok armed') :
    Refines armed' (nodes.foldl foldAlarmAction chains) ∧ Minted arms armed' := by
  induction nodes generalizing armed chains with
  | nil =>
    cases hdeltas
    exact ⟨h, hminted⟩
  | cons node nodes ih =>
    rw [map_cons, foldlM_cons] at hdeltas
    simp only [map_cons, mem_cons, forall_eq_or_imp] at hissues hrows
    cases hfirst : applyDelta armed node.toAppend with
    | error refusal => simp [hfirst, bind, Except.bind] at hdeltas
    | ok next =>
      rw [hfirst] at hdeltas
      have hnext := h.row hminted hfree hissues.1 hrows.1 hfirst
      have hminted' := hminted.applyDelta hissues.1 hrows.1 hfirst
      exact ih hnext hminted' hissues.2 hrows.2 hdeltas

end

lemma isArmed_map_iff {f : ArmedRow → ArmedRow} {armed : List ArmedRow} {alarmId occurrenceId : String}
    (halarm : ∀ row, (f row).alarmId = row.alarmId)
    (hoccurrence : ∀ row, (f row).occurrenceId = row.occurrenceId) :
    IsArmed alarmId occurrenceId (armed.map f) ↔ IsArmed alarmId occurrenceId armed := by
  simp [IsArmed, halarm, hoccurrence]

theorem armId_ne_firingId (alarmId : String) (armSeq : ℕ) (occurrenceId : String) (outcome : FiredOutcome) :
    alarmId ++ ":arm:" ++ toString armSeq ≠ occurrenceId ++ ":" ++ outcome.text := by
  intro h
  have hlast := congrArg (fun id : String => id.toList.getLast?) h
  have hdigits : (toString armSeq).toList ≠ [] := by
    rw [Nat.toString_eq_repr, Nat.toList_repr]
    exact Nat.toDigits_ne_nil
  obtain ⟨c, hc⟩ := Option.isSome_iff_exists.mp (getLast?_isSome.mpr hdigits)
  have hdigit : c.isDigit = true := by
    have hmem := mem_of_getLast? hc
    rw [Nat.toString_eq_repr, Nat.toList_repr] at hmem
    exact Nat.isDigit_of_mem_toDigits (by decide) (by decide) hmem
  simp only [String.toList_append, getLast?_append, hc, Option.some_or] at hlast
  cases outcome <;> simp [FiredOutcome.text] at hlast <;> subst hlast <;> contradiction

variable {db : Db}

lemma settled_iff_id {occurrence : String} : db.settled occurrence = true ↔
    (∃ node ∈ db.actions, node.id = occurrence ++ ":" ++ FiredOutcome.delivered.text) ∨
      ∃ node ∈ db.actions, node.id = occurrence ++ ":" ++ FiredOutcome.exhausted.text := by
  have hdelivered : ":delivered" = ":" ++ FiredOutcome.delivered.text := rfl
  have hexhausted : ":exhausted" = ":" ++ FiredOutcome.exhausted.text := rfl
  simp [Db.settled, Db.actionById, hdelivered, hexhausted, String.append_assoc]

theorem alarmDisposition_run (h : ArmedKeys db.armed) (alarmId occurrenceId : String) :
    alarmDisposition db.latestArm db.settled alarmId occurrenceId = .run ↔
      IsArmed alarmId occurrenceId db.armed ∧ db.settled occurrenceId = false := by
  have harmed : IsArmed alarmId occurrenceId db.armed ↔
      ∃ row, db.armed.find? (·.alarmId = alarmId) = some row ∧ row.occurrenceId = occurrenceId := by
    constructor
    · rintro ⟨row, hrow, rfl, hocc⟩
      exact ⟨row, h.find? hrow, hocc⟩
    · rintro ⟨row, hrow, hocc⟩
      have hid := find?_some hrow
      simp only [decide_eq_true_eq] at hid
      exact ⟨row, mem_of_find?_eq_some hrow, hid, hocc⟩
  rw [harmed]
  cases hfind : db.armed.find? (·.alarmId = alarmId) with
  | none => simp [alarmDisposition, Db.latestArm, hfind]
  | some row =>
    by_cases hocc : row.occurrenceId = occurrenceId
    · cases hsettled : db.settled occurrenceId <;>
        simp [alarmDisposition, Db.latestArm, hfind, hocc, hsettled]
    · simp [alarmDisposition, Db.latestArm, hfind, hocc]

section
variable [PlainCoding] {cap : ℕ} {arms : List Arm} {db db' : Db}

structure IndexInv (arms : List Arm) (db : Db) : Prop where
  chain : ChainInv db
  one : OneSession db
  keys : ArmedKeys db.armed
  minted : Minted arms db.armed
  refines : Refines db.armed (db.actions.foldl foldAlarmAction .empty)
  rows : ∀ node ∈ db.actions, OtherRow arms node.toAppend ∨ BuiltRow arms node.toAppend

lemma IndexInv.empty : IndexInv arms {} where
  chain := ChainInv.empty
  one := by simp [OneSession, Db.sessionIds]
  keys := nodup_nil
  minted := by simp [Minted, IsArmed]
  refines := by simp [Refines, IsArmed, OpenChain]
  rows := by simp

theorem IndexInv.withArmed (h : IndexInv arms db) {f : ArmedRow → ArmedRow}
    (halarm : ∀ row, (f row).alarmId = row.alarmId)
    (hoccurrence : ∀ row, (f row).occurrenceId = row.occurrenceId) :
    IndexInv arms { db with armed := db.armed.map f } where
  chain := ⟨h.chain.sessionIds, h.chain.actionIds, h.chain.ordinals, h.chain.parents, h.chain.owned⟩
  one := h.one
  keys := h.keys.map halarm
  minted _ _ harmed := h.minted _ _ ((isArmed_map_iff halarm hoccurrence).mp harmed)
  refines _ _ := (isArmed_map_iff halarm hoccurrence).trans (h.refines _ _)
  rows := h.rows

lemma IndexInv.write (h : IndexInv arms db) (hfree : CollisionFree (arms.map Arm.key)) {op : WriteOp}
    (hrows : ∀ a ∈ op.rows, OtherRow arms a ∨ BuiltRow arms a)
    (hfile : ∀ id ∈ op.creates, ∀ session ∈ db.sessions, session.id = id) :
    IndexInv arms (write cap op db).2 := by
  have hchain := write_chainInv cap op h.chain
  have hone : OneSession (OpenOmni.write cap op db).2 := h.one.write hfile
  rcases write_accepted cap op db with heq | ⟨hwrote, haccepted⟩
  · rw [heq]
    exact h
  · obtain ⟨new, hactions, hnew⟩ := hwrote.actions
    have hissues : ∀ a ∈ op.rows, Journal.firstIssue a.kind a.intent a.effect = none :=
      fun a ha => firstIssue_of_accepted (haccepted a ha)
    have hdeltas := hwrote.armed
    have hkeys := h.keys.foldlM hdeltas
    rw [← hnew] at hissues hrows hdeltas
    obtain ⟨hrefines, hminted⟩ := h.refines.rows h.minted hfree hissues hrows hdeltas
    refine ⟨hchain.1, hone, hkeys, hminted, ?_, fun node hnode => ?_⟩
    · rw [hactions, foldl_append]
      exact hrefines
    · rw [hactions] at hnode
      rcases mem_append.mp hnode with hnode | hnode
      · exact h.rows node hnode
      · exact hrows _ (mem_map_of_mem hnode)

lemma FileStep.indexInv {event : FileEvent} (hstep : FileStep cap arms db event db')
    (hfree : CollisionFree (arms.map Arm.key)) (h : IndexInv arms db) : IndexInv arms db' := by
  cases hstep with
  | write op hrows hfile => exact h.write hfree hrows hfile
  | strike occurrenceId | requeue occurrenceId fireAt =>
    refine h.withArmed (fun row => ?_) fun row => ?_
    · split <;> rfl
    · split <;> rfl

theorem IndexInv.settled_iff (h : IndexInv arms db) {arm : Arm} (harm : arm ∈ arms) :
    db.settled arm.occurrenceId = true ↔
      db.hasFired arm.occurrenceId .delivered ∨ db.hasFired arm.occurrenceId .exhausted := by
  have hid : ∀ outcome : FiredOutcome, (∃ node ∈ db.actions,
      node.id = arm.occurrenceId ++ ":" ++ outcome.text) ↔ db.hasFired arm.occurrenceId outcome := by
    intro outcome
    constructor
    · rintro ⟨node, hnode, hid⟩
      rcases h.rows node hnode with hother | ⟨row, -, -, hrow⟩
      · exact absurd hid (hother.2 arm harm outcome)
      · cases row with
        | arm input =>
          have heq : node.id = input.alarmId ++ ":arm:" ++ toString input.armSeq :=
            congrArg Append.id hrow.symm
          exact absurd (heq.symm.trans hid) (armId_ne_firingId _ _ _ _)
        | fired input parentId outcome' ts =>
          have heq : node.id = input.occurrenceId ++ ":" ++ outcome'.text :=
            congrArg Append.id hrow.symm
          obtain ⟨hocc, houtcome⟩ := firingId_inj (heq.symm.trans hid)
          exact ⟨node, hnode, _, hrow.symm, hocc, houtcome⟩
    · rintro ⟨node, hnode, input, hrow, hocc, rfl⟩
      refine ⟨node, hnode, ?_⟩
      rw [← hocc]
      exact congrArg Append.id hrow
  rw [settled_iff_id]
  exact or_congr (hid .delivered) (hid .exhausted)

/-- After any steps of a session file the armed index says what the canonical fold of the session's
whole history says, with at most one occurrence of an alarm, and a delivered occurrence runs exactly
when it is indexed and was neither delivered nor exhausted. -/
theorem armed_index_refines_fold (cap : ℕ) (arms : List Arm) (hfree : CollisionFree (arms.map Arm.key))
    (db : Db) (h : Reachable (· = ({} : Db)) (FileStep cap arms) db) (session : Row)
    (hsession : session ∈ db.sessions) :
    ∃ chains, foldAlarmChains db session.id = some chains ∧ Refines db.armed chains ∧
      ArmedKeys db.armed ∧ ∀ alarmId occurrenceId,
        alarmDisposition db.latestArm db.settled alarmId occurrenceId = .run ↔
          IsArmed alarmId occurrenceId db.armed ∧ ¬ db.hasFired occurrenceId .delivered ∧
            ¬ db.hasFired occurrenceId .exhausted := by
  have hinv : IndexInv arms db := h.invariant (fun _ heq => heq ▸ IndexInv.empty)
    fun _ _ _ hinv hstep => hstep.indexInv hfree hinv
  refine ⟨db.actions.foldl foldAlarmAction .empty, ?_, hinv.refines, hinv.keys, fun alarmId occurrenceId => ?_⟩
  · rw [foldAlarmChains_eq hinv.chain hsession, hinv.one.rows_eq hinv.chain hsession]
  · rw [alarmDisposition_run hinv.keys]
    refine and_congr_right fun harmed => ?_
    obtain ⟨arm, harm, -, rfl⟩ := hinv.minted _ _ harmed
    rw [← not_or, ← hinv.settled_iff harm, Bool.not_eq_true]

end

namespace RequestSample

attribute [local instance] textCoding

def dueArm : Arm where
  parentId := none
  sessionId := "s"
  purpose := "wake"
  «at» := some 5
  supersedes := none
  alarmId := "y"
  sourceKey := "y"
  payload := .record []
  armSeq := 1
  ts := 0

def dueWrites : List WriteOp :=
  [.materialize ⟨{ row with revision := 0 }, genesis⟩, .append (armAction dueArm) 1]

theorem armed_index_refines_fold_due :
    ∃ chains, foldAlarmChains (writes 1000000 dueWrites {}) "s" = some chains ∧
      OpenChain chains "y" dueArm.occurrenceId := by
  have hother : OtherRow [dueArm] genesis := by
    refine ⟨by decide, fun arm harm outcome => ?_⟩
    obtain rfl := mem_singleton.mp harm
    cases outcome <;> decide
  have hgenesis : Reachable (· = ({} : Db)) (FileStep 1000000 [dueArm]) _ :=
    Reachable.step ⟨{}, [], rfl, .nil⟩
      (.write (.materialize ⟨{ row with revision := 0 }, genesis⟩)
        (by simpa [WriteOp.rows] using .inl hother) (by simp))
  have hdue := hgenesis.step (.write (.append (armAction dueArm) 1)
    (by simpa [WriteOp.rows] using .inr ⟨.arm dueArm, by simp [AlarmRow.source], rfl, rfl⟩)
    (by simp [WriteOp.creates]))
  have hfacts : { row with revision := 2 } ∈ (writes 1000000 dueWrites {}).sessions ∧
      ⟨"y", dueArm.occurrenceId, 5, 0⟩ ∈ (writes 1000000 dueWrites {}).armed := by decide
  obtain ⟨chains, hfold, hrefines, -⟩ := armed_index_refines_fold 1000000 [dueArm]
    (by simp [CollisionFree]) _ hdue _ hfacts.1
  exact ⟨chains, hfold, (hrefines _ _).mp ⟨_, hfacts.2, rfl, rfl⟩⟩

end RequestSample

end OpenOmni
