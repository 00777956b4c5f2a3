import OpenOmni.Channels.SendAdmission

/-! Runs of sends, retries and crashes: what every admission keeps, and exactly when a retry is served. -/
namespace OpenOmni
namespace Egress
open List

/-- One attempt of a send: its input with the clock it carries, the ports it reads, and where it ends. -/
structure Attempt where
  send : AuthorizedSend
  ports : Ports
  crash : Crash

structure Inv (s : Stores) : Prop where
  unique : UniqueIds s.debits
  classed : ∀ key fact, s.facts.get? key = some fact →
    fact.sendClass = classOf fact.signature.operation fact.signature.class
  backed : ∀ key fact, s.facts.get? key = some fact → fact.budgeted = true →
    ∃ row ∈ s.debits, row.id = debitId fact.signature.messageId ∧ row.senderId = fact.signature.senderId ∧
      row.targetActorId = fact.signature.target.actorId ∧ row.class = fact.sendClass

def Stores.empty : Stores := ⟨Dict.empty, []⟩

lemma inv_empty : Inv Stores.empty where
  unique := nodup_nil
  classed := by simp [Stores.empty]
  backed := by simp [Stores.empty]

structure OwnDebit (row : EgressDebitRow) (send : AuthorizedSend) : Prop where
  id : row.id = debitId send.input.messageId
  sender : row.senderId = send.input.senderId
  target : row.targetActorId = send.input.targetActorId
  «class» : row.class = sendClass send.input

variable {row : EgressDebitRow} {send : AuthorizedSend} {s s' : Stores} {fact : SendAdmission} {budget : SocialBudget}
  {a : Attempt}

lemma OwnDebit.eq_iff (h : OwnDebit row send) :
    row = debitRow send.input (sendClass send.input) ↔ row.at = send.input.at := by
  constructor
  · intro heq
    rw [heq]
    rfl
  · intro hat
    cases row
    simp only [debitRow, EgressDebitRow.mk.injEq]
    exact ⟨h.id, h.sender, h.target, h.class, hat⟩

lemma existingAdmission_ok (h : existingAdmission s send = some (.ok fact)) :
    s.facts.get? (sendStreamId send.input.messageId) = some fact ∧ fact.signature = sendSignature send := by
  unfold existingAdmission at h
  obtain ⟨found, hfound, hsame⟩ := Option.map_eq_some_iff.mp h
  split at hsame
  · cases hsame
  · rename_i hsignature
    cases hsame
    exact ⟨hfound, not_not.mp hsignature⟩

lemma existingAdmission_none :
    existingAdmission s send = none ↔ s.facts.get? (sendStreamId send.input.messageId) = none := by
  unfold existingAdmission
  exact Option.map_eq_none_iff

theorem Inv.ownDebit (h : Inv s) (hfact : existingAdmission s send = some (.ok fact))
    (hbudgeted : fact.budgeted = true) :
    fact.sendClass = sendClass send.input ∧ ∃ row ∈ s.debits, OwnDebit row send := by
  obtain ⟨hget, hsignature⟩ := existingAdmission_ok hfact
  have hclass := h.classed _ _ hget
  rw [hsignature] at hclass
  obtain ⟨row, hrow, hid, hsender, htarget, hrowClass⟩ := h.backed _ _ hget hbudgeted
  rw [hsignature] at hid hsender htarget
  refine ⟨hclass, row, hrow, hid, hsender, ?_, hrowClass.trans hclass⟩
  exact htarget.trans send.actor

theorem Inv.claim_own (h : Inv s) (hrow : row ∈ s.debits) (hown : OwnDebit row send) (windowStartAt : ℚ)
    (evaluate : EgressDebitState → Verdict) :
    claim s.debits (debitRow send.input (sendClass send.input)) windowStartAt evaluate =
      if row.at = send.input.at then .ok (s.debits, .claimed)
      else .error ("egress debit id " ++ debitId send.input.messageId ++ " already identifies a different claim") := by
  have hfind : s.debits.find? (·.id = (debitRow send.input (sendClass send.input)).id) = some row := by
    have hunique := h.unique.find? hrow
    rw [hown.id] at hunique
    exact hunique
  rw [claim_found hfind]
  by_cases hat : row.at = send.input.at
  · rw [if_pos (hown.eq_iff.mpr hat), if_pos hat]
  · rw [if_neg (mt hown.eq_iff.mp hat), if_neg hat]
    rfl

theorem Inv.admit_recorded (h : Inv s) (a : Attempt) (hfact : existingAdmission s a.send = some (.ok fact)) :
    admitSend s a.ports a.send a.crash = (s, .admitted fact) ↔
      ∀ row ∈ s.debits, OwnDebit row a.send → fact.budgeted = true → row.at = a.send.input.at := by
  have hruling : admitSend s a.ports a.send a.crash = admitKnown s a.send fact := by simp only [admitSend, hfact]
  rw [hruling, admitKnown]
  cases hbudgeted : fact.budgeted with
  | false => simp [repairBudgetDebit, hbudgeted]
  | true =>
    obtain ⟨hclass, row, hrow, hown⟩ := h.ownDebit hfact hbudgeted
    have hrepair : repairBudgetDebit s a.send.input fact =
        (if row.at = a.send.input.at then Except.ok s
         else .error ("egress debit id " ++ debitId a.send.input.messageId ++
           " already identifies a different claim")) := by
      unfold repairBudgetDebit
      rw [if_pos hbudgeted, hclass, h.claim_own hrow hown]
      split <;> rfl
    have honly : ∀ r ∈ s.debits, OwnDebit r a.send → r = row := by
      intro r hr hownR
      have hfirst := h.unique.find? hr
      have hsecond := h.unique.find? hrow
      rw [hownR.id, ← hown.id, hsecond] at hfirst
      exact (Option.some.inj hfirst).symm
    rw [hrepair]
    by_cases hat : row.at = a.send.input.at
    · simp only [if_pos hat, true_iff]
      intro r hr hownR _
      rw [honly r hr hownR]
      exact hat
    · simp only [if_neg hat, Prod.mk.injEq, reduceCtorEq, and_false, false_iff]
      intro hall
      exact hat (hall row hrow hown trivial)

theorem admit_different (a : Attempt) {message : String} (hfact : existingAdmission s a.send = some (.error message)) :
    (admitSend s a.ports a.send a.crash).1 = s ∧
      ∀ admission, (admitSend s a.ports a.send a.crash).2 ≠ .admitted admission := by
  unfold admitSend
  rw [hfact]
  by_cases hawaited : a.send.input.operation = .awaited
  · simp [hawaited]
  · simp [hawaited]

def Stores.recorded (s : Stores) (a : Attempt) (budgeted : Bool) : Stores where
  facts := s.facts.set (sendStreamId a.send.input.messageId)
    (SendAdmission.mk (sendSignature a.send) budgeted (sendClass a.send.input))
  debits := s.debits

def Stores.debited (s : Stores) (a : Attempt) : Stores where
  facts := s.facts
  debits := s.debits ++ [debitRow a.send.input (sendClass a.send.input)]

structure Allowed (s : Stores) (a : Attempt) (budget : SocialBudget) : Prop where
  active : activeBudgetFor a.ports.budgets a.send.input.targetActorId a.send.input.at = some budget
  new : s.debits.find? (·.id = debitId a.send.input.messageId) = none
  allow : evaluateSocialBudget budget (read s.debits a.send.input.senderId a.send.input.targetActorId
    (a.send.input.at - budget.windowMs)) (sendClass a.send.input) a.send.input.at = .allow

/-- The stores a fresh admission may leave: a debit the budget allowed, and then perhaps the fact. -/
inductive Fresh (s : Stores) (a : Attempt) : Stores → Prop where
  | unchanged : Fresh s a s
  | unbudgeted : Fresh s a (s.recorded a false)
  | backed {row : EgressDebitRow} : row ∈ s.debits → OwnDebit row a.send → Fresh s a (s.recorded a true)
  | debited {budget : SocialBudget} : Allowed s a budget → Fresh s a (s.debited a)
  | budgeted {budget : SocialBudget} : Allowed s a budget → Fresh s a ((s.debited a).recorded a true)

lemma ownDebit_debitRow (send : AuthorizedSend) : OwnDebit (debitRow send.input (sendClass send.input)) send :=
  ⟨rfl, rfl, rfl, rfl⟩

theorem recordAndRepair_eq (a : Attempt) (budgeted : Bool) (hnone : existingAdmission s a.send = none)
    (hdebit : budgeted = true → s.debits.find? (·.id = debitId a.send.input.messageId) =
      some (debitRow a.send.input (sendClass a.send.input))) : ((recordAndRepair s a.send budgeted a.crash).1 = s ∨
      (recordAndRepair s a.send budgeted a.crash).1 = s.recorded a budgeted) ∧
      ∀ message, (recordAndRepair s a.send budgeted a.crash).2 ≠ .storeInvariant message := by
  have hrecord : recordAdmission s a.send budgeted (sendClass a.send.input) =
      .ok (s.recorded a budgeted, ⟨sendSignature a.send, budgeted, sendClass a.send.input⟩) := by
    unfold recordAdmission
    rw [hnone]
    rfl
  have hrepair : repairBudgetDebit (s.recorded a budgeted) a.send.input
      ⟨sendSignature a.send, budgeted, sendClass a.send.input⟩ = .ok (s.recorded a budgeted) := by
    unfold repairBudgetDebit
    cases budgeted with
    | false => rfl
    | true =>
      have hfind : (s.recorded a true).debits.find? (·.id = (debitRow a.send.input (sendClass a.send.input)).id) =
          some (debitRow a.send.input (sendClass a.send.input)) := hdebit rfl
      simp only [if_true]
      rw [claim_found hfind, if_pos rfl]
      rfl
  unfold recordAndRepair
  cases hcrash : a.crash with
  | afterDebit => simp
  | afterFact => simp [hrecord]
  | never => simp [hrecord, hrepair]

theorem Inv.admit_within (h : Inv s) (a : Attempt) (hnone : existingAdmission s a.send = none)
    (hbudget : activeBudgetFor a.ports.budgets a.send.input.targetActorId a.send.input.at = some budget) :
    Fresh s a (admitWithin s a.send budget a.crash).1 ∧
      ∀ row ∈ s.debits, OwnDebit row a.send →
        ((∀ message, (admitWithin s a.send budget a.crash).2 ≠ .storeInvariant message) ↔
          row.at = a.send.input.at) := by
  cases hfind : s.debits.find? (·.id = debitId a.send.input.messageId) with
  | some existing =>
    have hfound : s.debits.find? (·.id = (debitRow a.send.input (sendClass a.send.input)).id) = some existing :=
      hfind
    have hown : ∀ row ∈ s.debits, OwnDebit row a.send → row = existing := by
      intro row hrow hown
      have hunique := h.unique.find? hrow
      rw [hown.id, hfind] at hunique
      exact (Option.some.inj hunique).symm
    unfold admitWithin
    simp only [claim_found hfound]
    by_cases hsame : existing = debitRow a.send.input (sendClass a.send.input)
    · simp only [if_pos hsame]
      obtain ⟨hstores, hserved⟩ := recordAndRepair_eq a true hnone fun _ => hsame ▸ hfind
      have hrow : existing ∈ s.debits := mem_of_find?_eq_some hfind
      refine ⟨?_, ?_⟩
      · rcases hstores with hkept | hrecorded
        · rw [hkept]
          exact .unchanged
        · rw [hrecorded]
          exact .backed hrow (hsame ▸ ownDebit_debitRow a.send)
      · intro row hrow hownRow
        have hat : row.at = a.send.input.at := by
          rw [hown row hrow hownRow, hsame]
          rfl
        simp only [hat, iff_true]
        exact hserved
    · simp only [if_neg hsame]
      refine ⟨.unchanged, ?_⟩
      intro row hrow hownRow
      have hat : row.at ≠ a.send.input.at := by
        intro hat
        apply hsame
        rw [← hown row hrow hownRow]
        exact hownRow.eq_iff.mpr hat
      simp [hat]
  | none =>
    have hfound : s.debits.find? (·.id = (debitRow a.send.input (sendClass a.send.input)).id) = none := hfind
    have hnoOwn : ∀ row ∈ s.debits, ¬ OwnDebit row a.send := by
      intro row hrow hown
      have := find?_eq_none.mp hfind row hrow
      simp [hown.id] at this
    refine ⟨?_, fun row hrow hown => absurd hown (hnoOwn row hrow)⟩
    have hread : read s.debits (debitRow a.send.input (sendClass a.send.input)).senderId
        (debitRow a.send.input (sendClass a.send.input)).targetActorId (a.send.input.at - budget.windowMs) =
        read s.debits a.send.input.senderId a.send.input.targetActorId (a.send.input.at - budget.windowMs) := rfl
    unfold admitWithin claim
    cases heval : evaluateSocialBudget budget (read s.debits a.send.input.senderId
        a.send.input.targetActorId (a.send.input.at - budget.windowMs)) (sendClass a.send.input) a.send.input.at with
    | suppress code =>
      simp only [hfound, hread, heval]
      exact .unchanged
    | allow =>
      simp only [hfound, hread, heval]
      have hallowed : Allowed s a budget := ⟨hbudget, hfind, heval⟩
      have hdebit : (s.debited a).debits.find? (·.id = debitId a.send.input.messageId) =
          some (debitRow a.send.input (sendClass a.send.input)) := by
        simp [Stores.debited, find?_append, hfind, debitRow]
      have hfresh : existingAdmission (s.debited a) a.send = none := hnone
      obtain ⟨hstores, -⟩ := recordAndRepair_eq a true hfresh fun _ => hdebit
      have hdebited : (⟨s.facts, s.debits ++ [debitRow a.send.input (sendClass a.send.input)]⟩ : Stores) =
          s.debited a := rfl
      rw [hdebited]
      rcases hstores with hkept | hrecorded
      · rw [hkept]
        exact .debited hallowed
      · rw [hrecorded]
        exact .budgeted hallowed

theorem Inv.admit_new (h : Inv s) (a : Attempt) (hnone : existingAdmission s a.send = none) :
    Fresh s a (admitSend s a.ports a.send a.crash).1 ∧
      ∀ row ∈ s.debits, OwnDebit row a.send →
        ((∀ message, (admitSend s a.ports a.send a.crash).2 ≠ .storeInvariant message) ↔
          ∀ budget, activeBudgetFor a.ports.budgets a.send.input.targetActorId a.send.input.at = some budget →
            row.at = a.send.input.at) := by
  have hruling : admitSend s a.ports a.send a.crash = admitNew s a.ports a.send a.crash := by
    simp only [admitSend, hnone]
  rw [hruling, admitNew]
  by_cases hconsent : needsConsent a.ports a.send.input = true
  · have hbudget : activeBudgetFor a.ports.budgets a.send.input.targetActorId a.send.input.at = none := by
      simp only [needsConsent, Bool.and_eq_true] at hconsent
      exact Option.isNone_iff_eq_none.mp hconsent.1.1.2
    simp only [if_pos hconsent, hbudget]
    exact ⟨.unchanged, by simp⟩
  · simp only [if_neg hconsent]
    cases hbudget : activeBudgetFor a.ports.budgets a.send.input.targetActorId a.send.input.at with
    | none =>
      obtain ⟨hstores, hserved⟩ := recordAndRepair_eq a false hnone (by simp)
      refine ⟨?_, fun row _ _ => by simp [hserved]⟩
      rcases hstores with hsame | hrecorded
      · simp only [hsame]
        exact .unchanged
      · simp only [hrecorded]
        exact .unbudgeted
    | some budget =>
      obtain ⟨hfresh, hserved⟩ := h.admit_within a hnone hbudget
      refine ⟨hfresh, ?_⟩
      intro row hrow hown
      simp only [hserved row hrow hown, Option.some.injEq]
      simp

theorem Inv.admit_state (h : Inv s) (a : Attempt) : (admitSend s a.ports a.send a.crash).1 = s ∨
      existingAdmission s a.send = none ∧ Fresh s a (admitSend s a.ports a.send a.crash).1 := by
  cases hexisting : existingAdmission s a.send with
  | none => exact .inr ⟨rfl, (h.admit_new a hexisting).1⟩
  | some existing =>
    cases existing with
    | error message => exact .inl (admit_different a hexisting).1
    | ok fact =>
      left
      have hruling : admitSend s a.ports a.send a.crash = admitKnown s a.send fact := by
        simp only [admitSend, hexisting]
      rw [hruling, admitKnown, repairBudgetDebit]
      cases hbudgeted : fact.budgeted with
      | false => rfl
      | true =>
        obtain ⟨hclass, row, hrow, hown⟩ := h.ownDebit hexisting hbudgeted
        simp only [if_true, hclass, h.claim_own hrow hown]
        by_cases hat : row.at = a.send.input.at
        · simp [hat, Except.map]
        · simp [hat, Except.map]

lemma Fresh.debits_subset (h : Fresh s a s') : s.debits ⊆ s'.debits := by
  cases h with
  | unchanged | unbudgeted | backed => exact List.Subset.refl _
  | debited | budgeted => exact subset_append_left _ _

theorem Fresh.facts_get? (h : Fresh s a s') (key : String) : s'.facts.get? key = s.facts.get? key ∨
      key = sendStreamId a.send.input.messageId ∧ ∃ budgeted : Bool,
        s'.facts.get? key = some ⟨sendSignature a.send, budgeted, sendClass a.send.input⟩ ∧
          (budgeted = true → ∃ row ∈ s'.debits, OwnDebit row a.send) := by
  have hset : ∀ (base : Stores) (budgeted : Bool), base.facts = s.facts →
      (budgeted = true → ∃ row ∈ base.debits, OwnDebit row a.send) →
      ((base.recorded a budgeted).facts.get? key = s.facts.get? key ∨
        key = sendStreamId a.send.input.messageId ∧ ∃ b : Bool,
          (base.recorded a budgeted).facts.get? key = some ⟨sendSignature a.send, b, sendClass a.send.input⟩ ∧
            (b = true → ∃ row ∈ (base.recorded a budgeted).debits, OwnDebit row a.send)) := by
    intro base budgeted hfacts hrow
    by_cases hkey : key = sendStreamId a.send.input.messageId
    · subst hkey
      exact .inr ⟨rfl, budgeted, Dict.get?_set_self _ _ _, hrow⟩
    · left
      simp only [Stores.recorded, Dict.get?_set_of_ne _ _ hkey, hfacts]
  have hnew : ∃ row ∈ (s.debited a).debits, OwnDebit row a.send :=
    ⟨_, mem_append_right _ (mem_singleton.mpr rfl), ownDebit_debitRow a.send⟩
  cases h with
  | unchanged | debited => exact .inl rfl
  | unbudgeted => exact hset s false rfl (by simp)
  | backed hrow hown => exact hset s true rfl fun _ => ⟨_, hrow, hown⟩
  | budgeted => exact hset (s.debited a) true rfl fun _ => hnew

lemma inv_fresh (h : Inv s) (hfresh : Fresh s a s') : Inv s' where
  unique := by
    cases hfresh with
    | unchanged | unbudgeted | backed => exact h.unique
    | debited hallowed | budgeted hallowed => exact h.unique.append hallowed.new
  classed := by
    intro key fact hget
    rcases hfresh.facts_get? key with hold | ⟨-, budgeted, hnew, -⟩
    · exact h.classed key fact (hold ▸ hget)
    · rw [hnew] at hget
      cases hget
      rfl
  backed := by
    intro key fact hget hbudgeted
    rcases hfresh.facts_get? key with hold | ⟨-, budgeted, hnew, hrow⟩
    · obtain ⟨row, hmem, hrow⟩ := h.backed key fact (hold ▸ hget) hbudgeted
      exact ⟨row, hfresh.debits_subset hmem, hrow⟩
    · rw [hnew] at hget
      cases hget
      obtain ⟨row, hmem, hown⟩ := hrow hbudgeted
      exact ⟨row, hmem, hown.id, hown.sender, hown.target.trans a.send.actor.symm, hown.class⟩

def Step (s : Stores) (a : Attempt) (s' : Stores) : Prop := (admitSend s a.ports a.send a.crash).1 = s'

lemma inv_step (h : Inv s) (hstep : Step s a s') : Inv s' := by
  rw [← hstep]
  rcases h.admit_state a with hsame | ⟨-, hfresh⟩
  · rw [hsame]
    exact h
  · exact inv_fresh h hfresh

theorem facts_stay (h : Inv s) (hstep : Step s a s') {key : String} (hget : s.facts.get? key = some fact) :
    s'.facts.get? key = some fact := by
  rw [← hstep]
  rcases h.admit_state a with hsame | ⟨hnone, hfresh⟩
  · rw [hsame]
    exact hget
  · rcases hfresh.facts_get? key with hold | ⟨rfl, -⟩
    · exact hold.trans hget
    · rw [existingAdmission_none.mp hnone] at hget
      cases hget

/-- The only budget the attempt can be judged by for this target. -/
def OneBudget (budget : SocialBudget) (targetActorId : String) (a : Attempt) : Prop :=
  a.send.input.targetActorId = targetActorId →
    ∀ active, activeBudgetFor a.ports.budgets targetActorId a.send.input.at = some active → active = budget

theorem withinBudget_step (h : Inv s) (hstep : Step s a s') {senderId targetActorId : String}
    (hone : OneBudget budget targetActorId a)
    (hwithin : WithinBudget budget (pairRows s.debits senderId targetActorId)) :
    WithinBudget budget (pairRows s'.debits senderId targetActorId) := by
  have hdebited : ∀ {active : SocialBudget}, Allowed s a active →
      WithinBudget budget (pairRows (s.debited a).debits senderId targetActorId) := by
    intro active hallowed
    rw [Stores.debited, pairRows_append]
    split
    · rename_i hpair
      obtain ⟨rfl, rfl⟩ := hpair
      obtain rfl := hone rfl active hallowed.active
      obtain ⟨hcount, hcooldown⟩ := evaluateSocialBudget_allow hallowed.allow
      exact hwithin.append hcount hcooldown
    · exact hwithin
  rw [← hstep]
  rcases h.admit_state a with hsame | ⟨-, hfresh⟩
  · rw [hsame]
    exact hwithin
  · generalize (admitSend s a.ports a.send a.crash).1 = after at hfresh
    cases hfresh with
    | unchanged | unbudgeted | backed => exact hwithin
    | debited hallowed | budgeted hallowed => exact hdebited hallowed

/-- An attempt whose admission reads the debit of its id: it is recorded and budgeted, or it is new and a
budget is in force. -/
def ReadsDebit (s : Stores) (a : Attempt) : Prop :=
  (∃ fact, existingAdmission s a.send = some (.ok fact) ∧ fact.budgeted = true) ∨
    existingAdmission s a.send = none ∧
      ∃ budget, activeBudgetFor a.ports.budgets a.send.input.targetActorId a.send.input.at = some budget

/-- An attempt carries the clock of the debit its id already has, where its admission reads that debit. -/
def AtKept (s : Stores) (a : Attempt) : Prop :=
  ∀ row ∈ s.debits, OwnDebit row a.send → ReadsDebit s a → row.at = a.send.input.at

structure Served (s : Stores) (a : Attempt) : Prop where
  recorded : ∀ fact, existingAdmission s a.send = some (.ok fact) →
    admitSend s a.ports a.send a.crash = (s, .admitted fact)
  different : ∀ message, existingAdmission s a.send = some (.error message) →
    (admitSend s a.ports a.send a.crash).1 = s ∧
      ∀ admission, (admitSend s a.ports a.send a.crash).2 ≠ .admitted admission
  interrupted : existingAdmission s a.send = none → ∀ row ∈ s.debits, OwnDebit row a.send →
    ∀ message, (admitSend s a.ports a.send a.crash).2 ≠ .storeInvariant message

lemma Inv.served_iff (h : Inv s) (a : Attempt) : Served s a ↔ AtKept s a := by
  constructor
  · rintro hserved row hrow hown (⟨fact, hfact, hbudgeted⟩ | ⟨hnone, budget, hbudget⟩)
    · exact (h.admit_recorded a hfact).mp (hserved.recorded fact hfact) row hrow hown hbudgeted
    · exact ((h.admit_new a hnone).2 row hrow hown).mp (hserved.interrupted hnone row hrow hown) budget hbudget
  · intro hkept
    refine ⟨?_, fun message hfact => admit_different a hfact, ?_⟩
    · intro fact hfact
      apply (h.admit_recorded a hfact).mpr
      intro row hrow hown hbudgeted
      exact hkept row hrow hown (.inl ⟨fact, hfact, hbudgeted⟩)
    · intro hnone row hrow hown
      apply ((h.admit_new a hnone).2 row hrow hown).mpr
      intro budget hbudget
      exact hkept row hrow hown (.inr ⟨hnone, budget, hbudget⟩)

/-- What send admission promises of a run: every attempt is served, one fact and one debit for a message id,
and under one budget the debits of a sender and target stay within it. -/
structure Contract (trace : List (Stores × Attempt)) (s : Stores) : Prop where
  served : ∀ e ∈ trace, Served e.1 e.2
  oneFact : ∀ e ∈ trace, ∀ key fact, e.1.facts.get? key = some fact → s.facts.get? key = some fact
  oneDebit : UniqueIds s.debits
  budget : ∀ budget senderId targetActorId, (∀ e ∈ trace, OneBudget budget targetActorId e.2) →
    WithinBudget budget (pairRows s.debits senderId targetActorId)

/-- Send admission keeps its promises in exactly the runs whose retries carry the clock of their debit. -/
theorem send_admission_iff {trace : List (Stores × Attempt)} {s : Stores}
    (run : Transition.Run Step Stores.empty trace s) :
    Contract trace s ↔ ∀ e ∈ trace, AtKept e.1 e.2 := by
  have hbefore : ∀ e ∈ trace, Inv e.1 := run.visits inv_empty fun _ _ _ h hstep => inv_step h hstep
  constructor
  · intro h e he
    exact ((hbefore e he).served_iff e.2).mp (h.served e he)
  · intro h
    refine ⟨?_, ?_, ?_, ?_⟩
    · intro e he
      exact ((hbefore e he).served_iff e.2).mpr (h e he)
    · intro e he key fact hget
      obtain ⟨rest, hrest⟩ := run.since he
      have hkept := hrest.preserves (P := fun v => Inv v ∧ v.facts.get? key = some fact) ⟨hbefore e he, hget⟩
        fun a l b hab hstep => ⟨inv_step hab.1 hstep, facts_stay hab.1 hstep hab.2⟩
      exact hkept.2
    · exact (run.preserves inv_empty fun _ _ _ h hstep => inv_step h hstep).unique
    · intro budget senderId targetActorId hone
      have hrun : Transition.Run (fun a l b => Step a l b ∧ OneBudget budget targetActorId l) Stores.empty trace s :=
        Transition.Run.restrict_iff.mpr ⟨run, hone⟩
      have hkept := hrun.preserves
        (P := fun v => Inv v ∧ WithinBudget budget (pairRows v.debits senderId targetActorId))
        ⟨inv_empty, withinBudget_nil budget⟩
        fun a l b hab hstep => ⟨inv_step hab.1 hstep.1, withinBudget_step hab.1 hstep.1 hstep.2 hab.2⟩
      exact hkept.2

section SendSample

def sampleBudget : SocialBudget where
  targetActorId := "ann"
  maxPerWindow := 3
  windowMs := 1000
  cooldownMs := 0
  classCaps := none
  quietHours := none
  doNotContact := false
  expiresAt := none

def sampleAttempt (now : ℚ) (crash : Crash) : Attempt where
  send :=
    { input := ⟨"m", "s", "ann", .fireAndForget, .parts [.text "hi"], now, none, none, false⟩
      target := ⟨"ann", "e", "slack", "U1", .bot, none⟩
      actor := rfl }
  ports := ⟨some [sampleBudget], fun _ => false⟩
  crash := crash

def sampleFact : SendAdmission := ⟨sendSignature (sampleAttempt 5 .never).send, true, .notify⟩

def sampleStores : Stores where
  facts := ⟨[(sendStreamId "m", sampleFact)]⟩
  debits := [debitRow (sampleAttempt 5 .never).send.input .notify]

lemma sample_admitted : admitSend Stores.empty (sampleAttempt 5 .never).ports (sampleAttempt 5 .never).send .never =
    (sampleStores, .admitted sampleFact) := by
  decide

/-- The retry of an admitted budgeted send with a later clock is an error of the store. -/
theorem retry_refused :
    Transition.Run Step Stores.empty
      [(Stores.empty, sampleAttempt 5 .never), (sampleStores, sampleAttempt 6 .never)] sampleStores ∧
    existingAdmission sampleStores (sampleAttempt 6 .never).send = some (.ok sampleFact) ∧
    (admitSend sampleStores (sampleAttempt 6 .never).ports (sampleAttempt 6 .never).send .never).2 =
      .storeInvariant "egress debit id gateway-send:m already identifies a different claim" ∧
    ¬ Contract [(Stores.empty, sampleAttempt 5 .never), (sampleStores, sampleAttempt 6 .never)] sampleStores := by
  have hretry : existingAdmission sampleStores (sampleAttempt 6 .never).send = some (.ok sampleFact) ∧
      admitSend sampleStores (sampleAttempt 6 .never).ports (sampleAttempt 6 .never).send .never =
        (sampleStores, .storeInvariant "egress debit id gateway-send:m already identifies a different claim") := by
    decide
  refine ⟨?_, hretry.1, congrArg Prod.snd hretry.2, ?_⟩
  · have hfirst : Step Stores.empty (sampleAttempt 5 .never) sampleStores := congrArg Prod.fst sample_admitted
    have hsecond : Step sampleStores (sampleAttempt 6 .never) sampleStores := congrArg Prod.fst hretry.2
    exact (Transition.Run.nil.snoc hfirst).snoc hsecond
  · intro h
    have hserved := (h.served (sampleStores, sampleAttempt 6 .never) (by simp)).recorded sampleFact hretry.1
    rw [show (sampleAttempt 6 .never).crash = .never from rfl, hretry.2] at hserved
    cases congrArg Prod.snd hserved

/-- A crash behind the debit, and the retry that carries its clock. -/
theorem send_admission_iff_sample :
    Contract [(Stores.empty, sampleAttempt 5 .afterDebit),
      (⟨Dict.empty, sampleStores.debits⟩, sampleAttempt 5 .never)] sampleStores := by
  have hruns : admitSend Stores.empty (sampleAttempt 5 .afterDebit).ports (sampleAttempt 5 .afterDebit).send .afterDebit =
      (⟨Dict.empty, sampleStores.debits⟩, .crashed) ∧
      admitSend ⟨Dict.empty, sampleStores.debits⟩ (sampleAttempt 5 .never).ports (sampleAttempt 5 .never).send .never =
        (sampleStores, .admitted sampleFact) := by
    decide
  have hfirst : Step Stores.empty (sampleAttempt 5 .afterDebit) ⟨Dict.empty, sampleStores.debits⟩ :=
    congrArg Prod.fst hruns.1
  have hsecond : Step ⟨Dict.empty, sampleStores.debits⟩ (sampleAttempt 5 .never) sampleStores :=
    congrArg Prod.fst hruns.2
  apply (send_admission_iff ((Transition.Run.nil.snoc hfirst).snoc hsecond)).mpr
  intro e he row hrow _ _
  simp only [nil_append, cons_append, mem_cons, not_mem_nil, or_false] at he
  rcases he with rfl | rfl
  · cases hrow
  · obtain rfl := mem_singleton.mp hrow
    rfl

end SendSample

end Egress
end OpenOmni
