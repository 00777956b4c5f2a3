import OpenOmni.Loop.Recovery

/-! The rows a turn's operations write, and what holds of them wherever the process is lost. -/
namespace OpenOmni
open List

open PlainValue

def isIntent (a : Node) : Bool := operationKinds.contains a.kind && extractIs a.intent "phase" "intent"

/-- An attempt of a model operation, which stands under that operation's row. -/
def isAttempt (rows : List Node) (b : Node) : Prop :=
  b.kind = .llm ∧ isIntent b ∧ ∃ a ∈ rows, b.parentId = some a.id ∧ a.kind = .llm

instance (rows : List Node) (b : Node) : Decidable (isAttempt rows b) :=
  inferInstanceAs (Decidable (_ ∧ _ ∧ _))

def operationResults (rows : List Node) (a : Node) : List Node :=
  rows.filter fun r => r.parentId = some a.id && r.kind = a.kind && extractIs r.intent "phase" "result"

def attemptOf (a b : Node) : Prop := b.parentId = some a.id ∧ b.kind = .llm ∧ isIntent b

instance (a b : Node) : Decidable (attemptOf a b) := inferInstanceAs (Decidable (_ ∧ _ ∧ _))

def AttemptDone (rows : List Node) (b : Node) : Prop :=
  operationResults rows b ≠ [] ∧ ∀ r ∈ operationResults rows b, ¬ extractIs r.effect "terminal" "interrupted"

/-- The ways an operation ends: what `Outcome` names, and `interrupted`. -/
def terminals : List String := "interrupted" :: outcomes

def hasTerminal (r : Node) : Bool := terminals.any (extractIs r.effect "terminal")

/-- What the writers of a turn append: intents of `stageIntent`, attempts of `admitAttempt`, policy
decisions, boundary and application rows, one result per intent, and rows of other kinds. -/
inductive Write (rows : List Node) (a : Append) : Prop where
  | operation (hkind : operationKinds.contains a.kind) (hphase : extractIs a.intent "phase" "intent")
      (hpending : extractIs a.effect "phase" "pending")
      (hparent : a.parentId = none ∨ ∃ r ∈ rows, a.parentId = some r.id ∧ r.kind ≠ .llm)
  | attempt (r : Node) (hmem : r ∈ rows) (hkind : a.kind = .llm) (hphase : extractIs a.intent "phase" "intent")
      (hpending : extractIs a.effect "phase" "pending") (hparent : a.parentId = some r.id)
      (hoperation : r.kind = .llm ∧ isIntent r ∧ ¬ isAttempt rows r)
      (hturn : a.intent.get? "turnId" = none) (hrecovery : a.intent.get? "recovery" = none)
  | decision (hkind : a.kind = .policyDecision)
      (hparent : a.parentId = none ∨ ∃ r ∈ rows, a.parentId = some r.id ∧ ¬ isAttempt rows r)
      (heffect : extractIs a.effect "phase" "result")
  | evidence (hkind : operationKinds.contains a.kind) (hphase : ¬ extractIs a.intent "phase" "intent")
      (hresult : ¬ extractIs a.intent "phase" "result") (heffect : ¬ extractIs a.effect "phase" "result")
  | result (r : Node) (hmem : r ∈ rows) (hparent : a.parentId = some r.id) (hkind : a.kind = r.kind)
      (hintent : isIntent r) (hphase : extractIs a.intent "phase" "result")
      (heffect : extractIs a.effect "phase" "result") (hterminal : terminals.any (extractIs a.effect "terminal"))
      (hfirst : operationResults rows r = [])
  | other (hkind : ¬ operationKinds.contains a.kind) (hdecision : a.kind ≠ .policyDecision)
      (heffect : a.kind = .foldCheckpoint ∨ ¬ extractIs a.effect "phase" "result")

inductive Written : List Node → Prop where
  | nil : Written []
  | snoc {rows : List Node} {a : Append} : Written rows → (∀ r ∈ rows, r.id ≠ a.id) → Write rows a →
      Written (rows ++ [⟨a, rows.length + 1⟩])

structure Leaves (turnId : String) (rows : List Node) : Prop where
  written : Written rows
  turn : ∃ r ∈ rows, r.id = turnId ∧ r.kind = .turn

structure TurnLedger (rows : List Node) : Prop where
  ordinals : rows.map (·.ordinal) = List.range' 1 rows.length
  ids : (rows.map (·.id)).Nodup
  one : ∀ a ∈ rows, isIntent a → (operationResults rows a).length ≤ 1
  result : ∀ r ∈ rows, r.kind ≠ .foldCheckpoint → extractIs r.effect "phase" "result" →
    r.kind = .policyDecision ∨ ∃ a ∈ rows, r.parentId = some a.id ∧ isIntent a ∧ r.kind = a.kind ∧
      extractIs r.intent "phase" "result" ∧ hasTerminal r
  own : ∀ r ∈ rows, operationKinds.contains r.kind → extractIs r.intent "phase" "result" →
    extractIs r.effect "phase" "result"
  attempt : ∀ b ∈ rows, isAttempt rows b → b.intent.get? "turnId" = none ∧ b.intent.get? "recovery" = none ∧
    ∀ a ∈ rows, b.parentId = some a.id → isIntent a ∧ ¬ isAttempt rows a
  decision : ∀ r ∈ rows, r.kind = .policyDecision → ∀ b ∈ rows, isAttempt rows b → r.parentId ≠ some b.id
  parents : ∀ r ∈ rows, isIntent r ∨ r.kind = .policyDecision →
    r.parentId = none ∨ ∃ a ∈ rows, r.parentId = some a.id
  decided : ∀ r ∈ rows, r.kind = .policyDecision → extractIs r.effect "phase" "result"

lemma extractIs_inj {v : PlainValue} {key s t : String} (hs : extractIs v key s) (ht : extractIs v key t) :
    s = t := by
  simp only [extractIs, decide_eq_true_eq] at hs ht
  rw [hs] at ht
  simpa using ht

lemma operationResults_concat (rows : List Node) (n a : Node) :
    operationResults (rows ++ [n]) a = operationResults rows a ++
      if n.parentId = some a.id ∧ n.kind = a.kind ∧ extractIs n.intent "phase" "result" then [n] else [] := by
  unfold operationResults
  rw [filter_append]
  by_cases h : n.parentId = some a.id ∧ n.kind = a.kind ∧ extractIs n.intent "phase" "result"
  · simp [h]
  · rw [if_neg h, filter_cons_of_neg (by simpa using h), filter_nil]

structure IsResult (rows : List Node) (a : Append) (r : Node) : Prop where
  mem : r ∈ rows
  parent : a.parentId = some r.id
  kind : a.kind = r.kind
  intent : isIntent r
  phase : extractIs a.intent "phase" "result"
  effect : extractIs a.effect "phase" "result"
  terminal : terminals.any (extractIs a.effect "terminal")
  first : operationResults rows r = []

lemma not_operation_of_decision {k : Kind} (h : k = .policyDecision) : ¬ operationKinds.contains k := by
  subst h
  decide

section
variable {rows : List Node} {a : Append}

theorem Write.isResult (h : Write rows a) (hkind : a.kind ≠ .foldCheckpoint) (hdecision : a.kind ≠ .policyDecision)
    (heffect : extractIs a.effect "phase" "result") : ∃ r, IsResult rows a r := by
  cases h with
  | operation _ _ hpending _ | attempt _ _ _ _ hpending => exact absurd (extractIs_inj heffect hpending) (by decide)
  | decision hpolicy => exact absurd hpolicy hdecision
  | evidence _ _ _ hnot => exact absurd heffect hnot
  | result r hmem hparent hkind hintent hphase heffect hterminal hfirst =>
    exact ⟨r, hmem, hparent, hkind, hintent, hphase, heffect, hterminal, hfirst⟩
  | other _ _ hnot => exact absurd heffect (hnot.resolve_left hkind)

lemma Write.isResult_of_phase (h : Write rows a) (hkind : operationKinds.contains a.kind)
    (hphase : extractIs a.intent "phase" "result") : ∃ r, IsResult rows a r := by
  cases h with
  | operation _ hintent | attempt _ _ _ hintent => exact absurd (extractIs_inj hphase hintent) (by decide)
  | decision hpolicy => exact absurd hkind (not_operation_of_decision hpolicy)
  | evidence _ _ hnot => exact absurd hphase hnot
  | result r hmem hparent hkind hintent hphase heffect hterminal hfirst =>
    exact ⟨r, hmem, hparent, hkind, hintent, hphase, heffect, hterminal, hfirst⟩
  | other hnot => exact absurd hkind hnot

theorem Write.intent_parent (h : Write rows a) (hkind : operationKinds.contains a.kind)
    (hphase : extractIs a.intent "phase" "intent") :
    (a.parentId = none ∨ ∃ r ∈ rows, a.parentId = some r.id ∧ r.kind ≠ .llm) ∨
      (∃ r ∈ rows, a.parentId = some r.id ∧ isIntent r ∧ ¬ isAttempt rows r) ∧
        a.intent.get? "turnId" = none ∧ a.intent.get? "recovery" = none := by
  cases h with
  | operation _ _ _ hparent => exact Or.inl hparent
  | attempt r hmem _ _ _ hparent hoperation hturn hrecovery =>
    exact Or.inr ⟨⟨r, hmem, hparent, hoperation.2⟩, hturn, hrecovery⟩
  | decision hpolicy => exact absurd hkind (not_operation_of_decision hpolicy)
  | evidence _ hnot => exact absurd hphase hnot
  | result _ _ _ _ _ hresult => exact absurd (extractIs_inj hphase hresult) (by decide)
  | other hnot => exact absurd hkind hnot

lemma Write.decision_effect (h : Write rows a) (hkind : a.kind = .policyDecision) :
    extractIs a.effect "phase" "result" := by
  have hnot := not_operation_of_decision hkind
  cases h with
  | operation hop | evidence hop => exact absurd hop hnot
  | attempt _ _ hllm => simp [hkind] at hllm
  | decision _ _ heffect | result r _ _ _ _ _ heffect => exact heffect
  | other _ hdecision => exact absurd hkind hdecision

lemma Write.decision_parent (h : Write rows a) (hkind : a.kind = .policyDecision) :
    a.parentId = none ∨ ∃ r ∈ rows, a.parentId = some r.id ∧ ¬ isAttempt rows r := by
  have hnot := not_operation_of_decision hkind
  cases h with
  | operation hop | evidence hop => exact absurd hop hnot
  | attempt _ _ hllm => simp [hkind] at hllm
  | decision _ hparent => exact hparent
  | result r _ _ hsame hintent =>
    have hop : operationKinds.contains r.kind := by
      simp only [isIntent, Bool.and_eq_true] at hintent
      exact hintent.1
    exact absurd (hsame ▸ hop) hnot
  | other _ hpolicy => exact absurd hkind hpolicy

variable {p c n : Node}

lemma IsResult.write (h : IsResult rows a p) : Write rows a :=
  .result p h.mem h.parent h.kind h.intent h.phase h.effect h.terminal h.first

lemma IsResult.operationKind (h : IsResult rows a p) : operationKinds.contains a.kind := by
  have hintent := h.intent
  simp only [isIntent, Bool.and_eq_true] at hintent
  rw [h.kind]
  exact hintent.1

theorem IsResult.not_intent (h : IsResult rows a p) (ordinal : ℕ) : ¬ isIntent ⟨a, ordinal⟩ := by
  intro hintent
  simp only [isIntent, Bool.and_eq_true] at hintent
  exact absurd (extractIs_inj h.phase hintent.2) (by decide)

lemma IsResult.operationResults_eq (hp : IsResult rows a p) (hids : (rows.map (·.id)).Nodup) (hc : c ∈ rows) :
    operationResults (rows ++ [⟨a, rows.length + 1⟩]) c =
      operationResults rows c ++ if c = p then [⟨a, rows.length + 1⟩] else [] := by
  rw [operationResults_concat]
  by_cases heq : c = p
  · subst heq
    simp [hp.parent, hp.kind, hp.phase]
  · have hparent : a.parentId ≠ some c.id := by
      rw [hp.parent]
      intro hid
      exact heq (inj_on_of_nodup_map hids hc hp.mem (Option.some.inj hid).symm)
    simp [heq, hparent]

lemma isIntent_of_turnOperation {turnId : String} (h : turnOperation rows turnId c) : isIntent c := by
  simp only [turnOperation, Bool.and_eq_true] at h
  simp only [isIntent, Bool.and_eq_true]
  exact h.1

theorem Write.parent_mem (h : Write rows a) (n : Node) (hn : n.toAppend = a)
    (hrow : isIntent n ∨ n.kind = .policyDecision) :
    n.parentId = none ∨ ∃ r ∈ rows, n.parentId = some r.id := by
  subst hn
  rcases hrow with hintent | hdecision
  · simp only [isIntent, Bool.and_eq_true] at hintent
    rcases h.intent_parent hintent.1 hintent.2 with (hnone | ⟨r, hr, hparent, -⟩) | ⟨⟨r, hr, hparent, -⟩, -⟩
    · exact Or.inl hnone
    · exact Or.inr ⟨r, hr, hparent⟩
    · exact Or.inr ⟨r, hr, hparent⟩
  · rcases h.decision_parent hdecision with hnone | ⟨r, hr, hparent, -⟩
    · exact Or.inl hnone
    · exact Or.inr ⟨r, hr, hparent⟩

lemma TurnLedger.isAttempt_concat (h : TurnLedger rows) {b : Node} (hfresh : ∀ r ∈ rows, r.id ≠ n.id)
    (hb : b ∈ rows) : isAttempt (rows ++ [n]) b ↔ isAttempt rows b := by
  constructor
  · rintro ⟨hkind, hintent, r, hr, hparent, hllm⟩
    rcases mem_append.mp hr with hr | hr
    · exact ⟨hkind, hintent, r, hr, hparent, hllm⟩
    · -- its parent was there before it, so it is not the new row
      obtain rfl := mem_singleton.mp hr
      rcases h.parents b hb (Or.inl hintent) with hnone | ⟨q, hq, hqparent⟩
      · simp [hnone] at hparent
      · rw [hparent] at hqparent
        exact absurd (Option.some.inj hqparent).symm (hfresh q hq)
  · rintro ⟨hkind, hintent, r, hr, hparent, hllm⟩
    exact ⟨hkind, hintent, r, mem_append_left _ hr, hparent, hllm⟩

theorem TurnLedger.operationResults_fresh (h : TurnLedger rows) (hn : isIntent n) (hfresh : ∀ r ∈ rows, r.id ≠ n.id) :
    operationResults rows n = [] := by
  rw [operationResults, filter_eq_nil_iff]
  intro r hr hmatch
  simp only [Bool.and_eq_true, decide_eq_true_eq] at hmatch
  obtain ⟨⟨hparent, hkind⟩, hphase⟩ := hmatch
  simp only [isIntent, Bool.and_eq_true] at hn
  have hop : operationKinds.contains r.kind := hkind ▸ hn.1
  have heffect := h.own r hr hop hphase
  have hcheckpoint : r.kind ≠ .foldCheckpoint := by
    intro heq
    rw [heq] at hop
    exact absurd hop (by decide)
  rcases h.result r hr hcheckpoint heffect with hpolicy | ⟨q, hq, hqparent, -⟩
  · exact not_operation_of_decision hpolicy hop
  · rw [hparent] at hqparent
    exact hfresh q hq (Option.some.inj hqparent).symm

lemma TurnLedger.snoc (h : TurnLedger rows) (hfresh : ∀ r ∈ rows, r.id ≠ a.id) (hwrite : Write rows a) :
    TurnLedger (rows ++ [⟨a, rows.length + 1⟩]) := by
  have hattempt : ∀ b ∈ rows, isAttempt (rows ++ [⟨a, rows.length + 1⟩]) b ↔ isAttempt rows b :=
    fun b hb => h.isAttempt_concat hfresh hb
  constructor
  · simp only [map_append, map_cons, map_nil, h.ordinals, length_append, length_singleton]
    rw [range'_concat]
    simp [Nat.add_comm]
  · rw [map_append, nodup_append]
    refine ⟨h.ids, by simp, ?_⟩
    intro id hid other hother
    obtain ⟨r, hr, rfl⟩ := mem_map.mp hid
    have hother : other = a.id := by simpa using hother
    rw [hother]
    exact hfresh r hr
  · intro b hb hintent
    rw [operationResults_concat]
    rcases mem_append.mp hb with hb | hb
    · split
      · rename_i hunder
        have hop : operationKinds.contains a.kind := by
          simp only [isIntent, Bool.and_eq_true] at hintent
          exact hunder.2.1 ▸ hintent.1
        obtain ⟨r, hr⟩ := hwrite.isResult_of_phase hop hunder.2.2
        have hid : b.id = r.id := Option.some.inj (hunder.1.symm.trans hr.parent)
        have hsame : b = r := inj_on_of_nodup_map h.ids hb hr.mem hid
        simp [hsame, hr.first]
      · simpa using h.one b hb hintent
    · obtain rfl := mem_singleton.mp hb
      rw [h.operationResults_fresh hintent hfresh]
      split <;> simp
  · intro r hr hcheckpoint heffect
    rcases mem_append.mp hr with hr | hr
    · rcases h.result r hr hcheckpoint heffect with hpolicy | ⟨b, hb, hrow⟩
      · exact Or.inl hpolicy
      · exact Or.inr ⟨b, mem_append_left _ hb, hrow⟩
    · obtain rfl := mem_singleton.mp hr
      by_cases hpolicy : a.kind = .policyDecision
      · exact Or.inl hpolicy
      · obtain ⟨b, hb⟩ := hwrite.isResult hcheckpoint hpolicy heffect
        exact Or.inr ⟨b, mem_append_left _ hb.mem, hb.parent, hb.intent, hb.kind, hb.phase, hb.terminal⟩
  · intro r hr hop hphase
    rcases mem_append.mp hr with hr | hr
    · exact h.own r hr hop hphase
    · obtain rfl := mem_singleton.mp hr
      obtain ⟨b, hb⟩ := hwrite.isResult_of_phase hop hphase
      exact hb.effect
  · intro b hb hatt
    rcases mem_append.mp hb with hb | hb
    · obtain ⟨hturn, hrecovery, hparent⟩ := h.attempt b hb ((hattempt b hb).mp hatt)
      refine ⟨hturn, hrecovery, fun q hq hqparent => ?_⟩
      rcases mem_append.mp hq with hq | hq
      · rw [hattempt q hq]
        exact hparent q hq hqparent
      · obtain rfl := mem_singleton.mp hq
        rcases h.parents b hb (Or.inl hatt.2.1) with hnone | ⟨p, hp, hpparent⟩
        · simp [hnone] at hqparent
        · rw [hqparent] at hpparent
          exact absurd (Option.some.inj hpparent).symm (hfresh p hp)
    · obtain rfl := mem_singleton.mp hb
      obtain ⟨hkind, hintent, q, hq, hqparent, hllm⟩ := hatt
      have hmem : ∀ q ∈ rows ++ [⟨a, rows.length + 1⟩], a.parentId = some q.id → ∀ r ∈ rows,
          a.parentId = some r.id → q = r := by
        intro q hq hqparent r hr hrparent
        have hid : q.id = r.id := Option.mem_unique hqparent hrparent
        rcases mem_append.mp hq with hq | hq
        · exact inj_on_of_nodup_map h.ids hq hr hid
        · obtain rfl := mem_singleton.mp hq
          exact absurd hid.symm (hfresh r hr)
      simp only [isIntent, Bool.and_eq_true] at hintent
      rcases hwrite.intent_parent hintent.1 hintent.2 with
        (hnone | ⟨r, hr, hparent, hne⟩) | ⟨⟨r, hr, hparent, hoperation, hnot⟩, hturn, hrecovery⟩
      · simp [hnone] at hqparent
      · rw [hmem q hq hqparent r hr hparent] at hllm
        exact absurd hllm hne
      · refine ⟨hturn, hrecovery, fun p hp hpparent => ?_⟩
        rw [hmem p hp hpparent r hr hparent, hattempt r hr]
        exact ⟨hoperation, hnot⟩
  · intro r hr hpolicy b hb hatt hparent
    rcases mem_append.mp hb with hb | hb
    · rw [hattempt b hb] at hatt
      rcases mem_append.mp hr with hr | hr
      · exact h.decision r hr hpolicy b hb hatt hparent
      · obtain rfl := mem_singleton.mp hr
        rcases hwrite.decision_parent hpolicy with hnone | ⟨q, hq, hqparent, hnot⟩
        · simp [hnone] at hparent
        · have hid : q.id = b.id := Option.mem_unique hqparent hparent
          rw [inj_on_of_nodup_map h.ids hq hb hid] at hnot
          exact hnot hatt
    · obtain rfl := mem_singleton.mp hb
      rcases mem_append.mp hr with hr | hr
      · rcases h.parents r hr (Or.inr hpolicy) with hnone | ⟨q, hq, hqparent⟩
        · simp [hnone] at hparent
        · rw [hparent] at hqparent
          exact hfresh q hq (Option.some.inj hqparent).symm
      · -- a decision is no attempt
        obtain rfl := mem_singleton.mp hr
        have hllm : a.kind = .llm := hatt.1
        rw [hllm] at hpolicy
        cases hpolicy
  · intro r hr hrow
    rcases mem_append.mp hr with hr | hr
    · rcases h.parents r hr hrow with hnone | ⟨q, hq, hqparent⟩
      · exact Or.inl hnone
      · exact Or.inr ⟨q, mem_append_left _ hq, hqparent⟩
    · obtain rfl := mem_singleton.mp hr
      rcases hwrite.parent_mem _ rfl hrow with hnone | ⟨q, hq, hqparent⟩
      · exact Or.inl hnone
      · exact Or.inr ⟨q, mem_append_left _ hq, hqparent⟩
  · intro r hr hpolicy
    rcases mem_append.mp hr with hr | hr
    · exact h.decided r hr hpolicy
    · obtain rfl := mem_singleton.mp hr
      exact hwrite.decision_effect hpolicy

end

lemma Written.ledger {rows : List Node} (h : Written rows) : TurnLedger rows := by
  induction h with
  | nil => exact ⟨rfl, by simp, by simp, by simp, by simp, by simp, by simp, by simp, by simp⟩
  | snoc _ hfresh hwrite ih => exact ih.snoc hfresh hwrite

section
variable {rows : List Node} {b : Node}

/-- The rows that `resultFor` looks at. -/
def resultsUnder (rows : List Node) (id : String) : List Node :=
  rows.filter fun r => r.parentId = some id && r.kind ≠ .foldCheckpoint && extractIs r.effect "phase" "result"

theorem TurnLedger.resultsUnder_eq (h : TurnLedger rows) (hb : b ∈ rows) (hattempt : isAttempt rows b) :
    resultsUnder rows b.id = operationResults rows b := by
  apply filter_congr
  intro r hr
  rw [Bool.eq_iff_iff]
  simp only [Bool.and_eq_true, decide_eq_true_eq]
  constructor
  · rintro ⟨⟨hparent, hcheckpoint⟩, heffect⟩
    rcases h.result r hr hcheckpoint heffect with hpolicy | ⟨a, ha, haparent, -, hkind, hphase, -⟩
    · exact absurd hparent (h.decision r hr hpolicy b hb hattempt)
    · have hid : a.id = b.id := Option.mem_unique haparent hparent
      rw [inj_on_of_nodup_map h.ids ha hb hid] at hkind
      exact ⟨⟨hparent, hkind⟩, hphase⟩
  · rintro ⟨⟨hparent, hkind⟩, hphase⟩
    have hintent := hattempt.2.1
    simp only [isIntent, Bool.and_eq_true] at hintent
    have hop : operationKinds.contains r.kind := hkind ▸ hintent.1
    refine ⟨⟨hparent, ?_⟩, h.own r hr hop hphase⟩
    intro heq
    rw [heq] at hop
    exact absurd hop (by decide)

lemma actionRow_of_mem (hids : (rows.map (·.id)).Nodup) (hb : b ∈ rows) : actionRow rows b.id = some b := by
  cases hfind : rows.find? (·.id = b.id) with
  | none =>
    have hnone := find?_eq_none.mp hfind b hb
    simp at hnone
  | some c =>
    have hid : c.id = b.id := by simpa using find?_some hfind
    rw [actionRow, hfind, inj_on_of_nodup_map hids (mem_of_find?_eq_some hfind) hb hid]

variable {r : Node}

lemma hasTerminal_of_result (h : TurnLedger rows) (hb : isIntent b) (hr : r ∈ operationResults rows b) :
    hasTerminal r ∧ r.kind = b.kind ∧ extractIs r.intent "phase" "result" := by
  obtain ⟨hmem, hmatch⟩ := mem_filter.mp hr
  simp only [Bool.and_eq_true, decide_eq_true_eq] at hmatch
  obtain ⟨⟨hparent, hkind⟩, hphase⟩ := hmatch
  simp only [isIntent, Bool.and_eq_true] at hb
  have hop : operationKinds.contains r.kind := hkind ▸ hb.1
  have hcheckpoint : r.kind ≠ .foldCheckpoint := by
    intro heq
    rw [heq] at hop
    exact absurd hop (by decide)
  rcases h.result r hmem hcheckpoint (h.own r hmem hop hphase) with hpolicy | ⟨-, -, -, -, -, -, hterminal⟩
  · exact absurd hop (not_operation_of_decision hpolicy)
  · exact ⟨hterminal, hkind, hphase⟩

theorem TurnLedger.resultForIn_attempt (h : TurnLedger rows) (hb : b ∈ rows) (hattempt : isAttempt rows b) :
    resultForIn rows b.id = match (operationResults rows b).getLast? with
      | none => .ok none
      | some r => if extractIs r.effect "terminal" "interrupted" then .error () else .ok (some r) := by
  have hunder := h.resultsUnder_eq hb hattempt
  unfold resultsUnder at hunder
  unfold resultForIn
  rw [hunder]
  cases hlast : (operationResults rows b).getLast? with
  | none => rfl
  | some r =>
    obtain ⟨hterminal, hkind, hphase⟩ := hasTerminal_of_result h hattempt.2.1 (mem_of_getLast? hlast)
    simp only [actionRow_of_mem h.ids hb, hkind, hphase]
    by_cases hinterrupted : extractIs r.effect "terminal" "interrupted"
    · have hnone : outcomes.any (extractIs r.effect "terminal") = false := by
        rw [any_eq_false]
        intro outcome houtcome hextract
        have heq := extractIs_inj hinterrupted hextract
        subst heq
        exact absurd houtcome (by decide)
      simp [hnone, hinterrupted]
    · have hsome : outcomes.any (extractIs r.effect "terminal") = true := by
        simpa [hasTerminal, terminals, hinterrupted] using hterminal
      simp [hsome, hinterrupted]

theorem Leaves.not_operation {turnId : String} (h : Leaves turnId rows) (hb : b ∈ rows)
    (hattempt : isAttempt rows b) : turnOperation rows turnId b = false := by
  have hledger := h.written.ledger
  obtain ⟨hturn, -, -⟩ := hledger.attempt b hb hattempt
  obtain ⟨-, -, r, hr, hparent, hllm⟩ := hattempt
  -- what stands over it is a model operation, not the turn or one of its resumes
  have hover : ∀ t ∈ rows, t.kind = .turn → b.parentId ≠ some t.id := by
    intro t ht hkind htparent
    have hid : r.id = t.id := Option.mem_unique hparent htparent
    rw [inj_on_of_nodup_map hledger.ids hr ht hid, hkind] at hllm
    cases hllm
  have hnot : b.parentId ≠ some turnId := by
    obtain ⟨t, ht, rfl, hkind⟩ := h.turn
    exact hover t ht hkind
  have hresumes : (rows.any fun r => some r.id = b.parentId && r.kind = .turn &&
      extractIs r.intent "phase" "resume" && extractIs r.intent "turnId" turnId) = false := by
    rw [any_eq_false]
    intro t ht hmatch
    simp only [Bool.and_eq_true, decide_eq_true_eq] at hmatch
    exact hover t ht hmatch.1.1.2 hmatch.1.1.1.symm
  have hid : extractIs b.intent "turnId" turnId = false := by simp [extractIs, hturn]
  unfold turnOperation
  rw [hresumes, hid]
  simp [hnot]

section
variable (h : TurnLedger rows) (hb : b ∈ rows) (hattempt : isAttempt rows b)
include h hb hattempt

lemma TurnLedger.attemptDone (hread : resultForIn rows b.id = .ok (some r)) : AttemptDone rows b := by
  have hone := h.one b hb hattempt.2.1
  rw [h.resultForIn_attempt hb hattempt] at hread
  cases hlast : (operationResults rows b).getLast? with
  | none => simp [hlast] at hread
  | some q =>
    obtain ⟨init, hinit⟩ := getLast?_eq_some_iff.mp hlast
    have hnil : init = [] := by
      rw [hinit, length_append, length_singleton] at hone
      exact eq_nil_of_length_eq_zero (by omega)
    subst hnil
    by_cases hinterrupted : extractIs q.effect "terminal" "interrupted"
    · simp [hlast, hinterrupted] at hread
    · exact ⟨by simp [hinit], by simpa [hinit] using hinterrupted⟩

lemma TurnLedger.resultForIn_none (hread : resultForIn rows b.id = .ok none) : operationResults rows b = [] := by
  rw [h.resultForIn_attempt hb hattempt] at hread
  cases hlast : (operationResults rows b).getLast? with
  | none => exact getLast?_eq_none_iff.mp hlast
  | some q =>
    by_cases hinterrupted : extractIs q.effect "terminal" "interrupted" <;> simp [hlast, hinterrupted] at hread

lemma TurnLedger.resultForIn_error (hread : resultForIn rows b.id = .error ()) :
    ∃ r ∈ operationResults rows b, extractIs r.effect "terminal" "interrupted" := by
  rw [h.resultForIn_attempt hb hattempt] at hread
  cases hlast : (operationResults rows b).getLast? with
  | none => simp [hlast] at hread
  | some q =>
    by_cases hinterrupted : extractIs q.effect "terminal" "interrupted"
    · exact ⟨q, mem_of_getLast? hlast, hinterrupted⟩
    · simp [hlast, hinterrupted] at hread

end

end

end OpenOmni
