import Mathlib.Data.List.Sort

/-! Sorting a list: what a sort by key keeps of each key, and when two sorts agree. -/
namespace KeySort
open List

section Relation
variable {α : Type*} {r : α → α → Prop} [DecidableRel r]

theorem insertionSort_eq_of_perm [Std.Total r] [IsTrans α r] {l l' : List α} (hperm : l.Perm l')
    (hties : ∀ a ∈ l, ∀ b ∈ l, r a b → r b a → a = b) : l.insertionSort r = l'.insertionSort r := by
  have hsorted : (l.insertionSort r).Perm (l'.insertionSort r) :=
    ((perm_insertionSort r l).trans hperm).trans (perm_insertionSort r l').symm
  apply hsorted.eq_of_pairwise _ (pairwise_insertionSort r l) (pairwise_insertionSort r l')
  intro a b ha hb hab hba
  have hamem := (mem_insertionSort r).mp ha
  have hbmem := hperm.mem_iff.mpr ((mem_insertionSort r).mp hb)
  exact hties a hamem b hbmem hab hba

theorem insertionSort_tie {a b : α} (htie : ∀ x, r a x ↔ r b x) (hab : r a b) (l : List α) :
    (a :: b :: l).insertionSort r = ((l.insertionSort r).takeWhile fun x => ¬ r a x) ++
      a :: b :: (l.insertionSort r).dropWhile fun x => ¬ r a x := by
  have htake : (fun x => decide ¬ r b x) = fun x => decide ¬ r a x := by
    funext x
    rw [decide_eq_decide, htie x]
  have hall : ∀ x ∈ (l.insertionSort r).takeWhile (fun x => decide ¬ r a x), (decide ¬ r a x) = true :=
    all_eq_true.mp all_takeWhile
  rw [insertionSort_cons_eq_take_drop, insertionSort_cons_eq_take_drop, htake,
    takeWhile_append_of_pos hall, dropWhile_append_of_pos hall]
  simp [hab]

theorem insertionSort_swap {a b : α} (htie : ∀ x, r a x ↔ r b x) (ha : r a a) (hab : r a b) (l : List α) :
    ∃ hi lo, (a :: b :: l).insertionSort r = hi ++ a :: b :: lo ∧ (b :: a :: l).insertionSort r = hi ++ b :: a :: lo := by
  have htake : (fun x => decide ¬ r b x) = fun x => decide ¬ r a x := by
    funext x
    rw [decide_eq_decide, htie x]
  have hba : r b a := (htie a).mp ha
  refine ⟨_, _, insertionSort_tie htie hab l, ?_⟩
  rw [insertionSort_tie (fun x => (htie x).symm) hba, htake]

end Relation

variable {κ ν : Type*} [LinearOrder κ]

/-- The entries in the order of their keys; entries of one key keep their order. -/
def sorted (l : List (κ × ν)) : List (κ × ν) := l.insertionSort fun a b => a.1 ≤ b.1

def ofKey (k : κ) (l : List (κ × ν)) : List (κ × ν) := l.filter fun e => e.1 = k

lemma ofKey_orderedInsert (k : κ) (e : κ × ν) (l : List (κ × ν)) :
    ofKey k (l.orderedInsert (fun a b => a.1 ≤ b.1) e) = ofKey k (e :: l) := by
  induction l with
  | nil => rfl
  | cons b l ih =>
    rw [orderedInsert_cons]
    split
    · rfl
    · rename_i hle
      have hne : ¬ (e.1 = k ∧ b.1 = k) := by
        rintro ⟨rfl, hb⟩
        exact hle hb.ge
      unfold ofKey at ih ⊢
      by_cases he : e.1 = k
      · have hb : ¬ b.1 = k := fun hb => hne ⟨he, hb⟩
        simp only [filter_cons, he, hb, decide_true, decide_false, if_true, Bool.false_eq_true, if_false] at ih ⊢
        exact ih
      · simp only [filter_cons, he, decide_false, Bool.false_eq_true, if_false] at ih ⊢
        rw [ih]

theorem ofKey_sorted (k : κ) (l : List (κ × ν)) : ofKey k (sorted l) = ofKey k l := by
  induction l with
  | nil => rfl
  | cons e l ih =>
    change ofKey k ((sorted l).orderedInsert _ e) = _
    rw [ofKey_orderedInsert]
    unfold ofKey at ih ⊢
    rw [filter_cons, filter_cons, ih]

lemma pairwise_sorted (l : List (κ × ν)) : (sorted l).Pairwise fun a b => a.1 ≤ b.1 := by
  have : Std.Total fun a b : κ × ν => a.1 ≤ b.1 := ⟨fun a b => le_total a.1 b.1⟩
  have : IsTrans (κ × ν) fun a b => a.1 ≤ b.1 := ⟨fun _ _ _ => le_trans⟩
  exact pairwise_insertionSort _ l

lemma mem_ofKey {k : κ} {e : κ × ν} {l : List (κ × ν)} : e ∈ ofKey k l ↔ e ∈ l ∧ e.1 = k := by
  simp [ofKey]

theorem eq_of_ofKey {l l' : List (κ × ν)} (hl : l.Pairwise fun a b => a.1 ≤ b.1)
    (hl' : l'.Pairwise fun a b => a.1 ≤ b.1) (h : ∀ k, ofKey k l = ofKey k l') : l = l' := by
  induction l generalizing l' with
  | nil =>
    cases l' with
    | nil => rfl
    | cons b l' =>
      have hb : b ∈ ofKey b.1 [] := by
        rw [h b.1]
        exact mem_ofKey.mpr ⟨mem_cons_self, rfl⟩
      simp [ofKey] at hb
  | cons a l ih =>
    have ha : a ∈ l' := by
      have hmem : a ∈ ofKey a.1 l' := by
        rw [← h a.1]
        exact mem_ofKey.mpr ⟨mem_cons_self, rfl⟩
      exact (mem_ofKey.mp hmem).1
    cases l' with
    | nil => cases ha
    | cons b l' =>
      have hb : b ∈ a :: l := by
        have hmem : b ∈ ofKey b.1 (a :: l) := by
          rw [h b.1]
          exact mem_ofKey.mpr ⟨mem_cons_self, rfl⟩
        exact (mem_ofKey.mp hmem).1
      have hab : a.1 = b.1 := by
        apply le_antisymm
        · rcases mem_cons.mp hb with rfl | hb
          · exact le_rfl
          · exact (pairwise_cons.mp hl).1 b hb
        · rcases mem_cons.mp ha with rfl | ha
          · exact le_rfl
          · exact (pairwise_cons.mp hl').1 a ha
      have hhead := h a.1
      simp only [ofKey, filter_cons, ← hab, decide_true, if_true, List.cons.injEq] at hhead
      obtain ⟨rfl, htail⟩ := hhead
      have htails : ∀ k, ofKey k l = ofKey k l' := by
        intro k
        by_cases hk : a.1 = k
        · subst hk
          exact htail
        · have hk' := h k
          simpa only [ofKey, filter_cons, hk, decide_false, Bool.false_eq_true, if_false] using hk'
      rw [ih (pairwise_cons.mp hl).2 (pairwise_cons.mp hl').2 htails]

theorem sorted_eq_iff {l l' : List (κ × ν)} : sorted l = sorted l' ↔ ∀ k, ofKey k l = ofKey k l' := by
  constructor
  · intro h k
    rw [← ofKey_sorted k l, h, ofKey_sorted]
  · intro h
    apply eq_of_ofKey (pairwise_sorted l) (pairwise_sorted l')
    intro k
    rw [ofKey_sorted, ofKey_sorted, h]

end KeySort
