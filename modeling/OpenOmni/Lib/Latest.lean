import Mathlib.Data.List.Basic

/-! The last item of each key of a list, and how many of these an appended batch can add. -/
namespace Latest
open List

variable {α β κ : Type*} [DecidableEq κ]

def latest (key : α → κ) : List α → List α
  | [] => []
  | a :: items => if items.any fun b => key b = key a then latest key items else a :: latest key items

variable (key : α → κ)

lemma latest_sublist (items : List α) : (latest key items).Sublist items := by
  induction items with
  | nil => exact List.Sublist.slnil
  | cons a items ih =>
    unfold latest
    split
    · exact ih.cons a
    · exact ih.cons_cons a

lemma latest_map (f : β → α) (items : List β) :
    latest key (items.map f) = (latest (fun b => key (f b)) items).map f := by
  induction items with
  | nil => rfl
  | cons b items ih =>
    have hany : ((items.map f).any fun c => decide (key c = key (f b))) =
        items.any fun c => decide (key (f c) = key (f b)) := by
      rw [any_map]
      rfl
    simp only [map_cons, latest, hany, ih]
    split <;> rfl

theorem filter_eq_latest {rank : α → ℕ} {items : List α} (h : items.Pairwise fun a b => rank a < rank b) :
    (items.filter fun a => items.all fun b => decide (key b ≠ key a) || decide (rank b ≤ rank a)) = latest key items := by
  induction items with
  | nil => rfl
  | cons a items ih =>
    obtain ⟨hfirst, hrest⟩ := pairwise_cons.mp h
    -- the first item outranks none of the rest
    have hothers : (items.filter fun c => (a :: items).all fun b => decide (key b ≠ key c) || decide (rank b ≤ rank c)) =
        latest key items := by
      rw [← ih hrest]
      apply filter_congr
      intro c hc
      have hle : decide (rank a ≤ rank c) = true := decide_eq_true (Nat.le_of_lt (hfirst c hc))
      rw [all_cons, hle, Bool.or_true, Bool.true_and]
    have hself : ((a :: items).all fun b => decide (key b ≠ key a) || decide (rank b ≤ rank a)) =
        !items.any fun b => decide (key b = key a) := by
      rw [all_cons, decide_eq_true (Nat.le_refl (rank a)), Bool.or_true, Bool.true_and, not_any_eq_all_not]
      rw [Bool.eq_iff_iff, all_eq_true, all_eq_true]
      refine forall₂_congr fun b hb => ?_
      have hnot : decide (rank b ≤ rank a) = false := decide_eq_false (Nat.not_le.mpr (hfirst b hb))
      simp [hnot]
    rw [filter_cons, hself, hothers, latest]
    cases items.any fun b => decide (key b = key a) <;> rfl

theorem countP_latest_append_le (p : α → Bool) (items more : List α) :
    (latest key (items ++ more)).countP p ≤ (latest key items).countP p + (latest key more).length := by
  induction items with
  | nil =>
    have hle := countP_le_length (p := p) (l := latest key more)
    simpa [latest] using hle
  | cons a items ih =>
    rw [cons_append, latest, latest, any_append]
    by_cases hkept : items.any (fun b => decide (key b = key a)) = true
    · rw [hkept, Bool.true_or, if_pos rfl, if_pos rfl]
      exact ih
    · rw [Bool.not_eq_true] at hkept
      rw [hkept, Bool.false_or, if_neg Bool.false_ne_true, countP_cons]
      split
      · omega
      · rw [countP_cons]
        omega

theorem length_latest_le_one {items : List α} (h : ∀ a ∈ items, ∀ b ∈ items, key a = key b) :
    (latest key items).length ≤ 1 := by
  induction items with
  | nil => exact Nat.zero_le 1
  | cons a items ih =>
    have hrest := ih fun b hb c hc => h b (mem_cons_of_mem _ hb) c (mem_cons_of_mem _ hc)
    cases items with
    | nil => exact Nat.le_refl 1
    | cons b items =>
      have hany : ((b :: items).any fun c => decide (key c = key a)) = true := by
        rw [any_cons, decide_eq_true (h b (by simp) a (by simp)), Bool.true_or]
      rw [latest, if_pos hany]
      exact hrest

end Latest
