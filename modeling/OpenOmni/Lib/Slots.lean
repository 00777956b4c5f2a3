import Mathlib.Data.List.Basic

/-! Lists as numbered slots: what replacing one slot, or adding one, does to the others. -/
namespace Slots
open List

variable {α : Type*} {l : List α} {i : ℕ} {a : α}

lemma get?_set (h : l[i]? = some a) (b : α) (j : ℕ) : (l.set i b)[j]? = if j = i then some b else l[j]? := by
  obtain ⟨hi, -⟩ := List.getElem?_eq_some_iff.mp h
  rw [getElem?_set]
  by_cases hij : j = i
  · subst hij
    rw [if_pos rfl, if_pos hi, if_pos rfl]
  · rw [if_neg fun heq => hij heq.symm, if_neg hij]

theorem set_cases (h : l[i]? = some a) {b c : α} {j : ℕ} (hc : (l.set i b)[j]? = some c) :
    j = i ∧ c = b ∨ j ≠ i ∧ l[j]? = some c := by
  rw [get?_set h] at hc
  split at hc
  · rename_i hj
    exact .inl ⟨hj, (Option.some.inj hc).symm⟩
  · rename_i hj
    exact .inr ⟨hj, hc⟩

lemma get?_append (h : l[i]? = some a) (b : α) : (l ++ [b])[i]? = some a := by
  obtain ⟨hi, -⟩ := List.getElem?_eq_some_iff.mp h
  rw [getElem?_append_left hi, h]

theorem append_cases {b c : α} {j : ℕ} (hc : (l ++ [b])[j]? = some c) : l[j]? = some c ∨ j = l.length ∧ c = b := by
  rcases Nat.lt_or_ge j l.length with hj | hj
  · rw [getElem?_append_left hj] at hc
    exact .inl hc
  · rw [getElem?_append_right hj] at hc
    obtain ⟨hlt, hval⟩ := List.getElem?_eq_some_iff.mp hc
    rw [length_singleton] at hlt
    have hzero : j - l.length = 0 := by omega
    refine .inr ⟨by omega, ?_⟩
    simpa [hzero] using hval.symm

theorem countP_set (p : α → Bool) (h : l[i]? = some a) (b : α) :
    (l.set i b).countP p + (if p a then 1 else 0) = l.countP p + if p b then 1 else 0 := by
  induction l generalizing i with
  | nil => simp at h
  | cons c l ih =>
    cases i with
    | zero =>
      obtain rfl : c = a := by simpa using h
      rw [set_cons_zero, countP_cons, countP_cons]
      omega
    | succ i =>
      have htail := ih (by simpa using h)
      rw [set_cons_succ, countP_cons, countP_cons]
      omega

end Slots
