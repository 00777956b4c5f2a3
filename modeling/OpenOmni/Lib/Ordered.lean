import Mathlib.Data.List.Nodup

/-! Finite sets that list their members in the order of insertion. -/
namespace Ordered
open List

variable {α : Type*} [DecidableEq α]

def add (l : List α) (a : α) : List α := if a ∈ l then l else l ++ [a]

def ofList (l : List α) : List α := l.foldl add []

variable {l acc part : List α} {b : α}

lemma nodup_add (h : l.Nodup) (a : α) : (add l a).Nodup := by
  unfold add
  split
  · exact h
  · rename_i ha
    rw [nodup_append]
    refine ⟨h, nodup_singleton a, ?_⟩
    rintro b hb c hc rfl
    rw [mem_singleton] at hc
    exact ha (hc ▸ hb)

lemma mem_add {a : α} : b ∈ add l a ↔ b ∈ l ∨ b = a := by
  unfold add
  split
  · rename_i ha
    constructor
    · exact Or.inl
    · rintro (hb | rfl)
      · exact hb
      · exact ha
  · simp

lemma nodup_foldl_add (h : acc.Nodup) : (l.foldl add acc).Nodup := by
  induction l generalizing acc with
  | nil => exact h
  | cons a l ih => exact ih (nodup_add h a)

lemma mem_foldl_add : b ∈ l.foldl add acc ↔ b ∈ acc ∨ b ∈ l := by
  induction l generalizing acc with
  | nil => simp
  | cons a l ih =>
    rw [foldl_cons, ih, mem_add, mem_cons, or_assoc]

lemma mem_ofList : b ∈ ofList l ↔ b ∈ l := by
  unfold ofList
  rw [mem_foldl_add]
  simp

lemma nodup_ofList (l : List α) : (ofList l).Nodup := nodup_foldl_add nodup_nil

end Ordered
