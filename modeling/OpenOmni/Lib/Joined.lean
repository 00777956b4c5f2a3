import Mathlib.Data.List.Basic

/-! Words joined by one separator, and what the joined text still says about them. -/
namespace Joined
open List

variable {α : Type*} [BEq α] [LawfulBEq α]

/-- What the words of a list come apart into at the separators they hold themselves. -/
def pieces (sep : α) (words : List (List α)) : List (List α) := words.flatMap (List.splitOn sep)

variable {words : List (List α)} {word : List α} {sep : α}

lemma splitOn_intercalate_eq_pieces (sep : α) (h : words ≠ []) :
    ([sep].intercalate words).splitOn sep = pieces sep words := by
  induction words with
  | nil => exact absurd rfl h
  | cons word words ih =>
    cases words with
    | nil => simp [pieces]
    | cons next rest =>
      have hrest := ih (cons_ne_nil next rest)
      rw [intercalate_cons_cons, append_assoc, singleton_append,
        splitOn_append_cons_self, hrest]
      simp [pieces]

theorem intercalate_eq_iff (sep : α) {words' : List (List α)} (h : words ≠ []) (h' : words' ≠ []) :
    [sep].intercalate words = [sep].intercalate words' ↔ pieces sep words = pieces sep words' := by
  rw [← splitOn_intercalate_eq_pieces sep h, ← splitOn_intercalate_eq_pieces sep h']
  constructor
  · intro heq
    rw [heq]
  · intro heq
    have hjoin := congrArg (List.intercalate [sep]) heq
    rwa [intercalate_splitOn, intercalate_splitOn] at hjoin

theorem pieces_of_not_mem (sep : α) (h : ∀ word ∈ words, sep ∉ word) : pieces sep words = words := by
  induction words with
  | nil => rfl
  | cons word words ih =>
    have hword : word.splitOn sep = [word] := splitOn_eq_singleton (h word mem_cons_self)
    have hwords := ih fun w hw => h w (mem_cons_of_mem _ hw)
    simp only [pieces, flatMap_cons] at hwords ⊢
    rw [hword, hwords, singleton_append]

end Joined
