import Mathlib

/-! What a fold of pairwise choices keeps: where the choices go by a strict order, the element nothing beats. -/
namespace Selection
open List

variable {α : Type*} {beats : α → α → Prop} {better : α → α → α} {l l' : List α} {w w' : α}

/-- Among the members of a list, the choice takes the second where it beats the first. -/
def GoesBy (beats : α → α → Prop) (better : α → α → α) (l : List α) : Prop :=
  ∀ best ∈ l, ∀ x ∈ l, beats x best ∧ better best x = x ∨ ¬beats x best ∧ better best x = best

def Best (beats : α → α → Prop) (l : List α) (w : α) : Prop := w ∈ l ∧ ∀ y ∈ l, ¬beats y w

lemma GoesBy.mono (h : GoesBy beats better l) (hsub : ∀ x ∈ l', x ∈ l) : GoesBy beats better l' :=
  fun best hbest x hx => h best (hsub best hbest) x (hsub x hx)

lemma Best.mono (h : Best beats l w) (hsub : ∀ x ∈ l', x ∈ l) (hw : w ∈ l') : Best beats l' w :=
  ⟨hw, fun y hy => h.2 y (hsub y hy)⟩

lemma Best.eq (h : Best beats l w) (h' : Best beats l w') (htotal : ∀ x ∈ l, ∀ y ∈ l, x ≠ y → beats x y ∨ beats y x) :
    w = w' := by
  by_contra hne
  rcases htotal w h.1 w' h'.1 hne with hbeats | hbeats
  · exact h'.2 w h.1 hbeats
  · exact h.2 w' h'.1 hbeats

lemma foldl_best (hirrefl : ∀ x, ¬beats x x) (htrans : ∀ x y z, beats x y → beats y z → beats x z) (first : α)
    (rest : List α) (hgoes : GoesBy beats better (first :: rest)) :
    Best beats (first :: rest) (rest.foldl better first) := by
  induction rest using List.reverseRecOn with
  | nil =>
    refine ⟨mem_singleton.mpr rfl, fun y hy => ?_⟩
    rw [mem_singleton.mp hy]
    exact hirrefl first
  | append_singleton rest x ih =>
    have hbest := ih (hgoes.mono fun y hy => by
      rcases mem_cons.mp hy with rfl | hy
      · exact mem_cons_self
      · exact mem_cons_of_mem _ (mem_append_left _ hy))
    have hmem : rest.foldl better first ∈ first :: (rest ++ [x]) := by
      rcases mem_cons.mp hbest.1 with heq | hmem
      · rw [heq]
        exact mem_cons_self
      · exact mem_cons_of_mem _ (mem_append_left _ hmem)
    have hlast : x ∈ first :: (rest ++ [x]) := mem_cons_of_mem _ (mem_append_right _ (mem_singleton.mpr rfl))
    have hcases : ∀ y ∈ first :: (rest ++ [x]), y ∈ first :: rest ∨ y = x := by
      intro y hy
      simp only [mem_cons, mem_append, not_mem_nil, or_false] at hy ⊢
      tauto
    rw [foldl_append, foldl_cons, foldl_nil]
    rcases hgoes _ hmem x hlast with ⟨hbeats, hnew⟩ | ⟨hbeats, hold⟩
    · rw [hnew]
      refine ⟨hlast, fun y hy hy' => ?_⟩
      rcases hcases y hy with hy | rfl
      · exact hbest.2 y hy (htrans y x _ hy' hbeats)
      · exact hirrefl y hy'
    · rw [hold]
      refine ⟨hmem, fun y hy => ?_⟩
      rcases hcases y hy with hy | rfl
      · exact hbest.2 y hy
      · exact hbeats

end Selection
