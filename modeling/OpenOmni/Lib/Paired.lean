import Mathlib

/-! Two lists whose elements correspond place by place. -/
namespace List

variable {α β : Type*} {R : α → β → Prop} {as : List α} {bs : List β}

lemma exists_right_of_forall₂ (h : Forall₂ R as bs) {a : α} (ha : a ∈ as) : ∃ b ∈ bs, R a b := by
  induction h with
  | nil => cases ha
  | @cons a' b as bs hab _ ih =>
    rcases mem_cons.mp ha with rfl | ha
    · exact ⟨b, mem_cons_self, hab⟩
    · obtain ⟨b', hb', hab'⟩ := ih ha
      exact ⟨b', mem_cons_of_mem _ hb', hab'⟩

lemma exists_left_of_forall₂ (h : Forall₂ R as bs) {b : β} (hb : b ∈ bs) : ∃ a ∈ as, R a b := by
  obtain ⟨a, ha, hab⟩ := exists_right_of_forall₂ h.flip hb
  exact ⟨a, ha, hab⟩

lemma forall₂_getLast? (h : Forall₂ R as bs) :
    Option.Rel R as.getLast? bs.getLast? := by
  induction h with
  | nil => exact Option.Rel.none
  | @cons a b as bs hab hrest ih =>
    rw [getLast?_cons, getLast?_cons]
    cases has : as.getLast? with
    | none =>
      cases hbs : bs.getLast? with
      | none => exact Option.Rel.some hab
      | some b' =>
        rw [has, hbs] at ih
        cases ih
    | some a' =>
      cases hbs : bs.getLast? with
      | none =>
        rw [has, hbs] at ih
        cases ih
      | some b' =>
        rw [has, hbs] at ih
        cases ih with
        | some hlast => exact Option.Rel.some hlast

lemma filterMap_of_forall₂ {γ : Type*} {f : α → Option γ} {g : β → Option γ} (h : Forall₂ R as bs)
    (hsame : ∀ a b, R a b → f a = g b) : as.filterMap f = bs.filterMap g := by
  induction h with
  | nil => rfl
  | cons hab _ ih => rw [filterMap_cons, filterMap_cons, hsame _ _ hab, ih]

end List
