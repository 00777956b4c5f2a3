import Mathlib.Data.List.Basic

/-! Programs over a state that may be cut off anywhere, and the rules for what they leave behind. -/
namespace Cutoff

abbrev Program (σ α : Type) := StateT σ (Except σ) α

variable {σ α β γ : Type}

def lost : Program σ α := fun s => .error s

def view (f : σ → α) : Program σ α := fun s => .ok (f s, s)

/-- Run from the state, the program comes back in `R` or is cut off in `E`. -/
def Meets (m : Program σ α) (s : σ) (R : α → σ → Prop) (E : σ → Prop) : Prop :=
  match m s with
  | .ok (a, s') => R a s'
  | .error s' => E s'

variable {m : Program σ α} {s : σ} {R R' : α → σ → Prop} {S : β → σ → Prop} {E : σ → Prop}

variable {a : α} {f : α → Program σ β} {s' : σ}

lemma Meets.pure (h : R a s) : Meets (Pure.pure a : Program σ α) s R E := h

lemma Meets.lost (h : E s) : Meets (Cutoff.lost : Program σ α) s R E := h

lemma Meets.bind (h : Meets m s (fun a s' => Meets (f a) s' S E) E) : Meets (m >>= f) s S E := by
  unfold Meets at h ⊢
  rw [show (m >>= f) s = (m s >>= fun p => f p.1 p.2) from rfl]
  cases hm : m s with
  | error s' | ok p => simpa [hm, Bind.bind, Except.bind] using h

lemma Meets.view {g : σ → α} (h : Meets (f (g s)) s S E) : Meets (Cutoff.view g >>= f) s S E := h

lemma Meets.mono (h : Meets m s R E) (hR : ∀ a s', R a s' → R' a s') : Meets m s R' E := by
  unfold Meets at h ⊢
  split at h
  · exact hR _ _ h
  · exact h

theorem Meets.foldlM {I : List γ → β → σ → Prop} {visit : β → γ → Program σ β}
    (hvisit : ∀ x xs b s, I (x :: xs) b s → Meets (visit b x) s (I xs) E) :
    ∀ (xs : List γ) (b : β) (s : σ), I xs b s → Meets (xs.foldlM visit b) s (I []) E
  | [], _, _, h => h
  | x :: xs, b, s, h => by
    rw [List.foldlM_cons]
    exact Meets.bind ((hvisit x xs b s h).mono fun b' s' h' => Meets.foldlM hvisit xs b' s' h')

theorem Meets.of_ok (h : Meets m s R E) (hm : m s = .ok (a, s')) : R a s' := by
  simpa [Meets, hm] using h

lemma Meets.of_error (h : Meets m s R E) (hm : m s = .error s') : E s' := by
  simpa [Meets, hm] using h

end Cutoff
