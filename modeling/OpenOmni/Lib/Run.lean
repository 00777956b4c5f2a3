import Mathlib.Data.List.Basic

/-! Runs of a labelled transition system and the induction rules for what they preserve. -/
namespace Transition
open List

variable {σ ℓ : Type*}

/-- A finite run, with the state before each step and the label of the step. -/
inductive Run (Step : σ → ℓ → σ → Prop) (s : σ) : List (σ × ℓ) → σ → Prop where
  | nil : Run Step s [] s
  | snoc {trace : List (σ × ℓ)} {t u : σ} {l : ℓ} :
      Run Step s trace t → Step t l u → Run Step s (trace ++ [(t, l)]) u

def Reachable (Init : σ → Prop) (Step : σ → ℓ → σ → Prop) (s : σ) : Prop :=
  ∃ s₀ trace, Init s₀ ∧ Run Step s₀ trace s

variable {Step : σ → ℓ → σ → Prop} {Init P : σ → Prop} {s t : σ} {trace : List (σ × ℓ)}

theorem Run.preserves (h : Run Step s trace t) (hs : P s)
    (hstep : ∀ a l b, P a → Step a l b → P b) : P t := by
  induction h with
  | nil => exact hs
  | snoc _ step ih => exact hstep _ _ _ ih step

theorem Run.visits (h : Run Step s trace t) (hs : P s)
    (hstep : ∀ a l b, P a → Step a l b → P b) : ∀ e ∈ trace, P e.1 := by
  induction h with
  | nil => simp
  | snoc run step ih =>
    intro e he
    rcases mem_append.mp he with he | he
    · exact ih e he
    · obtain rfl := mem_singleton.mp he
      exact run.preserves hs hstep

lemma Reachable.invariant (h : Reachable Init Step s) (hinit : ∀ a, Init a → P a)
    (hstep : ∀ a l b, P a → Step a l b → P b) : P s := by
  obtain ⟨s₀, trace, hs₀, run⟩ := h
  exact run.preserves (hinit s₀ hs₀) hstep

lemma Reachable.step {l : ℓ} (h : Reachable Init Step s) (hl : Step s l t) :
    Reachable Init Step t := by
  obtain ⟨s₀, trace, hs₀, run⟩ := h
  exact ⟨s₀, _, hs₀, run.snoc hl⟩

variable {Cond : σ → ℓ → Prop} {before : List (σ × ℓ)}

theorem Run.forall_iff (h : Run Step s trace t) (hs : P s) (hstep : ∀ a l b, P a → Step a l b → (Cond a l ↔ P b)) :
    (∀ e ∈ trace, Cond e.1 e.2) ↔ (∀ e ∈ trace, P e.1) ∧ P t := by
  induction h with
  | nil => simp [hs]
  | @snoc trace t u l run step ih =>
    simp only [mem_append, mem_singleton, or_imp, forall_and, forall_eq]
    constructor
    · rintro ⟨hcond, hlast⟩
      obtain ⟨hbefore, ht⟩ := ih.mp hcond
      exact ⟨⟨hbefore, ht⟩, (hstep _ _ _ ht step).mp hlast⟩
    · rintro ⟨⟨hbefore, ht⟩, hu⟩
      exact ⟨ih.mpr ⟨hbefore, ht⟩, (hstep _ _ _ ht step).mpr hu⟩

theorem Run.forall_iff_within {I : σ → Prop} (h : Run Step s trace t) (hi : I s) (hs : P s)
    (hstep : ∀ a l b, I a → P a → Step a l b → (Cond a l → I b ∧ P b) ∧ (P b → Cond a l)) :
    (∀ e ∈ trace, Cond e.1 e.2) ↔ (∀ e ∈ trace, P e.1) ∧ P t := by
  suffices hboth : ((∀ e ∈ trace, Cond e.1 e.2) ↔ (∀ e ∈ trace, P e.1) ∧ P t) ∧
      ((∀ e ∈ trace, Cond e.1 e.2) → I t) from hboth.1
  induction h with
  | nil => simp [hs, hi]
  | @snoc trace t u l run step ih =>
    simp only [mem_append, mem_singleton, or_imp, forall_and, forall_eq]
    obtain ⟨hiff, hinv⟩ := ih
    refine ⟨⟨?_, ?_⟩, ?_⟩
    · rintro ⟨hcond, hlast⟩
      obtain ⟨hbefore, ht⟩ := hiff.mp hcond
      exact ⟨⟨hbefore, ht⟩, ((hstep _ _ _ (hinv hcond) ht step).1 hlast).2⟩
    · rintro ⟨⟨hbefore, ht⟩, hu⟩
      have hcond := hiff.mpr ⟨hbefore, ht⟩
      exact ⟨hcond, (hstep _ _ _ (hinv hcond) ht step).2 hu⟩
    · rintro ⟨hcond, hlast⟩
      exact ((hstep _ _ _ (hinv hcond) (hiff.mp hcond).2 step).1 hlast).1

theorem Run.restrict_iff : Run (fun a l b => Step a l b ∧ Cond a l) s trace t ↔
      Run Step s trace t ∧ ∀ e ∈ trace, Cond e.1 e.2 := by
  constructor
  · intro h
    induction h with
    | nil => exact ⟨.nil, by simp⟩
    | snoc _ step ih =>
      refine ⟨ih.1.snoc step.1, fun e he => ?_⟩
      rcases mem_append.mp he with he | he
      · exact ih.2 e he
      · obtain rfl := mem_singleton.mp he
        exact step.2
  · rintro ⟨h, hcond⟩
    induction h with
    | nil => exact .nil
    | snoc _ step ih =>
      refine (ih fun e he => hcond e (mem_append_left _ he)).snoc ⟨step, ?_⟩
      exact hcond _ (mem_append_right _ (mem_singleton.mpr rfl))

theorem Run.mono {Step' : σ → ℓ → σ → Prop} (h : Run Step s trace t) (hsteps : ∀ a l b, Step a l b → Step' a l b) :
    Run Step' s trace t := by
  induction h with
  | nil => exact .nil
  | snoc _ step ih => exact ih.snoc (hsteps _ _ _ step)

lemma Run.trans {u : σ} {trace' : List (σ × ℓ)} (h : Run Step s trace t)
    (h' : Run Step t trace' u) : Run Step s (trace ++ trace') u := by
  induction h' with
  | nil => simpa using h
  | snoc _ step ih => simpa [append_assoc] using ih.snoc step

theorem Run.split {after : List (σ × ℓ)} (h : Run Step s (before ++ after) t) :
    ∃ u, Run Step s before u ∧ Run Step u after t := by
  generalize hall : before ++ after = all at h
  induction h generalizing after with
  | nil =>
    obtain ⟨rfl, rfl⟩ := append_eq_nil_iff.mp hall
    exact ⟨s, .nil, .nil⟩
  | @snoc trace t u l run step ih =>
    rcases eq_nil_or_concat after with rfl | ⟨rest, e, rfl⟩
    · rw [append_nil] at hall
      exact ⟨u, hall ▸ run.snoc step, .nil⟩
    · rw [concat_eq_append] at hall ⊢
      rw [← append_assoc] at hall
      obtain ⟨hbefore, hlast⟩ := append_inj' hall rfl
      obtain rfl := (List.cons.inj hlast).1
      obtain ⟨v, hv, hrest⟩ := ih hbefore
      exact ⟨v, hv, hrest.snoc step⟩

theorem Run.single {e : σ × ℓ} (h : Run Step s [e] t) : e.1 = s ∧ Step s e.2 t := by
  generalize hall : [e] = all at h
  cases h with
  | nil => cases hall
  | @snoc trace u v l run step =>
    cases trace with
    | nil =>
      obtain rfl := (List.cons.inj hall).1
      generalize hnone : ([] : List (σ × ℓ)) = none at run
      cases run with
      | nil => exact ⟨rfl, step⟩
      | snoc => exact absurd hnone (by simp)
    | cons e' rest => exact absurd (congrArg List.length hall) (by simp)

theorem Run.between {after : List (σ × ℓ)} {e : σ × ℓ} (h : Run Step s (before ++ e :: after) t) :
    ∃ u, Run Step s before e.1 ∧ Step e.1 e.2 u ∧ Run Step u after t := by
  rw [append_cons] at h
  obtain ⟨u, hfirst, hafter⟩ := h.split
  obtain ⟨v, hbefore, hone⟩ := hfirst.split
  obtain ⟨rfl, hstep⟩ := hone.single
  exact ⟨u, hbefore, hstep, hafter⟩

theorem Run.since (h : Run Step s trace t) {e : σ × ℓ} (he : e ∈ trace) :
    ∃ rest, Run Step e.1 rest t := by
  induction h with
  | nil => simp at he
  | @snoc trace t u l run step ih =>
    rcases mem_append.mp he with he | he
    · obtain ⟨rest, hrest⟩ := ih he
      exact ⟨_, hrest.snoc step⟩
    · obtain rfl := mem_singleton.mp he
      exact ⟨_, Run.nil.snoc step⟩

theorem Run.after (h : Run Step s trace t) {e : σ × ℓ} (he : e ∈ trace) :
    ∃ u rest, Step e.1 e.2 u ∧ Run Step u rest t := by
  induction h with
  | nil => simp at he
  | @snoc trace t u l run step ih =>
    rcases mem_append.mp he with he | he
    · obtain ⟨v, rest, hstep, hrest⟩ := ih he
      exact ⟨v, _, hstep, hrest.snoc step⟩
    · obtain rfl := mem_singleton.mp he
      exact ⟨u, [], step, .nil⟩

lemma Run.steps (h : Run Step s trace t) : ∀ e ∈ trace, ∃ u, Step e.1 e.2 u := by
  induction h with
  | nil => simp
  | @snoc trace t u l run step ih =>
    intro e he
    rcases mem_append.mp he with he | he
    · exact ih e he
    · obtain rfl := mem_singleton.mp he
      exact ⟨u, step⟩

theorem Run.ofLabels {step : σ → ℓ → Option σ} {labels : List ℓ}
    (h : labels.foldlM step s = some t) :
    ∃ trace : List (σ × ℓ), trace.map Prod.snd = labels ∧ Run (fun a l b => step a l = some b) s trace t := by
  induction labels generalizing s with
  | nil =>
    cases h
    exact ⟨[], rfl, .nil⟩
  | cons l labels ih =>
    rw [foldlM_cons] at h
    obtain ⟨u, hl, hu⟩ := Option.bind_eq_some_iff.mp h
    obtain ⟨trace, rfl, run⟩ := ih hu
    exact ⟨(s, l) :: trace, rfl, (Run.nil.snoc hl).trans run⟩

theorem Run.ofEvents {ε α : Type*} {step : σ → ε → Option (σ × α)} {events : List ε}
    (h : events.foldlM (fun s e => (step s e).map Prod.fst) s = some t) :
    ∃ trace : List (σ × ε × α), trace.map (fun e => e.2.1) = events ∧
      Run (fun a l b => step a l.1 = some (b, l.2)) s trace t := by
  induction events generalizing s with
  | nil =>
    cases h
    exact ⟨[], rfl, .nil⟩
  | cons e events ih =>
    rw [foldlM_cons] at h
    obtain ⟨u, he, hu⟩ := Option.bind_eq_some_iff.mp h
    obtain ⟨⟨v, a⟩, hstep, rfl⟩ := Option.map_eq_some_iff.mp he
    obtain ⟨trace, rfl, run⟩ := ih hu
    exact ⟨(s, e, a) :: trace, rfl, (Run.nil.snoc hstep).trans run⟩

end Transition
