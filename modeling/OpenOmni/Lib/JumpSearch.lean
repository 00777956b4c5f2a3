import Mathlib

/-! A search that probes a position and stops there or jumps on, up to a bound, against the first goal it is after. -/

namespace JumpSearch

variable (probe : ℤ → Option ℤ)

def LeadsOn : Prop := ∀ m jump, probe m = some jump → 0 < jump

/-- `while (cursor <= bound)`: the position at which a probe gives no jump. -/
def search (hprobe : LeadsOn probe) (bound cursor : ℤ) : Option ℤ :=
  if cursor ≤ bound then
    match _h : probe cursor with
    | none => some cursor
    | some jump => search hprobe bound (cursor + jump)
  else none
termination_by (bound + 1 - cursor).toNat
decreasing_by
  have hjump := hprobe cursor jump _h
  omega

inductive Visits (start : ℤ) : ℤ → Prop
  | start : Visits start start
  | jump {m jump : ℤ} (h : Visits start m) (hprobe : probe m = some jump) : Visits start (m + jump)

variable {probe}

variable {a b m g : ℤ}

lemma Visits.trans {c : ℤ} (h : Visits probe a b) (h' : Visits probe b c) : Visits probe a c := by
  induction h' with
  | start => exact h
  | jump _ hprobe ih => exact ih.jump hprobe

lemma Visits.le (hprobe : LeadsOn probe) {start : ℤ} (h : Visits probe start m) : start ≤ m := by
  induction h with
  | start => exact le_rfl
  | jump _ hjump ih =>
    have hpos := hprobe _ _ hjump
    omega

lemma Visits.head (h : Visits probe a b) : b = a ∨ ∃ jump, probe a = some jump ∧ Visits probe (a + jump) b := by
  induction h with
  | start => exact Or.inl rfl
  | @jump m jump _ hjump ih =>
    right
    cases ih with
    | inl heq =>
      subst heq
      exact ⟨jump, hjump, .start⟩
    | inr hrest =>
      obtain ⟨first, hfirst, hrest⟩ := hrest
      exact ⟨first, hfirst, hrest.jump hjump⟩

theorem Visits.total {start : ℤ} (ha : Visits probe start a) (hb : Visits probe start b) :
    Visits probe a b ∨ Visits probe b a := by
  induction hb with
  | start => exact Or.inr ha
  | @jump m jump _ hjump ih =>
    cases ih with
    | inl hrest => exact Or.inl (hrest.jump hjump)
    | inr hback =>
      cases hback.head with
      | inl heq =>
        subst heq
        exact Or.inl (Visits.start.jump hjump)
      | inr hrest =>
        obtain ⟨first, hfirst, hrest⟩ := hrest
        obtain rfl := Option.mem_unique hjump hfirst
        exact Or.inr hrest

section
variable (hprobe : LeadsOn probe) {start : ℤ} (ha : Visits probe start a) (hb : Visits probe start b)
include hprobe ha hb

theorem Visits.split : b ≤ a ∨ ∃ jump, probe a = some jump ∧ a + jump ≤ b := by
  cases ha.total hb with
  | inl hab =>
    cases hab.head with
    | inl heq => exact Or.inl heq.le
    | inr hrest =>
      obtain ⟨jump, hjump, hrest⟩ := hrest
      exact Or.inr ⟨jump, hjump, hrest.le hprobe⟩
  | inr hba => exact Or.inl (hba.le hprobe)

end

variable {hprobe : LeadsOn probe} {bound start : ℤ}

variable (Goal : ℤ → Prop)

def Clear (start m : ℤ) : Prop := ∀ t, start ≤ t → t < m → ¬ Goal t

/-- Up to the limit, and before a goal is passed, the search stops at goals only and jumps over none. -/
structure Sound (probe : ℤ → Option ℤ) (start limit : ℤ) : Prop where
  stops : ∀ m, Visits probe start m → m ≤ limit → Clear Goal start m → (probe m = none ↔ Goal m)
  jumps : ∀ m, Visits probe start m → m ≤ limit → Clear Goal start m → ∀ jump, probe m = some jump →
    ∀ t, m < t → t < m + jump → t ≤ limit → ¬ Goal t

variable {Goal} {limit : ℤ}

def goals (Goal : ℤ → Prop) (start limit : ℤ) : Set ℤ := {t | start ≤ t ∧ t ≤ limit ∧ Goal t}

lemma exists_least {Goal : ℤ → Prop} {start limit t : ℤ} (h : t ∈ goals Goal start limit) : ∃ g, IsLeast (goals Goal start limit) g ∧ g ≤ t := by
  classical
  obtain ⟨g, hg, hleast⟩ := Int.exists_least_of_bdd (P := fun t => t ∈ goals Goal start limit) ⟨start, fun _ hz => hz.1⟩ ⟨t, h⟩
  exact ⟨g, ⟨hg, hleast⟩, hleast t h⟩

lemma clear_of_isLeast (h : IsLeast (goals Goal start limit) g) : Clear Goal start g := by
  intro t hstart hlt hgoal
  have hle := h.2 ⟨hstart, hlt.le.trans h.1.2.1, hgoal⟩
  omega

theorem Sound.visits_le (h : Sound Goal probe start limit) (hg : IsLeast (goals Goal start limit) g)
    (hm : Visits probe start m) : m ≤ g := by
  have hclear := clear_of_isLeast hg
  have hlimit := hg.1.2.1
  induction hm with
  | start => exact hg.1.1
  | @jump m jump hm hjump ih =>
    have hbefore : Clear Goal start m := fun t hstart hlt => hclear t hstart (by omega)
    have hne : m ≠ g := by
      rintro rfl
      have hstop := (h.stops m hm hlimit hbefore).mpr hg.1.2.2
      rw [hstop] at hjump
      cases hjump
    by_contra hpast
    exact h.jumps m hm (by omega) hbefore jump hjump g (by omega) (by omega) hlimit hg.1.2.2

theorem Sound.clear (h : Sound Goal probe start limit) (hm : Visits probe start m) (hle : m ≤ limit) :
    Clear Goal start m := by
  intro t hstart hlt hgoal
  have hmem : t ∈ goals Goal start limit := ⟨hstart, by omega, hgoal⟩
  obtain ⟨g, hg, hgt⟩ := exists_least hmem
  have hpast := h.visits_le hg hm
  omega

end JumpSearch
