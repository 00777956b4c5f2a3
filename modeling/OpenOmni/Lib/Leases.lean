import Mathlib

/-! Leases on shared cells whose contents are compared by identity: a cell is leased as it stands, or as
a fresh probe that nobody else may lease, and an outcome is written only where the lease still stands. -/
namespace OpenOmni
open Function (update_of_ne update_self)

namespace Leases

universe u v w

/-- What a cell holds: its identity, and whether it is a probe. -/
class Leasable (α : Type u) where
  ref : α → ℕ
  probe : α → Bool
  base : α
  ref_base : ref base = 0
  probe_base : probe base = false

open Leasable

/-- A lease that someone holds; it is settled once its outcome was written. -/
structure Held (κ : Type v) (α : Type u) where
  key : κ
  lease : α
  settled : Bool
deriving DecidableEq

/-- Cells, the leases on them by holder, and the number of objects made. -/
structure Table (ι : Type w) (κ : Type v) (α : Type u) where
  cell : κ → Option α
  holder : ι → Option (Held κ α)
  minted : ℕ

variable {ι : Type w} {κ : Type v} {α : Type u} [DecidableEq ι] [DecidableEq κ] [Leasable α]

namespace Table
variable (t : Table ι κ α)

/-- `cell === lease`. -/
def same (key : κ) (lease : α) : Bool := (t.cell key).any (ref · = ref lease)

/-- The cell set to `value` where `write` holds. -/
def put (key : κ) (value : α) (write : Bool) : κ → Option α :=
  if write then Function.update t.cell key (some value) else t.cell

end Table

/-- A value that may be put in a cell: the shared one, or a new one that is no probe. -/
def Settled (minted : ℕ) (value : α) : Prop :=
  value = base ∨ minted < ref value ∧ probe value = false

/-- What holder `i` may do to the table. -/
inductive Move (i : ι) : Table ι κ α → Table ι κ α → Prop where
  /-- A lease of the cell as it stands, or as the shared object where it is absent. -/
  | join (t : Table ι κ α) (key : κ) (value : α) (minted : ℕ) (hfree : t.holder i = none)
      (hvalue : t.cell key = some value ∨ t.cell key = none ∧ value = base)
      (hprobe : probe value = false) (hminted : t.minted ≤ minted) :
      Move i t ⟨Function.update t.cell key (some value),
        Function.update t.holder i (some ⟨key, value, false⟩), minted⟩
  | probe (t : Table ι κ α) (key : κ) (value : α) (minted : ℕ) (hfree : t.holder i = none)
      (hcell : ∀ c, t.cell key = some c → Leasable.probe c = false)
      (hprobe : Leasable.probe value = true) (hfresh : t.minted < ref value)
      (hminted : ref value ≤ minted) :
      Move i t ⟨Function.update t.cell key (some value),
        Function.update t.holder i (some ⟨key, value, false⟩), minted⟩
  | settle (t : Table ι κ α) (held : Held κ α) (value : α) (minted : ℕ)
      (hheld : t.holder i = some held) (hvalue : Settled t.minted value)
      (hminted : t.minted ≤ minted) (hfresh : ref value ≤ minted) :
      Move i t ⟨t.put held.key value (t.same held.key held.lease),
        Function.update t.holder i (some { held with settled := true }), minted⟩
  /-- The end of a lease: a probe that nothing settled is taken out of its cell. -/
  | drop (t : Table ι κ α) (held : Held κ α) (value : α) (minted : ℕ)
      (hheld : t.holder i = some held) (hvalue : Settled t.minted value)
      (hminted : t.minted ≤ minted) (hfresh : ref value ≤ minted) :
      Move i t ⟨t.put held.key value
        (t.same held.key held.lease && Leasable.probe held.lease),
        Function.update t.holder i none, minted⟩
  | mint (t : Table ι κ α) (minted : ℕ) (hminted : t.minted ≤ minted) :
      Move i t ⟨t.cell, t.holder, minted⟩

/-- What leases keep: an identity stands for one object; a probe in a cell is held, a probe that is held
and not settled is in its cell, one that is settled is in none, and no two hold the same probe. -/
structure Kept (t : Table ι κ α) : Prop where
  objects : ∃ object : ℕ → α, object 0 = base ∧
    (∀ k c, t.cell k = some c → object (ref c) = c ∧ ref c ≤ t.minted) ∧
    ∀ i h, t.holder i = some h → object (ref h.lease) = h.lease ∧ ref h.lease ≤ t.minted
  held : ∀ k c, t.cell k = some c → probe c → ∃ i, t.holder i = some ⟨k, c, false⟩
  standing : ∀ i h, t.holder i = some h → probe h.lease → h.settled = false →
    t.cell h.key = some h.lease
  gone : ∀ i h, t.holder i = some h → probe h.lease → h.settled = true →
    ∀ k c, t.cell k = some c → ref c ≠ ref h.lease
  alone : ∀ i j h h', t.holder i = some h → t.holder j = some h' → probe h.lease →
    ref h'.lease = ref h.lease → i = j

variable {t t' : Table ι κ α} {i : ι}

omit [DecidableEq ι] [DecidableEq κ] in
lemma kept_empty : Kept (⟨fun _ => none, fun _ => none, 0⟩ : Table ι κ α) where
  objects := ⟨fun _ => base, rfl, nofun, nofun⟩
  held := nofun
  standing := nofun
  gone := nofun
  alone := nofun

variable {k : κ} {j : ι} {held : Held κ α}

omit [DecidableEq ι] [DecidableEq κ] in
theorem Kept.eq_of_ref (h : Kept t) {c : α} (hc : t.cell k = some c) (hheld : t.holder j = some held)
    (href : ref c = ref held.lease) : c = held.lease := by
  obtain ⟨object, -, hcells, hholders⟩ := h.objects
  rw [← (hcells k c hc).1, href, (hholders j held hheld).1]

omit [DecidableEq ι] [DecidableEq κ] in
lemma Kept.same_iff (h : Kept t) (hheld : t.holder j = some held) :
    t.same held.key held.lease = true ↔ t.cell held.key = some held.lease := by
  simp only [Table.same, Option.any_eq_true, decide_eq_true_eq]
  constructor
  · rintro ⟨c, hc, href⟩
    rw [hc, h.eq_of_ref hc hheld href]
  · intro hc
    exact ⟨held.lease, hc, rfl⟩

omit [DecidableEq ι] [DecidableEq κ] in
theorem Kept.not_same (h : Kept t) {other : Held κ α} (hheld : t.holder i = some held)
    (hother : t.holder j = some other) (hprobe : probe other.lease) (hcell : t.cell held.key = some other.lease)
    (hne : i ≠ j) : t.same held.key held.lease = false := by
  by_contra hsame
  rw [Bool.not_eq_false] at hsame
  have heq : some other.lease = some held.lease := hcell ▸ (h.same_iff hheld).mp hsame
  have href : ref held.lease = ref other.lease := congrArg ref (Option.some.inj heq).symm
  exact hne (h.alone j i other held hother hheld hprobe href).symm

omit [DecidableEq ι] [Leasable α] in
theorem Table.put_cases {key : κ} {value c : α} {write : Bool} (h : t.put key value write k = some c) :
    (write = true ∧ k = key ∧ c = value) ∨ (t.cell k = some c ∧ (write = true → k ≠ key)) := by
  unfold Table.put at h
  cases write with
  | false => exact .inr ⟨h, nofun⟩
  | true =>
    by_cases hk : k = key
    · subst hk
      simp only [if_true, update_self, Option.some.injEq] at h
      exact .inl ⟨rfl, rfl, h.symm⟩
    · simp only [if_true, update_of_ne hk] at h
      exact .inr ⟨h, fun _ => hk⟩

omit [DecidableEq κ] [Leasable α] in
lemma holder_update_cases {value : Option (Held κ α)} {h : Held κ α}
    (hj : Function.update t.holder i value j = some h) : (j = i ∧ value = some h) ∨ (j ≠ i ∧ t.holder j = some h) := by
  by_cases heq : j = i
  · subst heq
    exact .inl ⟨rfl, by rwa [update_self] at hj⟩
  · exact .inr ⟨heq, by rwa [update_of_ne heq] at hj⟩

omit [DecidableEq ι] [DecidableEq κ] in
theorem Kept.objects_new (h : Kept t) {value : α} {minted : ℕ}
    (hvalue : value = base ∨ t.minted < ref value) (hminted : t.minted ≤ minted) :
    ∃ object : ℕ → α, object 0 = base ∧ object (ref value) = value ∧
      (∀ k c, t.cell k = some c → object (ref c) = c ∧ ref c ≤ minted) ∧
      ∀ i h, t.holder i = some h → object (ref h.lease) = h.lease ∧ ref h.lease ≤ minted := by
  obtain ⟨object, hbase, hcells, hholders⟩ := h.objects
  cases hvalue with
  | inl heq =>
    refine ⟨object, hbase, by rw [heq, ref_base, hbase], fun k c hc => ?_, fun j held hj => ?_⟩
    · exact ⟨(hcells k c hc).1, (hcells k c hc).2.trans hminted⟩
    · exact ⟨(hholders j held hj).1, (hholders j held hj).2.trans hminted⟩
  | inr hfresh =>
    refine ⟨Function.update object (ref value) value, ?_, update_self .., fun k c hc => ?_,
      fun j held hj => ?_⟩
    · rw [update_of_ne (by omega), hbase]
    · obtain ⟨hobject, hle⟩ := hcells k c hc
      exact ⟨by rw [update_of_ne (by omega), hobject], hle.trans hminted⟩
    · obtain ⟨hobject, hle⟩ := hholders j held hj
      exact ⟨by rw [update_of_ne (by omega), hobject], hle.trans hminted⟩

omit [DecidableEq ι] [DecidableEq κ] in
lemma Settled.isNew {minted : ℕ} {value : α} (h : Settled minted value) :
    (value = base ∨ minted < ref value) ∧ probe value = false := by
  cases h with
  | inl heq => exact ⟨.inl heq, heq ▸ probe_base⟩
  | inr hnew => exact ⟨.inr hnew.1, hnew.2⟩

omit [DecidableEq ι] [DecidableEq κ] in
theorem Kept.settled_ne (h : Kept t) {value : α} (hvalue : Settled t.minted value) (hheld : t.holder i = some held)
    (hprobe : probe held.lease) : ref value ≠ ref held.lease := by
  obtain ⟨object, hbase, -, hholders⟩ := h.objects
  obtain ⟨hobject, hle⟩ := hholders i held hheld
  intro heq
  cases hvalue with
  | inl hshared =>
    have hlease : held.lease = base := by rw [← hobject, ← heq, hshared, ref_base, hbase]
    rw [hlease, probe_base] at hprobe
    cases hprobe
  | inr hnew =>
    have hlt := hnew.1
    omega

lemma join_kept (h : Kept t) {key : κ} {value : α} {minted : ℕ} (hfree : t.holder i = none)
    (hvalue : t.cell key = some value ∨ t.cell key = none ∧ value = base)
    (hprobe : probe value = false) (hminted : t.minted ≤ minted) :
    Kept (⟨Function.update t.cell key (some value),
      Function.update t.holder i (some ⟨key, value, false⟩), minted⟩ : Table ι κ α) := by
  obtain ⟨object, hbase, hcells, hholders⟩ := h.objects
  have hknown : object (ref value) = value ∧ ref value ≤ minted := by
    cases hvalue with
    | inl hc => exact ⟨(hcells key value hc).1, (hcells key value hc).2.trans hminted⟩
    | inr hnone => exact ⟨by rw [hnone.2, ref_base, hbase], by rw [hnone.2, ref_base]; omega⟩
  -- a cell of the new table holds `value`, which is no probe, or what it held
  have hcell : ∀ k c, Function.update t.cell key (some value) k = some c →
      c = value ∨ t.cell k = some c := by
    intro k c hc
    by_cases hk : k = key
    · subst hk
      rw [update_self] at hc
      exact .inl (Option.some.inj hc).symm
    · exact .inr (by rwa [update_of_ne hk] at hc)
  have hother : ∀ j held, t.holder j = some held → j ≠ i := by
    rintro j held hj rfl
    rw [hfree] at hj
    cases hj
  have hdistinct : ∀ j held, t.holder j = some held → probe held.lease → ref value ≠ ref held.lease := by
    intro j held hj hp heq
    have hsame : value = held.lease := by rw [← hknown.1, heq, (hholders j held hj).1]
    rw [hsame, hp] at hprobe
    cases hprobe
  refine ⟨⟨object, hbase, fun k c hc => ?_, fun j held hj => ?_⟩, fun k c hc hp => ?_,
    fun j held hj hp hopen => ?_, fun j held hj hp hdone k c hc => ?_,
    fun j l held other hj hl hp href => ?_⟩
  · cases hcell k c hc with
    | inl heq => exact heq ▸ hknown
    | inr hold => exact ⟨(hcells k c hold).1, (hcells k c hold).2.trans hminted⟩
  · cases holder_update_cases hj with
    | inl hnew =>
      cases hnew.2
      exact hknown
    | inr hold => exact ⟨(hholders j held hold.2).1, (hholders j held hold.2).2.trans hminted⟩
  · cases hcell k c hc with
    | inl heq =>
      rw [heq, hprobe] at hp
      cases hp
    | inr hold =>
      obtain ⟨j, hj⟩ := h.held k c hold hp
      exact ⟨j, (update_of_ne (hother j _ hj) _ _).trans hj⟩
  · cases holder_update_cases hj with
    | inl hnew =>
      cases hnew.2
      rw [hprobe] at hp
      cases hp
    | inr hold =>
      have hstand := h.standing j held hold.2 hp hopen
      by_cases hk : held.key = key
      · cases hvalue with
        | inl hc =>
          rw [hk, hc] at hstand
          exact absurd (congrArg ref (Option.some.inj hstand)) (hdistinct j held hold.2 hp)
        | inr hnone =>
          rw [hk, hnone.1] at hstand
          cases hstand
      · exact (update_of_ne hk _ _).trans hstand
  · cases holder_update_cases hj with
    | inl hnew => cases hnew.2; cases hdone
    | inr hold =>
      cases hcell k c hc with
      | inl heq => exact heq ▸ hdistinct j held hold.2 hp
      | inr hcold => exact h.gone j held hold.2 hp hdone k c hcold
  · cases holder_update_cases hj with
    | inl hnew =>
      cases hnew.2
      rw [hprobe] at hp
      cases hp
    | inr hold =>
      cases holder_update_cases hl with
      | inl hnew =>
        cases hnew.2
        exact absurd href (hdistinct j held hold.2 hp)
      | inr hlold => exact h.alone j l held other hold.2 hlold.2 hp href

lemma probe_kept (h : Kept t) {key : κ} {value : α} {minted : ℕ} (hfree : t.holder i = none)
    (hcell : ∀ c, t.cell key = some c → probe c = false)
    (hfresh : t.minted < ref value) (hminted : ref value ≤ minted) :
    Kept (⟨Function.update t.cell key (some value),
      Function.update t.holder i (some ⟨key, value, false⟩), minted⟩ : Table ι κ α) := by
  obtain ⟨object, hbase, hvalue, hcells, hholders⟩ :=
    h.objects_new (.inr hfresh) (hfresh.le.trans hminted)
  obtain ⟨_, -, -, hholdersOld⟩ := h.objects
  have hput : ∀ k c, Function.update t.cell key (some value) k = some c →
      (k = key ∧ c = value) ∨ (k ≠ key ∧ t.cell k = some c) := by
    intro k c hc
    by_cases hk : k = key
    · subst hk
      rw [update_self] at hc
      exact .inl ⟨rfl, (Option.some.inj hc).symm⟩
    · exact .inr ⟨hk, by rwa [update_of_ne hk] at hc⟩
  have hother : ∀ j held, t.holder j = some held → j ≠ i := by
    rintro j held hj rfl
    rw [hfree] at hj
    cases hj
  have hdistinct : ∀ j held, t.holder j = some held → ref value ≠ ref held.lease := by
    intro j held hj heq
    have hle := (hholdersOld j held hj).2
    omega
  refine ⟨⟨object, hbase, fun k c hc => ?_, fun j held hj => ?_⟩, fun k c hc hp => ?_,
    fun j held hj hp hopen => ?_, fun j held hj hp hdone k c hc => ?_,
    fun j l held other hj hl hp href => ?_⟩
  · cases hput k c hc with
    | inl hnew =>
      rw [hnew.2]
      exact ⟨hvalue, hminted⟩
    | inr hold => exact hcells k c hold.2
  · cases holder_update_cases hj with
    | inl hnew =>
      cases hnew.2
      exact ⟨hvalue, hminted⟩
    | inr hold => exact hholders j held hold.2
  · cases hput k c hc with
    | inl hnew =>
      rw [hnew.1, hnew.2]
      exact ⟨i, update_self ..⟩
    | inr hold =>
      obtain ⟨j, hj⟩ := h.held k c hold.2 hp
      exact ⟨j, (update_of_ne (hother j _ hj) _ _).trans hj⟩
  · cases holder_update_cases hj with
    | inl hnew =>
      cases hnew.2
      exact update_self ..
    | inr hold =>
      have hstand := h.standing j held hold.2 hp hopen
      have hk : held.key ≠ key := by
        intro hk
        rw [hcell held.lease (hk ▸ hstand)] at hp
        cases hp
      exact (update_of_ne hk _ _).trans hstand
  · cases holder_update_cases hj with
    | inl hnew => cases hnew.2; cases hdone
    | inr hold =>
      cases hput k c hc with
      | inl hnew => exact hnew.2 ▸ hdistinct j held hold.2
      | inr hcold => exact h.gone j held hold.2 hp hdone k c hcold.2
  · cases holder_update_cases hj with
    | inl hnew =>
      cases holder_update_cases hl with
      | inl hlnew => exact hnew.1.trans hlnew.1.symm
      | inr hlold =>
        cases hnew.2
        exact absurd href.symm (hdistinct l other hlold.2)
    | inr hold =>
      cases holder_update_cases hl with
      | inl hlnew =>
        cases hlnew.2
        exact absurd href (hdistinct j held hold.2)
      | inr hlold => exact h.alone j l held other hold.2 hlold.2 hp href

section
variable (h : Kept t) {value : α} {minted : ℕ} (hheld : t.holder i = some held) (hvalue : Settled t.minted value)
  (hminted : t.minted ≤ minted) (hfresh : ref value ≤ minted)
include h hheld hvalue hminted hfresh

/-- A conditional write of a settled value keeps the leases of the others, and those of the writer that
are settled by it. -/
theorem settle_kept : Kept (⟨t.put held.key value (t.same held.key held.lease),
      Function.update t.holder i (some { held with settled := true }), minted⟩ : Table ι κ α) := by
  obtain ⟨object, hbase, hobject, hcells, hholders⟩ := h.objects_new hvalue.isNew.1 hminted
  have hquiet := hvalue.isNew.2
  refine ⟨⟨object, hbase, fun k c hc => ?_, fun j other hj => ?_⟩, fun k c hc hp => ?_,
    fun j other hj hp hopen => ?_, fun j other hj hp hdone k c hc => ?_,
    fun j l other other' hj hl hp href => ?_⟩
  · cases Table.put_cases hc with
    | inl hnew =>
      rw [hnew.2.2]
      exact ⟨hobject, hfresh⟩
    | inr hold => exact hcells k c hold.1
  · cases holder_update_cases hj with
    | inl hnew =>
      cases hnew.2
      exact hholders i held hheld
    | inr hold => exact hholders j other hold.2
  · cases Table.put_cases hc with
    | inl hnew =>
      rw [hnew.2.2, hquiet] at hp
      cases hp
    | inr hold =>
      obtain ⟨j, hj⟩ := h.held k c hold.1 hp
      refine ⟨j, (update_of_ne ?_ _ _).trans hj⟩
      -- the writer's own probe was in the cell it wrote
      rintro rfl
      cases hheld.symm.trans hj
      exact hold.2 ((h.same_iff hj).mpr hold.1) rfl
  · cases holder_update_cases hj with
    | inl hnew => cases hnew.2; cases hopen
    | inr hold =>
      have hstand := h.standing j other hold.2 hp hopen
      by_cases hk : other.key = held.key
      · have hnot := h.not_same hheld hold.2 hp (hk ▸ hstand) hold.1.symm
        simp only [Table.put, hnot, Bool.false_eq_true, if_false]
        exact hstand
      · unfold Table.put
        split
        · exact (update_of_ne hk _ _).trans hstand
        · exact hstand
  · cases holder_update_cases hj with
    | inl hnew =>
      cases hnew.2
      have hprobe : probe held.lease := hp
      cases Table.put_cases hc with
      | inl hwrote =>
        have hne : ref value ≠ ref held.lease := h.settled_ne hvalue hheld hprobe
        rw [hwrote.2.2]
        exact hne
      | inr hold =>
        intro href
        have hlease : c = held.lease := h.eq_of_ref hold.1 hheld href
        obtain ⟨l, hl⟩ := h.held k c hold.1 (hlease ▸ hprobe)
        have hsame : l = i := h.alone l i _ held hl hheld (hlease ▸ hprobe) href.symm
        subst hsame
        cases hheld.symm.trans hl
        exact hold.2 ((h.same_iff hl).mpr hold.1) rfl
    | inr hold =>
      cases Table.put_cases hc with
      | inl hwrote => exact hwrote.2.2 ▸ h.settled_ne hvalue hold.2 hp
      | inr hcold => exact h.gone j other hold.2 hp hdone k c hcold.1
  · have hback : ∀ j other, Function.update t.holder i (some { held with settled := true }) j =
        some other → ∃ before, t.holder j = some before ∧ before.lease = other.lease := by
      intro j other hj
      cases holder_update_cases hj with
      | inl hnew =>
        cases hnew.2
        exact ⟨held, hnew.1 ▸ hheld, rfl⟩
      | inr hold => exact ⟨other, hold.2, rfl⟩
    obtain ⟨before, hbefore, heq⟩ := hback j other hj
    obtain ⟨before', hbefore', heq'⟩ := hback l other' hl
    exact h.alone j l before before' hbefore hbefore' (heq ▸ hp) (by rw [heq, heq', href])

theorem drop_kept : Kept (⟨t.put held.key value (t.same held.key held.lease && probe held.lease),
      Function.update t.holder i none, minted⟩ : Table ι κ α) := by
  obtain ⟨object, hbase, hobject, hcells, hholders⟩ := h.objects_new hvalue.isNew.1 hminted
  have hquiet := hvalue.isNew.2
  have hold : ∀ j other, Function.update t.holder i none j = some other →
      j ≠ i ∧ t.holder j = some other := by
    intro j other hj
    cases holder_update_cases hj with
    | inl hnew => cases hnew.2
    | inr hold => exact hold
  refine ⟨⟨object, hbase, fun k c hc => ?_, fun j other hj => hholders j other (hold j other hj).2⟩,
    fun k c hc hp => ?_, fun j other hj hp hopen => ?_, fun j other hj hp hdone k c hc => ?_,
    fun j l other other' hj hl hp href =>
      h.alone j l other other' (hold j other hj).2 (hold l other' hl).2 hp href⟩
  · cases Table.put_cases hc with
    | inl hnew =>
      rw [hnew.2.2]
      exact ⟨hobject, hfresh⟩
    | inr hcold => exact hcells k c hcold.1
  · cases Table.put_cases hc with
    | inl hnew =>
      rw [hnew.2.2, hquiet] at hp
      cases hp
    | inr hcold =>
      obtain ⟨j, hj⟩ := h.held k c hcold.1 hp
      refine ⟨j, (update_of_ne ?_ _ _).trans hj⟩
      rintro rfl
      cases hheld.symm.trans hj
      refine hcold.2 ?_ rfl
      rw [(h.same_iff hj).mpr hcold.1]
      exact hp
  · obtain ⟨hne, hj⟩ := hold j other hj
    have hstand := h.standing j other hj hp hopen
    by_cases hk : other.key = held.key
    · have hnot := h.not_same hheld hj hp (hk ▸ hstand) hne.symm
      simp only [Table.put, hnot, Bool.false_and, Bool.false_eq_true, if_false]
      exact hstand
    · unfold Table.put
      split
      · exact (update_of_ne hk _ _).trans hstand
      · exact hstand
  · obtain ⟨hne, hj⟩ := hold j other hj
    cases Table.put_cases hc with
    | inl hwrote => exact hwrote.2.2 ▸ h.settled_ne hvalue hj hp
    | inr hcold => exact h.gone j other hj hp hdone k c hcold.1

end

omit [DecidableEq ι] [DecidableEq κ] in
lemma mint_kept (h : Kept t) {minted : ℕ} (hminted : t.minted ≤ minted) :
    Kept (⟨t.cell, t.holder, minted⟩ : Table ι κ α) := by
  obtain ⟨object, hbase, hcells, hholders⟩ := h.objects
  refine ⟨⟨object, hbase, fun k c hc => ?_, fun j held hj => ?_⟩, h.held, h.standing, h.gone, h.alone⟩
  · exact ⟨(hcells k c hc).1, (hcells k c hc).2.trans hminted⟩
  · exact ⟨(hholders j held hj).1, (hholders j held hj).2.trans hminted⟩

lemma move_kept (h : Move i t t') (hkept : Kept t) : Kept t' := by
  cases h with
  | join key value minted hfree hvalue hprobe hminted =>
    exact join_kept hkept hfree hvalue hprobe hminted
  | probe key value minted hfree hcell hprobe hfresh hminted =>
    exact probe_kept hkept hfree hcell hfresh hminted
  | settle held value minted hheld hvalue hminted hfresh =>
    exact settle_kept hkept hheld hvalue hminted hfresh
  | drop held value minted hheld hvalue hminted hfresh =>
    exact drop_kept hkept hheld hvalue hminted hfresh
  | mint minted hminted => exact mint_kept hkept hminted

lemma moves_kept (h : Relation.ReflTransGen (Move i) t t') (hkept : Kept t) : Kept t' := by
  induction h with
  | refl => exact hkept
  | tail _ hmove ih => exact move_kept hmove ih

theorem moves_minted (h : Relation.ReflTransGen (Move i) t t') : t.minted ≤ t'.minted := by
  induction h with
  | refl => exact le_rfl
  | tail _ hmove ih =>
    refine ih.trans ?_
    cases hmove with
    | join key value minted hfree hvalue hprobe hminted | settle held value minted hheld hvalue hminted hfresh
    | drop held value minted hheld hvalue hminted hfresh | mint minted hminted => exact hminted
    | probe key value minted hfree hcell hprobe hfresh hminted => exact hfresh.le.trans hminted

/-- An object of a cell's own, which once made is not in the cell. -/
def Left (t : Table ι κ α) (key : κ) (lease : α) : Prop :=
  ref lease ≠ 0 ∧ ref lease ≤ t.minted ∧ ∀ c, t.cell key = some c → ref c ≠ ref lease

/-- An object that has left its cell never comes back: what is written is the shared one, a new one,
or what the cell already holds. -/
theorem move_left (h : Move i t t') {key : κ} {lease : α} (hleft : Left t key lease) :
    Left t' key lease := by
  obtain ⟨hown, hmade, hcell⟩ := hleft
  have hsettled : ∀ value : α, Settled t.minted value → ref value ≠ ref lease := by
    intro value hvalue heq
    cases hvalue with
    | inl hshared => exact hown (by rw [← heq, hshared, ref_base])
    | inr hnew =>
      have hlt := hnew.1
      omega
  refine ⟨hown, hmade.trans (moves_minted (.single h)), fun c hc => ?_⟩
  cases h with
  | join key' value minted hfree hvalue hprobe hminted =>
    by_cases hk : key = key'
    · subst hk
      simp only [update_self, Option.some.injEq] at hc
      subst hc
      cases hvalue with
      | inl hold => exact hcell value hold
      | inr hnone => exact hsettled value (.inl hnone.2)
    · simp only [update_of_ne hk] at hc
      exact hcell c hc
  | probe key' value minted hfree hquiet hprobe hfresh hminted =>
    by_cases hk : key = key'
    · subst hk
      simp only [update_self, Option.some.injEq] at hc
      subst hc
      omega
    · simp only [update_of_ne hk] at hc
      exact hcell c hc
  | settle held value minted hheld hvalue hminted hfresh | drop held value minted hheld hvalue hminted hfresh =>
    cases Table.put_cases hc with
    | inl hnew => exact hnew.2.2 ▸ hsettled value hvalue
    | inr hold => exact hcell c hold.1
  | mint minted hminted => exact hcell c hc

lemma moves_left (h : Relation.ReflTransGen (Move i) t t') {key : κ} {lease : α}
    (hleft : Left t key lease) : Left t' key lease := by
  induction h with
  | refl => exact hleft
  | tail _ hmove ih => exact move_left hmove ih

structure Cells (κ : Type v) (α : Type u) where
  cell : κ → Option α
  minted : ℕ

namespace Cells
variable (a b c : Cells κ α) {x y z : Option (Held κ α)}

def table (holder : ι → Option (Held κ α)) : Table ι κ α := ⟨a.cell, holder, a.minted⟩

/-- A holder of `x` over the cells `a` may come to hold `y` over the cells `b`. -/
def Leads (a : Cells κ α) (x : Option (Held κ α)) (b : Cells κ α) (y : Option (Held κ α)) : Prop :=
  ∀ (holder : ℕ → Option (Held κ α)) (i : ℕ), holder i = x →
    Relation.ReflTransGen (Move i) (a.table holder) (b.table (Function.update holder i y))

variable {a b c}

lemma Leads.trans (h : Leads a x b y) (h' : Leads b y c z) : Leads a x c z := by
  intro holder i hi
  refine (h holder i hi).trans ?_
  have hnext := h' (Function.update holder i y) i (update_self ..)
  rwa [Function.update_idem] at hnext

theorem Leads.mint (hcell : b.cell = a.cell) (hminted : a.minted ≤ b.minted) : Leads a x b x := by
  intro holder i hi
  refine .single ?_
  have hmove : Move i (a.table holder) ⟨a.cell, holder, b.minted⟩ := .mint _ _ hminted
  subst hi
  rw [Function.update_eq_self]
  unfold table
  rw [hcell]
  exact hmove

theorem Leads.lease {key : κ} {value : α}
    (hcell : ∀ c, a.cell key = some c → probe c = false)
    (hvalue : value = (a.cell key).getD base ∨
      probe value = true ∧ a.minted < ref value ∧ ref value ≤ b.minted)
    (hminted : a.minted ≤ b.minted) (hwrite : b.cell = Function.update a.cell key (some value)) :
    Leads a none b (some ⟨key, value, false⟩) := by
  intro holder i hi
  refine .single ?_
  unfold table
  rw [hwrite]
  cases hvalue with
  | inl hjoin =>
    have hpresent : a.cell key = some value ∨ a.cell key = none ∧ value = base := by
      cases hcase : a.cell key with
      | none => exact .inr ⟨rfl, by rw [hjoin, hcase]; rfl⟩
      | some c => exact .inl (by rw [hjoin, hcase]; rfl)
    have hquiet : probe value = false := by
      cases hpresent with
      | inl hsome => exact hcell value hsome
      | inr hnone => exact hnone.2 ▸ probe_base
    exact .join (a.table holder) key value b.minted hi hpresent hquiet hminted
  | inr hprobe =>
    exact .probe (a.table holder) key value b.minted hi hcell hprobe.1 hprobe.2.1 hprobe.2.2

/-- What the holder of `held` does: besides the moves, that it writes only the cell it leased, and that
only while the lease stands. -/
structure Serves (a : Cells κ α) (held : Held κ α) (b : Cells κ α) (y : Option (Held κ α)) : Prop where
  leads : Leads a (some held) b y
  writes : ∀ k, b.cell k ≠ a.cell k → k = held.key ∧ (a.cell k).any (ref · = ref held.lease) = true

inductive Steps (a : Cells κ α) : Option (Held κ α) → Cells κ α → Option (Held κ α) → Prop where
  | free {b : Cells κ α} {y : Option (Held κ α)} (h : Leads a none b y) : Steps a none b y
  | held {held : Held κ α} {b : Cells κ α} {y : Option (Held κ α)} (h : Serves a held b y) :
    Steps a (some held) b y

lemma Steps.leads (h : Steps a x b y) : Leads a x b y := by
  cases h with
  | free h => exact h
  | held h => exact h.leads

variable {held : Held κ α} {key : κ} {lease value : α} {settled done : Bool}

lemma Serves.mint (hcell : b.cell = a.cell) (hminted : a.minted ≤ b.minted) :
    Serves a held b (some held) :=
  ⟨.mint hcell hminted, fun k hk => absurd (congrFun hcell k) hk⟩

lemma Serves.trans (h : Serves a ⟨key, lease, settled⟩ b (some ⟨key, lease, done⟩))
    (h' : Serves b ⟨key, lease, done⟩ c z) : Serves a ⟨key, lease, settled⟩ c z := by
  refine ⟨h.leads.trans h'.leads, fun k hk => ?_⟩
  by_cases hfirst : b.cell k = a.cell k
  · rw [← hfirst] at hk ⊢
    exact h'.writes k hk
  · exact h.writes k hfirst

lemma Serves.after (h : Serves a held b none) (hcell : c.cell = b.cell)
    (hminted : b.minted ≤ c.minted) : Serves a held c none := by
  refine ⟨h.leads.trans (.mint hcell hminted), fun k hk => ?_⟩
  rw [hcell] at hk
  exact h.writes k hk

omit [Leasable α] in
theorem write_cases {write : Bool} {k : κ}
    (hcell : b.cell = if write then Function.update a.cell key (some value) else a.cell)
    (hk : b.cell k ≠ a.cell k) : k = key ∧ write = true := by
  rw [hcell] at hk
  cases write with
  | false => exact absurd rfl hk
  | true =>
    refine ⟨?_, rfl⟩
    by_contra hne
    exact hk (update_of_ne hne _ _)

section
variable (hvalue : Settled a.minted value) (hminted : a.minted ≤ b.minted) (hfresh : ref value ≤ b.minted)
include hvalue hminted hfresh

lemma Serves.settle (hcell : b.cell = if (a.cell held.key).any (ref · = ref held.lease) then
      Function.update a.cell held.key (some value) else a.cell) :
    Serves a held b (some { held with settled := true }) := by
  refine ⟨fun holder i hi => .single ?_, fun k hk => ?_⟩
  · unfold table
    rw [hcell]
    exact .settle (a.table holder) held value b.minted hi hvalue hminted hfresh
  · obtain ⟨rfl, hsame⟩ := write_cases hcell hk
    exact ⟨rfl, hsame⟩

lemma Serves.drop (hcell : b.cell = if (a.cell held.key).any (ref · = ref held.lease) && probe held.lease then
      Function.update a.cell held.key (some value) else a.cell) :
    Serves a held b none := by
  refine ⟨fun holder i hi => .single ?_, fun k hk => ?_⟩
  · unfold table
    rw [hcell]
    exact .drop (a.table holder) held value b.minted hi hvalue hminted hfresh
  · obtain ⟨rfl, hsame⟩ := write_cases hcell hk
    exact ⟨rfl, (Bool.and_eq_true _ _ ▸ hsame).1⟩

end

end Cells

def OneProbe (t : Table ι κ α) : Prop :=
  ∀ i j held other, t.holder i = some held → t.holder j = some other → held.key = other.key →
    probe held.lease → probe other.lease → held.settled = false → other.settled = false → i = j

def Released (t : Table ι κ α) : Prop :=
  ∀ k c, t.cell k = some c → probe c → ∃ i, t.holder i = some ⟨k, c, false⟩

omit [DecidableEq ι] [DecidableEq κ] in
lemma Kept.oneProbe (h : Kept t) : OneProbe t := by
  intro i j held other hi hj hkey hp hp' hopen hopen'
  have hcell := h.standing i held hi hp hopen
  have hcell' := h.standing j other hj hp' hopen'
  rw [hkey, hcell', Option.some.injEq] at hcell
  exact h.alone i j held other hi hj hp (congrArg ref hcell)

omit [DecidableEq ι] [DecidableEq κ] in
theorem Kept.left_of_ne (h : Kept t) (hheld : t.holder i = some held) (hown : ref held.lease ≠ 0)
    (hcell : t.cell held.key ≠ some held.lease) : Left t held.key held.lease := by
  obtain ⟨object, -, -, hholders⟩ := h.objects
  refine ⟨hown, (hholders i held hheld).2, fun c hc href => hcell ?_⟩
  rw [hc, h.eq_of_ref hc hheld href]

end Leases
end OpenOmni
