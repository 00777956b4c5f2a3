import Mathlib
import OpenOmni.Lib.Dict

/-! Sums over the values of a finite map: what setting and erasing a key adds and takes. -/
namespace Dict
open List

variable {κ ν G : Type*} [DecidableEq κ] [AddCommGroup G] {d : Dict κ ν} {k : κ} {v : ν}

def sum (d : Dict κ ν) (f : ν → G) : G := (d.values.map f).sum

lemma sum_filter_entries (f : ν → G) (entries : List (κ × ν)) (hunique : (entries.map Prod.fst).Nodup)
    (hk : (k, v) ∈ entries) :
    (((entries.filter (·.1 ≠ k)).map Prod.snd).map f).sum + f v = ((entries.map Prod.snd).map f).sum := by
  induction entries with
  | nil => simp at hk
  | cons e entries ih =>
    obtain ⟨hfresh, hrest⟩ := nodup_cons.mp hunique
    rcases mem_cons.mp hk with rfl | hmem
    · have hall : entries.filter (·.1 ≠ k) = entries := by
        apply filter_eq_self.mpr
        intro e he
        have hne : e.1 ≠ k := by
          intro heq
          exact hfresh (mem_map.mpr ⟨e, he, heq⟩)
        simpa using hne
      rw [filter_cons_of_neg (by simp), hall]
      simp [add_comm]
    · have hne : e.1 ≠ k := by
        intro heq
        exact hfresh (mem_map.mpr ⟨(k, v), hmem, heq.symm⟩)
      rw [filter_cons_of_pos (by simpa using hne)]
      simp only [map_cons, sum_cons]
      rw [add_assoc, ih hrest hmem]

theorem sum_erase (f : ν → G) (hunique : d.Unique) (hk : d.get? k = some v) : (d.erase k).sum f + f v = d.sum f :=
  sum_filter_entries f d.entries hunique ((get?_eq_some_iff hunique).mp hk)

theorem sum_set_of_none (f : ν → G) (hk : d.get? k = none) : (d.set k v).sum f = d.sum f + f v := by
  have hcontains : d.contains k = false := by rw [contains_iff, hk, Option.isSome_none]
  unfold set sum values
  rw [if_neg (by simp [hcontains])]
  simp

lemma erase_set_entries (d : Dict κ ν) (k : κ) (v : ν) : (d.set k v).erase k = d.erase k := by
  unfold set erase
  split
  · congr 1
    induction d.entries with
    | nil => rfl
    | cons e entries ih =>
      rw [map_cons]
      by_cases he : e.1 = k
      · rw [if_pos he, filter_cons_of_neg (by simp), filter_cons_of_neg (by simpa using he), ih]
      · rw [if_neg he, filter_cons_of_pos (by simpa using he), filter_cons_of_pos (by simpa using he), ih]
  · simp

theorem sum_set_of_some (f : ν → G) (hunique : d.Unique) {old : ν} (hk : d.get? k = some old) :
    (d.set k v).sum f + f old = d.sum f + f v := by
  have hnew := sum_erase f (hunique.set k v) (get?_set_self d k v)
  have hold := sum_erase f hunique hk
  rw [erase_set_entries] at hnew
  rw [← hnew, ← hold]
  exact add_right_comm _ _ _

end Dict
