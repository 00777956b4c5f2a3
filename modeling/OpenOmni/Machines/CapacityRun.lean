import OpenOmni.Lib.Run
import OpenOmni.Machines.LeaseBooks

/-! The ledger over a run: what a machine's leases hold is what each of them still owes, never more than the
machine's slots. -/
namespace OpenOmni
namespace Capacity
open List
open Option (any_some bind_eq_bind bind_eq_some_iff bind_some getD_some map_some)

open Finset (range)

variable {w w' : World} {i : ℕ} {l l' : Lease}

/-- No machine holds more than its slots, an exclusive lease holds its machine alone, and a machine that is not
attached holds nothing. -/
structure Fits (rows : List CapacityRow) (w : World) : Prop where
  unique : w.members.Unique
  ids : ∀ (m : String) (machine : MachineInfo), w.members.get? m = some machine → machine.machineId = m
  detached : ∀ m : String, w.members.get? m = none → w.set m = []
  slots : ∀ (m : String) (machine : MachineInfo) (n : ℕ), w.members.get? m = some machine →
    (effective rows machine).slots = some n → w.used m ≤ n
  alone : ∀ (m : String) (i : ℕ), i ∈ w.set m → w.exclusive i = true → w.set m = [i]

lemma Shrinks.used_le (h : Shrinks w w') (hbooks : Books w) (m : String) : w'.used m ≤ w.used m := by
  rw [hbooks.used_eq, h.books.used_eq, h.length]
  apply Finset.sum_le_sum
  intro i hi
  have hlt := Finset.mem_range.mp hi
  have hl : w.leases[i]? = some w.leases[i] := getElem?_eq_getElem hlt
  obtain ⟨l', hl', hlater, hless⟩ := h.leases i _ hl
  unfold World.share
  rw [hl, hl', map_some, map_some, hlater.machine]
  simp only [getD_some]
  split
  · exact hless
  · exact le_rfl

lemma Shrinks.exclusive (h : Shrinks w w') {i : ℕ} (hexclusive : w'.exclusive i = true) : w.exclusive i = true := by
  unfold World.exclusive at hexclusive ⊢
  obtain ⟨l', hl', hx⟩ := (Option.any_eq_true _ _).mp hexclusive
  have hlt := (List.getElem?_eq_some_iff.mp hl').1
  rw [h.length] at hlt
  have hl : w.leases[i]? = some w.leases[i] := getElem?_eq_getElem hlt
  obtain ⟨l'', hl'', hlater, -⟩ := h.leases i _ hl
  obtain rfl := Option.mem_unique hl' hl''
  rw [hl, any_some, ← hlater.exclusive]
  exact hx

variable {rows : List CapacityRow} {m : String}

lemma Fits.alone_of_sublist (h : Fits rows w) {i : ℕ} {set : List ℕ} (hset : set.Sublist (w.set m)) (hi : i ∈ set)
    (hexclusive : w.exclusive i = true) : set = [i] := by
  have hone := h.alone m i (hset.subset hi) hexclusive
  rw [hone] at hset
  rcases sublist_singleton.mp hset with hnil | hsingle
  · rw [hnil] at hi
    cases hi
  · exact hsingle

lemma Fits.shrinks (h : Fits rows w) (hbooks : Books w) (hs : Shrinks w w') : Fits rows w' := by
  refine ⟨?_, ?_, ?_, ?_, ?_⟩
  · rw [hs.members]
    exact h.unique
  · rw [hs.members]
    exact h.ids
  · intro m hm
    rw [hs.members] at hm
    have hnil := hs.set m
    rw [h.detached m hm] at hnil
    exact sublist_nil.mp hnil
  · intro m machine n hm hslots
    rw [hs.members] at hm
    exact (hs.used_le hbooks m).trans (h.slots m machine n hm hslots)
  · intro m i hi hexclusive
    exact h.alone_of_sublist (hs.set m) hi (hs.exclusive hexclusive)

section Rows

variable {rows : List CapacityRow} {machine : MachineInfo}

variable {extra cost : ℚ} {workClass : LeaseClass}

lemma credit_eq_none {holder : Option ℕ} (h : w.credit rows machine extra holder = none) :
    (0 < extra → ∀ i ∈ w.set machine.machineId, holder ≠ some i → w.exclusive i = false) ∧
      ∀ n, (effective rows machine).slots = some n → w.used machine.machineId + extra ≤ n := by
  unfold World.credit at h
  dsimp only at h
  split at h
  · cases h
  · rename_i hfree
    rw [not_or] at hfree
    obtain ⟨hexclusive, hslots⟩ := hfree
    constructor
    · intro hextra i hi hholder
      rw [← Bool.not_eq_true]
      intro hx
      refine hexclusive ⟨hextra, any_eq_true.mpr ⟨i, hi, ?_⟩⟩
      simp [hholder, hx]
    · intro n hn
      rw [hn] at hslots
      simpa using hslots

lemma Fits.reserve (h : Fits rows w) (hbooks : Books w) {m : String} {exclusive : Bool} {ttl now : ℤ}
    (hmachine : w.members.get? m = some machine) (hcost : 0 < cost)
    (hslots : ∀ n, (effective rows machine).slots = some n → w.used m + cost ≤ n)
    (hempty : exclusive = true → w.set m = []) (hshared : ∀ i ∈ w.set m, w.exclusive i = false) :
    Fits rows (w.reserve ttl m cost exclusive workClass now) := by
  have hold : ∀ i < w.leases.length, (w.reserve ttl m cost exclusive workClass now).exclusive i = w.exclusive i := by
    intro i hi
    unfold World.exclusive
    rw [reserve_leases, getElem?_append_left hi]
  refine ⟨h.unique, h.ids, ?_, ?_, ?_⟩
  · intro m' hm'
    have hnone : w.members.get? m' = none := hm'
    rw [reserve_set, if_neg, h.detached m' hnone]
    rintro rfl
    rw [hmachine] at hnone
    cases hnone
  · intro m' machine' n hm' hn
    rw [hbooks.used_reserve m exclusive workClass ttl now hcost]
    split
    · rename_i hm
      subst hm
      obtain rfl := Option.mem_unique hmachine hm'
      exact hslots n hn
    · rw [add_zero]
      exact h.slots m' machine' n hm' hn
  · intro m' i hi hx
    rw [reserve_set] at hi ⊢
    have hkept : ∀ m', i ∈ w.set m' → w.exclusive i = true := by
      intro m' hmem
      obtain ⟨l, hl, -⟩ := hbooks.own m' i hmem
      rw [← hold i (List.getElem?_eq_some_iff.mp hl).1]
      exact hx
    split
    · rename_i hm
      rw [if_pos hm] at hi
      subst hm
      rcases mem_append.mp hi with hmem | hnew
      · have hfree := hshared i hmem
        rw [hkept m' hmem] at hfree
        cases hfree
      · obtain rfl := mem_singleton.mp hnew
        have hx' : exclusive = true := by
          unfold World.exclusive at hx
          rw [reserve_leases, getElem?_append_right le_rfl, Nat.sub_self] at hx
          exact hx
        rw [hempty hx', nil_append]
    · rename_i hm
      rw [if_neg hm] at hi
      exact h.alone m' i hi (hkept m' hi)

lemma Fits.acquire (h : Fits rows w) (hbooks : Books w) (hl : w.leases[i]? = some l)
    (hmachine : w.members.get? l.machineId = some machine) (hcredit : w.credit rows machine extra (some i) = none)
    (hr : Replaced w i l' w') (hlater : Later l l') (hdue : l'.due = l.due + extra) (hbooks' : Books w') :
    Fits rows w' := by
  have hset : ∀ m, (w'.set m).Sublist (w.set m) := by
    intro m
    rw [hr.set]
    split
    · exact erase_sublist
    · exact List.Sublist.refl _
  refine ⟨?_, ?_, ?_, ?_, ?_⟩
  · rw [hr.members]
    exact h.unique
  · rw [hr.members]
    exact h.ids
  · intro m hm
    rw [hr.members] at hm
    have hnil := hset m
    rw [h.detached m hm] at hnil
    exact sublist_nil.mp hnil
  · intro m machine' n hm hn
    rw [hr.members] at hm
    rw [hbooks.used_replace hbooks' hl hr.leases hlater.machine]
    split
    · rename_i hsame
      subst hsame
      obtain rfl := Option.mem_unique hmachine hm
      have hfits := (credit_eq_none hcredit).2 n hn
      rw [h.ids _ _ hmachine] at hfits
      rw [hdue]
      linarith
    · rw [add_zero]
      exact h.slots m machine' n hm hn
  · intro m j hj hx
    refine h.alone_of_sublist (hset m) hj ?_
    unfold World.exclusive at hx ⊢
    rw [hr.leases, Slots.get?_set hl] at hx
    split at hx
    · rename_i hji
      rw [hji, hl, any_some, ← hlater.exclusive]
      exact hx
    · exact hx

variable {scheduler : Bool} {ttl : ℤ} {localeCompare : String → String → ℤ} {hashScore : String → String → String}

end Rows

lemma Books.congr (h : Books w) (hleases : w'.leases = w.leases) (huses : w'.uses = w.uses)
    (hset : ∀ m, w'.set m = w.set m) : Books w' := by
  refine ⟨?_, ?_, ?_, ?_, ?_, ?_, ?_⟩
  · intro i l hl
    rw [hleases] at hl
    exact (h.lease i l hl).uses huses
  · rw [hleases]
    exact h.alive
  · have hnames := h.names
    unfold World.Named World.nameOf at hnames ⊢
    rw [huses]
    exact hnames
  · rw [hleases, huses]
    exact h.placed
  · intro m i hi
    rw [hset] at hi
    rw [hleases]
    exact h.own m i hi
  · intro i l hl
    rw [hleases] at hl
    rw [hset]
    exact h.registered i l hl
  · intro m
    rw [hset]
    exact h.nodup m

lemma Books.invalidateAll_fenced (h : Books w) (reason : LeaseInvalidation) (ids : List ℕ) {j : ℕ} (hj : j ∈ ids)
    {l' : Lease} (hl' : (ids.foldl (fun w i => w.invalidate i reason) w).leases[j]? = some l') : l'.fenced = true := by
  induction ids generalizing w with
  | nil => cases hj
  | cons i ids ih =>
    rw [foldl_cons] at hl'
    cases hl : w.leases[i]? with
    | none =>
      have hsame : w.invalidate i reason = w := by
        unfold World.invalidate
        rw [hl]
      rw [hsame] at hl'
      rcases mem_cons.mp hj with rfl | hmem
      · have hlt := (List.getElem?_eq_some_iff.mp hl').1
        rw [(h.invalidateAll reason ids).length] at hlt
        rw [List.getElem?_eq_none_iff] at hl
        exact absurd hlt (not_lt.mpr hl)
      · exact ih h hmem hl'
    | some l =>
      have hgives := h.invalidate hl reason
      rcases mem_cons.mp hj with rfl | hmem
      · have hnow : (w.invalidate j reason).leases[j]? = some (l.detached reason) := by
          rw [hgives.replaced.leases, Slots.get?_set hl, if_pos rfl]
        obtain ⟨l'', hl'', hlater, -⟩ := (hgives.books.invalidateAll reason ids).leases j _ hnow
        obtain rfl := Option.mem_unique hl' hl''
        exact hlater.fenced rfl
      · exact ih hgives.books hmem hl'

theorem Books.emptied (h : Books w) (m : String) (reason : LeaseInvalidation) :
    ((w.set m).foldl (fun w i => w.invalidate i reason) w).set m = [] := by
  have hshrinks := h.invalidateAll reason (w.set m)
  apply eq_nil_iff_forall_not_mem.mpr
  intro j hj
  obtain ⟨l, hl, -, hlive⟩ := hshrinks.books.live hj
  have hfenced := h.invalidateAll_fenced reason (w.set m) ((hshrinks.set m).subset hj) hl
  unfold Lease.live at hlive
  rw [hfenced] at hlive
  cases hlive

def Label.concerns (w : World) (i : ℕ) : Label → Prop
  | .acquire j _ _ _ | .release j | .expire j _ _ => j = i
  | .opened u | .releaseClaim u _ => ∃ use, w.uses[u]? = some use ∧ use.lease = i
  | .terminalClosed m _ _ | .detach m _ => i ∈ w.set m
  | .attach _ | .report _ _ | .place _ _ _ => False

def Label.acquires (i : ℕ) : Label → Prop
  | .acquire j _ _ _ => j = i
  | _ => False

/-- Only the leases in `concerned` change, and only those in `gaining` owe more. -/
def Touched (concerned gaining : ℕ → Prop) (w w' : World) : Prop :=
  ∀ (i : ℕ) (l : Lease), w.leases[i]? = some l → ∃ l', w'.leases[i]? = some l' ∧ Later l l' ∧
    (¬ concerned i → l' = l) ∧ (¬ gaining i → l'.due ≤ l.due)

variable {concerned gaining : ℕ → Prop}

lemma Touched.same (hleases : w'.leases = w.leases) : Touched concerned gaining w w' := by
  intro i l hl
  rw [← hleases] at hl
  exact ⟨l, hl, .refl l, fun _ => rfl, fun _ => le_rfl⟩

lemma Touched.append {l₀ : Lease} (hleases : w'.leases = w.leases ++ [l₀]) : Touched concerned gaining w w' := by
  intro i l hl
  refine ⟨l, ?_, .refl l, fun _ => rfl, fun _ => le_rfl⟩
  rw [hleases]
  exact Slots.get?_append hl _

lemma Replaced.touched (hr : Replaced w i l' w') (hl : w.leases[i]? = some l) (hlater : Later l l')
    (hconcerned : concerned i) (hless : ¬ gaining i → l'.due ≤ l.due) : Touched concerned gaining w w' := by
  intro j k hk
  rw [hr.leases, Slots.get?_set hl]
  by_cases hj : j = i
  · subst hj
    obtain rfl := Option.mem_unique hl hk
    rw [if_pos rfl]
    exact ⟨l', rfl, hlater, fun hno => absurd hconcerned hno, hless⟩
  · rw [if_neg hj]
    exact ⟨k, hk, .refl k, fun _ => rfl, fun _ => le_rfl⟩

lemma Gives.touched (h : Gives w i l l' w') (hconcerned : concerned i) : Touched concerned gaining w w' :=
  h.replaced.touched h.was h.later hconcerned fun _ => h.less

lemma Touched.trans {w'' : World} (h : Touched concerned gaining w w') (h' : Touched concerned gaining w' w'') :
    Touched concerned gaining w w'' := by
  intro i l hl
  obtain ⟨l', hl', hlater, hsame, hless⟩ := h i l hl
  obtain ⟨l'', hl'', hlater', hsame', hless'⟩ := h' i l' hl'
  refine ⟨l'', hl'', hlater.trans hlater', fun hno => ?_, fun hno => (hless' hno).trans (hless hno)⟩
  rw [hsame' hno, hsame hno]

section Step

variable {rows : List CapacityRow} {scheduler : Bool} {ttl : ℤ} {localeCompare : String → String → ℤ}
variable {hashScore : String → String → String}

inductive Voided (i : ℕ) (l : Lease) : Label → Prop where
  | released : Voided i l (.release i)
  | expired (timer : Timer) (now : ℤ) (hidle : l.idle = true) (hdue : timer.expiresAt ≤ now) :
      Voided i l (.expire i timer now)
  | detached (reason : LeaseInvalidation) : Voided i l (.detach l.machineId reason)

/-- What a step does to the ledger: it keeps it in order, touches the leases it is about, and voids one only where it
may. -/
structure Kept (rows : List CapacityRow) (w w' : World) (label : Label) : Prop where
  books : Books w'
  fits : Fits rows w'
  touched : Touched (fun i => label.concerns w i) (fun i => label.acquires i) w w'
  voided : ∀ (i : ℕ) (l l' : Lease), w.leases[i]? = some l → w'.leases[i]? = some l' → l.aborted = false →
    l'.aborted = true → Voided i l label

variable {label : Label} {machine : MachineInfo}

lemma voided_of_same (hsame : ∀ j : ℕ, (w'.leases[j]?).map (·.aborted) = (w.leases[j]?).map (·.aborted)) (i : ℕ)
    (l l' : Lease) (hl : w.leases[i]? = some l) (hl' : w'.leases[i]? = some l') (hopen : l.aborted = false)
    (hvoid : l'.aborted = true) : Voided i l label := by
  have haborted := hsame i
  rw [hl, hl', map_some, map_some, hopen, hvoid] at haborted
  cases haborted

lemma Kept.of_same (hbooks : Books w') (hfits : Fits rows w') (hleases : w'.leases = w.leases) :
    Kept rows w w' label :=
  ⟨hbooks, hfits, .same hleases, voided_of_same fun j => by rw [hleases]⟩

section
variable (hbooks : Books w) (hfits : Fits rows w)
include hbooks hfits

end

end Step

section Run

variable {rows : List CapacityRow} {scheduler : Bool} {ttl : ℤ} {localeCompare : String → String → ℤ}
variable {hashScore : String → String → String}

end Run

end Capacity
end OpenOmni
