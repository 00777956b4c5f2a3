import Mathlib
import OpenOmni.Lib.DictSum
import OpenOmni.Lib.Slots
import OpenOmni.Machines.Capacity

/-! The books of the lease ledger: what every lease owes, and that release, expiry, detach, the end of a use and the
close of a terminal keep what the machines' sets sum up to. -/
namespace OpenOmni
namespace Capacity
open List hiding range
open Option (getD_some map_some)

open Finset (range)

/-- What a lease holds of its machine while the machine is attached: its reservation until it is released or expires,
or its claims where they cost more. -/
def Lease.due (l : Lease) : ℚ := if l.fenced then 0 else leaseCost l

def Lease.running (l : Lease) : ℚ :=
  if l.fenced then 0 else if l.exclusive then (if l.idle then 0 else l.cost) else activeCost l

def Lease.live (l : Lease) : Bool := !l.fenced && (!l.aborted || !l.idle)

def World.count (w : World) (i c : ℕ) : ℕ :=
  w.uses.countP fun use => use.lease = i ∧ use.claim = c ∧ use.progress ≠ .ended

def World.nameOf (w : World) (c : ℕ) : Option String := (w.uses[c]?).bind (·.name)

def World.Named (w : World) : Prop :=
  ∀ (u : ℕ) (use : Use), w.uses[u]? = some use → use.claim ≤ u ∧ use.name = w.nameOf use.claim

def Lease.Alive (l : Lease) : Prop :=
  ∀ (c : ℕ) (claim : Claim), l.claims.get? c = some claim → 0 < claim.users ∨ claim.retained = true

/-- A claim stands for the uses that have not ended, and for one terminal if it is retained. -/
structure LeaseOk (w : World) (i : ℕ) (l : Lease) : Prop where
  unique : l.claims.Unique
  cost : 0 < l.cost
  claimCost : ∀ (c : ℕ) (claim : Claim), l.claims.get? c = some claim → 0 < claim.cost
  users : ∀ c : ℕ, ((l.claims.get? c).map (·.users)).getD 0 = w.count i c
  made : ∀ (c : ℕ) (claim : Claim), l.claims.get? c = some claim → c < w.uses.length
  terminals : ∀ (name : String) (c : ℕ), l.terminals.get? name = some c →
    w.nameOf c = some name ∧ ∃ claim, l.claims.get? c = some claim ∧ claim.retained = true
  retained : ∀ (c : ℕ) (claim : Claim), l.claims.get? c = some claim → claim.retained = true →
    ∃ name, l.terminals.get? name = some c
  fenced : l.fenced = true → l.aborted = true

variable {w w' : World} {i : ℕ} {l l' : Lease}

lemma idle_iff : l.idle = true ↔ ∀ c, l.claims.get? c = none := by
  rw [← Dict.values_eq_nil_iff]
  unfold Lease.idle Dict.values
  rw [List.isEmpty_iff, map_eq_nil_iff]

lemma not_idle_of_get? {c : ℕ} {claim : Claim} (h : l.claims.get? c = some claim) : l.idle = false := by
  rw [← Bool.not_eq_true, idle_iff]
  intro hall
  rw [hall c] at h
  cases h

lemma activeCost_of_idle (h : l.idle = true) : activeCost l = 0 := by
  unfold Lease.idle at h
  unfold activeCost Dict.values
  rw [List.isEmpty_iff.mp h]
  rfl

lemma LeaseOk.cost_of_mem (h : LeaseOk w i l) {claim : Claim} (hmem : claim ∈ l.claims.values) : 0 < claim.cost := by
  obtain ⟨e, he, rfl⟩ := mem_map.mp hmem
  exact h.claimCost e.1 e.2 ((Dict.get?_eq_some_iff h.unique).mpr he)

lemma LeaseOk.activeCost_nonneg (h : LeaseOk w i l) : 0 ≤ activeCost l := by
  apply sum_nonneg
  intro cost hcost
  obtain ⟨claim, hclaim, rfl⟩ := mem_map.mp hcost
  exact (h.cost_of_mem hclaim).le

lemma LeaseOk.activeCost_pos (h : LeaseOk w i l) (hbusy : l.idle = false) : 0 < activeCost l := by
  apply sum_pos
  · intro cost hcost
    obtain ⟨claim, hclaim, rfl⟩ := mem_map.mp hcost
    exact h.cost_of_mem hclaim
  · unfold Lease.idle at hbusy
    unfold Dict.values
    simpa using hbusy

lemma LeaseOk.due_pos (h : LeaseOk w i l) (hlive : l.live = true) : 0 < l.due := by
  have hcost := h.cost
  have hactive := h.activeCost_nonneg
  unfold Lease.live at hlive
  simp only [Bool.and_eq_true, Bool.not_eq_true', Bool.or_eq_true] at hlive
  obtain ⟨hfenced, hholds⟩ := hlive
  unfold Lease.due leaseCost
  rw [hfenced, if_neg Bool.false_ne_true]
  dsimp only
  rcases hholds with haborted | hbusy
  · rw [haborted, if_neg Bool.false_ne_true]
    split_ifs
    · exact hcost
    · exact hcost
    · exact lt_max_of_lt_left hcost
  · have hpos := h.activeCost_pos hbusy
    rw [hbusy, if_neg Bool.false_ne_true]
    split
    · exact hcost
    · exact lt_max_of_lt_right hpos

lemma due_of_not_live (hlive : l.live = false) : l.due = 0 := by
  unfold Lease.live at hlive
  unfold Lease.due leaseCost
  cases hfenced : l.fenced with
  | true => rfl
  | false =>
    rw [hfenced] at hlive
    simp only [Bool.not_false, Bool.true_and, Bool.or_eq_false_iff, Bool.not_eq_false'] at hlive
    obtain ⟨haborted, hidle⟩ := hlive
    rw [haborted, hidle, activeCost_of_idle hidle]
    simp

lemma LeaseOk.due_nonneg (h : LeaseOk w i l) : 0 ≤ l.due := by
  cases hlive : l.live with
  | true => exact (h.due_pos hlive).le
  | false => exact (due_of_not_live hlive).ge

theorem LeaseOk.mono (h : LeaseOk w i l) (hcount : ∀ c : ℕ, w'.count i c = w.count i c)
    (hlength : w.uses.length ≤ w'.uses.length) (hnameOf : ∀ c < w.uses.length, w'.nameOf c = w.nameOf c) :
    LeaseOk w' i l := by
  refine ⟨h.unique, h.cost, h.claimCost, ?_, ?_, ?_, h.retained, h.fenced⟩
  · intro c
    rw [hcount, h.users]
  · intro c claim hc
    exact lt_of_lt_of_le (h.made c claim hc) hlength
  · intro name c hc
    obtain ⟨hname, claim, hclaim, hretained⟩ := h.terminals name c hc
    rw [hnameOf c (h.made c claim hclaim)]
    exact ⟨hname, claim, hclaim, hretained⟩

def World.share (w : World) (m : String) (i : ℕ) : ℚ :=
  ((w.leases[i]?).map fun l => if l.machineId = m then l.due else 0).getD 0

/-- Every lease in order, and in its machine's set exactly while it is live. -/
structure Books (w : World) : Prop where
  lease : ∀ (i : ℕ) (l : Lease), w.leases[i]? = some l → LeaseOk w i l
  alive : ∀ (i : ℕ) (l : Lease), w.leases[i]? = some l → l.Alive
  names : w.Named
  placed : ∀ use ∈ w.uses, use.lease < w.leases.length
  own : ∀ (m : String) (i : ℕ), i ∈ w.set m → ∃ l, w.leases[i]? = some l ∧ l.machineId = m
  registered : ∀ (i : ℕ) (l : Lease), w.leases[i]? = some l → (i ∈ w.set l.machineId ↔ l.live = true)
  nodup : ∀ m : String, (w.set m).Nodup

lemma Books.live (h : Books w) {m : String} (hi : i ∈ w.set m) :
    ∃ l, w.leases[i]? = some l ∧ l.machineId = m ∧ l.live = true := by
  obtain ⟨l, hl, rfl⟩ := h.own m i hi
  exact ⟨l, hl, rfl, (h.registered i l hl).mp hi⟩

lemma Books.costOf (h : Books w) {m : String} (hi : i ∈ w.set m) : w.costOf i = w.share m i := by
  obtain ⟨l, hl, hmachine, hlive⟩ := h.live hi
  have hfenced : l.fenced = false := by
    unfold Lease.live at hlive
    simp only [Bool.and_eq_true, Bool.not_eq_true'] at hlive
    exact hlive.1
  unfold World.costOf World.share
  rw [hl, map_some, map_some, if_pos hmachine, Lease.due, hfenced]
  rfl

lemma Books.share_of_not_mem (h : Books w) {m : String} (hi : i ∉ w.set m) : w.share m i = 0 := by
  unfold World.share
  cases hl : w.leases[i]? with
  | none => rfl
  | some l =>
    rw [map_some, getD_some]
    split
    · rename_i hmachine
      apply due_of_not_live
      rw [← Bool.not_eq_true, ← h.registered i l hl, hmachine]
      exact hi
    · rfl

theorem Books.used_eq (h : Books w) (m : String) : w.used m = ∑ i ∈ range w.leases.length, w.share m i := by
  have hlist : w.used m = ∑ i ∈ (w.set m).toFinset, w.costOf i := (sum_toFinset w.costOf (h.nodup m)).symm
  rw [hlist]
  have hshare : ∑ i ∈ (w.set m).toFinset, w.costOf i = ∑ i ∈ (w.set m).toFinset, w.share m i := by
    apply Finset.sum_congr rfl
    intro i hi
    exact h.costOf (mem_toFinset.mp hi)
  rw [hshare]
  apply Finset.sum_subset
  · intro i hi
    obtain ⟨l, hl, -⟩ := h.own m i (mem_toFinset.mp hi)
    exact Finset.mem_range.mpr (List.getElem?_eq_some_iff.mp hl).1
  · intro i _ hi
    exact h.share_of_not_mem fun hmem => hi (mem_toFinset.mpr hmem)

theorem Books.used_replace (h : Books w) (h' : Books w') (hl : w.leases[i]? = some l)
    (hleases : w'.leases = w.leases.set i l') (hmachine : l'.machineId = l.machineId) (m : String) :
    w'.used m = w.used m + if l.machineId = m then l'.due - l.due else 0 := by
  have hi : i ∈ range w.leases.length := Finset.mem_range.mpr (List.getElem?_eq_some_iff.mp hl).1
  have hself : w'.share m i = w.share m i + if l.machineId = m then l'.due - l.due else 0 := by
    unfold World.share
    rw [hleases, Slots.get?_set hl, if_pos rfl, hl]
    simp only [map_some, getD_some, hmachine]
    split
    · ring
    · ring
  have hothers : ∑ j ∈ (range w.leases.length).erase i, w'.share m j = ∑ j ∈ (range w.leases.length).erase i, w.share m j := by
    apply Finset.sum_congr rfl
    intro j hj
    unfold World.share
    rw [hleases, Slots.get?_set hl, if_neg (Finset.ne_of_mem_erase hj)]
  rw [h.used_eq, h'.used_eq, hleases, length_set, ← Finset.add_sum_erase _ _ hi, ← Finset.add_sum_erase _ _ hi, hothers,
    hself]
  ring

/-- A step that makes lease `i` into `l'` and takes it out of its machine's set when it is no longer live. -/
structure Replaced (w : World) (i : ℕ) (l' : Lease) (w' : World) : Prop where
  leases : w'.leases = w.leases.set i l'
  members : w'.members = w.members
  set : ∀ m : String, w'.set m = if l'.live = false ∧ m = l'.machineId then (w.set m).erase i else w.set m

/-- A step of lease `i` alone as the other leases see it: their uses, and the names of the claims made so far. -/
structure Aside (w : World) (i : ℕ) (w' : World) : Prop where
  count : ∀ j : ℕ, j ≠ i → ∀ c : ℕ, w'.count j c = w.count j c
  length : w.uses.length ≤ w'.uses.length
  nameOf : ∀ c < w.uses.length, w'.nameOf c = w.nameOf c
  names : w'.Named
  placed : ∀ use ∈ w'.uses, use.lease < w.leases.length

lemma Books.replace (h : Books w) (hl : w.leases[i]? = some l) (hr : Replaced w i l' w')
    (hmachine : l'.machineId = l.machineId) (hlive : l'.live = true → l.live = true) (hok : LeaseOk w' i l')
    (halive : l'.Alive)
    (haside : Aside w i w') : Books w' := by
  have hget : ∀ j, w'.leases[j]? = if j = i then some l' else w.leases[j]? := by
    intro j
    rw [hr.leases, Slots.get?_set hl]
  have hsub : ∀ m j, j ∈ w'.set m → j ∈ w.set m := by
    intro m j hj
    rw [hr.set] at hj
    split at hj
    · exact mem_of_mem_erase hj
    · exact hj
  refine ⟨?_, ?_, haside.names, ?_, ?_, ?_, ?_⟩
  · intro j k hk
    rw [hget] at hk
    split at hk
    · rename_i hj
      rw [hj]
      cases hk
      exact hok
    · rename_i hj
      exact (h.lease j k hk).mono (haside.count j hj) haside.length haside.nameOf
  · intro j k hk
    rw [hget] at hk
    split at hk
    · cases hk
      exact halive
    · exact h.alive j k hk
  · intro use huse
    rw [hr.leases, length_set]
    exact haside.placed use huse
  · intro m j hj
    obtain ⟨k, hk, hkm⟩ := h.own m j (hsub m j hj)
    rw [hget]
    split
    · rename_i hji
      rw [hji, hl] at hk
      cases hk
      exact ⟨l', rfl, hmachine.trans hkm⟩
    · exact ⟨k, hk, hkm⟩
  · intro j k hk
    rw [hget] at hk
    rw [hr.set]
    split at hk
    · rename_i hj
      rw [hj]
      cases hk
      split
      · rename_i hgone
        rw [hgone.1, iff_false_right Bool.false_ne_true]
        intro hmem
        exact (h.nodup _).not_mem_erase hmem
      · rename_i hstays
        have hlives : l'.live = true := by
          by_contra hdead
          exact hstays ⟨by simpa using hdead, rfl⟩
        rw [hmachine, h.registered i l hl]
        exact ⟨fun _ => hlives, fun _ => hlive hlives⟩
    · rename_i hj
      have hreg := h.registered j k hk
      split
      · rw [mem_erase_of_ne hj]
        exact hreg
      · exact hreg
  · intro m
    rw [hr.set]
    split
    · exact (h.nodup m).erase i
    · exact h.nodup m

lemma set_remove (m m' : String) : (w.remove i m').set m = if m = m' then (w.set m).erase i else w.set m := by
  unfold World.remove
  split
  · rename_i hnone
    split
    · rename_i hm
      unfold World.set
      rw [hm, hnone]
      rfl
    · rfl
  · rename_i members hmembers
    unfold World.set
    dsimp only
    rw [Dict.get?_set]
    split
    · rename_i hm
      rw [hm, hmembers]
      rfl
    · rfl

@[simp] theorem remove_leases (m : String) : (w.remove i m).leases = w.leases := by
  unfold World.remove
  split <;> rfl

@[simp] theorem remove_members (m : String) : (w.remove i m).members = w.members := by
  unfold World.remove
  split <;> rfl

@[simp] theorem remove_uses (m : String) : (w.remove i m).uses = w.uses := by
  unfold World.remove
  split <;> rfl

lemma Books.replaced_put (h : Books w) (hl : w.leases[i]? = some l) (hmachine : l'.machineId = l.machineId)
    (hlive : l'.live = l.live) (uses : List Use) : Replaced w i l' ({ w with uses := uses }.put i l') := by
  refine ⟨rfl, rfl, ?_⟩
  intro m
  split
  · rename_i hgone
    obtain ⟨hdead, rfl⟩ := hgone
    symm
    apply erase_of_not_mem
    rw [hmachine, h.registered i l hl, ← hlive, hdead]
    exact Bool.false_ne_true
  · rfl

lemma replaced_remove (hdead : l'.live = false) (uses : List Use) :
    Replaced w i l' (({ w with uses := uses }.put i l').remove i l'.machineId) := by
  refine ⟨by simp [World.put], by simp [World.put], ?_⟩
  intro m
  rw [set_remove]
  simp only [hdead, true_and]
  rfl

lemma LeaseOk.congr (h : LeaseOk w i l) (hclaims : l'.claims = l.claims) (hcost : l'.cost = l.cost)
    (hterminals : l'.terminals = l.terminals) (hfenced : l'.fenced = true → l'.aborted = true) : LeaseOk w i l' := by
  obtain ⟨unique, cost, claimCost, users, made, terminals, retained, -⟩ := h
  rw [← hclaims] at unique claimCost users made terminals retained
  rw [← hterminals] at terminals retained
  rw [← hcost] at cost
  exact ⟨unique, cost, claimCost, users, made, terminals, retained, hfenced⟩

lemma dropUnused_get? (c c' : ℕ) : (l.dropUnused c).claims.get? c' = l.claims.get? c' ∨
    c' = c ∧ (l.dropUnused c).claims.get? c' = none ∧ ∃ claim, l.claims.get? c = some claim ∧
      claim.users = 0 ∧ claim.retained = false := by
  unfold Lease.dropUnused
  dsimp only
  split
  · rename_i hunused
    rw [Dict.get?_erase]
    split
    · rename_i hc
      rw [Option.any_eq_true] at hunused
      obtain ⟨claim, hclaim, hends⟩ := hunused
      simp only [decide_eq_true_eq, Bool.not_eq_true] at hends
      exact .inr ⟨hc, rfl, claim, hclaim, hends⟩
    · exact .inl rfl
  · exact .inl rfl

lemma dropUnused_of_some {c c' : ℕ} {claim : Claim} (h : (l.dropUnused c).claims.get? c' = some claim) :
    l.claims.get? c' = some claim := by
  rcases dropUnused_get? (l := l) c c' with hsame | ⟨-, hnone, -⟩
  · rw [← hsame, h]
  · rw [hnone] at h
    cases h

lemma LeaseOk.dropUnused (h : LeaseOk w i l) (c : ℕ) : LeaseOk w i (l.dropUnused c) := by
  refine ⟨?_, h.cost, ?_, ?_, ?_, ?_, ?_, h.fenced⟩
  · unfold Lease.dropUnused
    dsimp only
    split
    · exact h.unique.erase c
    · exact h.unique
  · intro c' claim hc
    exact h.claimCost c' claim (dropUnused_of_some hc)
  · intro c'
    rw [← h.users]
    rcases dropUnused_get? (l := l) c c' with hsame | ⟨rfl, hnone, claim, hclaim, husers, -⟩
    · rw [hsame]
    · rw [hnone, hclaim, map_some, getD_some, husers]
      rfl
  · intro c' claim hc
    exact h.made c' claim (dropUnused_of_some hc)
  · intro name c' hc
    obtain ⟨hname, claim, hclaim, hretained⟩ := h.terminals name c' hc
    refine ⟨hname, claim, ?_, hretained⟩
    rcases dropUnused_get? (l := l) c c' with hsame | ⟨rfl, -, dropped, hdropped, -, hfree⟩
    · rw [hsame, hclaim]
    · rw [hclaim] at hdropped
      cases hdropped
      rw [hretained] at hfree
      cases hfree
  · intro c' claim hc
    exact h.retained c' claim (dropUnused_of_some hc)

theorem dropUnused_alive {c : ℕ}
    (h : ∀ (c' : ℕ) (claim : Claim), c' ≠ c → l.claims.get? c' = some claim → 0 < claim.users ∨ claim.retained = true) :
    (l.dropUnused c).Alive := by
  intro c' claim hc
  by_cases hcc : c' = c
  · subst hcc
    have hold := dropUnused_of_some hc
    by_contra hdead
    have hunused : (l.claims.get? c').any (fun c => decide (c.users = 0 ∧ ¬ c.retained = true)) = true := by
      rw [hold]
      simp only [Option.any_some, decide_eq_true_eq]
      exact ⟨by omega, fun hretained => hdead (.inr hretained)⟩
    unfold Lease.dropUnused at hc
    dsimp only at hc
    rw [if_pos hunused, Dict.get?_erase, if_pos rfl] at hc
    cases hc
  · exact h c' claim hcc (dropUnused_of_some hc)

lemma LeaseOk.activeCost_dropUnused (h : LeaseOk w i l) (c : ℕ) : activeCost (l.dropUnused c) ≤ activeCost l := by
  unfold Lease.dropUnused
  split
  · rename_i hunused
    rw [Option.any_eq_true] at hunused
    obtain ⟨claim, hclaim, -⟩ := hunused
    have hsum : (l.claims.erase c).sum (·.cost) + claim.cost = l.claims.sum (·.cost) :=
      Dict.sum_erase _ h.unique hclaim
    have hpos := h.claimCost c claim hclaim
    change (l.claims.erase c).sum (·.cost) ≤ l.claims.sum (·.cost)
    linarith
  · exact le_refl _

/-- The same lease later on: once released it stays so, and from then on it owes ever less. -/
structure Later (l l' : Lease) : Prop where
  machine : l'.machineId = l.machineId
  exclusive : l'.exclusive = l.exclusive
  cost : l'.cost = l.cost
  aborted : l.aborted = true → l'.aborted = true
  fenced : l.fenced = true → l'.fenced = true
  ended : l.aborted = true → l'.due ≤ l.due

lemma Later.refl (l : Lease) : Later l l := ⟨rfl, rfl, rfl, id, id, fun _ => le_refl _⟩

lemma Later.trans {l'' : Lease} (h : Later l l') (h' : Later l' l'') : Later l l'' :=
  ⟨h'.machine.trans h.machine, h'.exclusive.trans h.exclusive, h'.cost.trans h.cost,
    fun haborted => h'.aborted (h.aborted haborted), fun hfenced => h'.fenced (h.fenced hfenced),
    fun haborted => (h'.ended (h.aborted haborted)).trans (h.ended haborted)⟩

/-- A step of lease `i` alone, behind which it owes no more than before. -/
structure Gives (w : World) (i : ℕ) (l l' : Lease) (w' : World) : Prop where
  was : w.leases[i]? = some l
  replaced : Replaced w i l' w'
  later : Later l l'
  less : l'.due ≤ l.due
  books : Books w'

lemma leaseCost_le (hcost : 0 < l.cost) (hcosts : l'.cost = l.cost) (hexclusive : l'.exclusive = l.exclusive)
    (hactive : activeCost l' ≤ activeCost l) (haborted : l.aborted = true → l'.aborted = true)
    (hidle : l.idle = true → l'.idle = true) : leaseCost l' ≤ leaseCost l := by
  have hreserved : (if l'.aborted then 0 else l'.cost) ≤ if l.aborted then 0 else l.cost := by
    rw [hcosts]
    by_cases h : l.aborted = true
    · rw [if_pos h, if_pos (haborted h)]
    · rw [if_neg h]
      split
      · exact hcost.le
      · exact le_refl _
  have hbound : (if l'.aborted then 0 else l'.cost) ≤ l.cost := by
    rw [hcosts]
    split
    · exact hcost.le
    · exact le_refl _
  unfold leaseCost
  rw [hexclusive]
  dsimp only
  split
  · by_cases h : l.idle = true
    · rw [if_pos h, if_pos (hidle h)]
      exact hreserved
    · rw [if_neg h]
      split
      · exact hbound
      · rw [hcosts]
  · exact max_le_max hreserved hactive

lemma due_le (hcost : leaseCost l' ≤ leaseCost l) (hfenced : l.fenced = true → l'.fenced = true) (hnonneg : 0 ≤ l.due) :
    l'.due ≤ l.due := by
  unfold Lease.due at hnonneg ⊢
  by_cases h : l.fenced = true
  · rw [if_pos h, if_pos (hfenced h)]
  · rw [if_neg h] at hnonneg ⊢
    split
    · exact hnonneg
    · exact hcost

@[simp] theorem arm_live (ttl now : ℤ) : (l.arm ttl now).live = l.live := rfl

theorem Books.replaced_rest (h : Books w) (hl : w.leases[i]? = some l) (hmachine : l'.machineId = l.machineId)
    (hfenced : l'.fenced = l.fenced) (haborted : l'.aborted = l.aborted) (hbusy : l.idle = false) (uses : List Use)
    (ttl now : ℤ) :
    Replaced w i (if l'.idle ∧ ¬ l'.aborted then l'.arm ttl now else l') ({ w with uses := uses }.rest i l' (l'.arm ttl now)) := by
  have hdone := (h.lease i l hl).fenced
  unfold World.rest
  by_cases hidle : l'.idle = true
  · by_cases hab : l'.aborted = true
    · rw [if_neg fun hrest => hrest.2 hab, if_neg (not_not_intro hidle), if_pos hab]
      exact replaced_remove (by simp [Lease.live, hab, hidle]) uses
    · have hopen : l.aborted = false := by simpa [haborted] using hab
      have hunfenced : l.fenced = false := by
        rw [← Bool.not_eq_true]
        intro hf
        rw [hdone hf] at hopen
        cases hopen
      have hlive : (l'.arm ttl now).live = l.live := by
        rw [arm_live]
        simp [Lease.live, hfenced, haborted, hopen, hunfenced]
      have harmed : (l'.arm ttl now).machineId = l.machineId := hmachine
      rw [if_pos ⟨hidle, hab⟩, if_neg (not_not_intro hidle), if_neg hab]
      exact h.replaced_put hl harmed hlive uses
  · have hbusy' : l'.idle = false := by simpa using hidle
    rw [if_neg fun hrest => hidle hrest.1, if_pos hidle]
    exact h.replaced_put hl hmachine (by simp [Lease.live, hfenced, haborted, hbusy, hbusy']) uses

lemma Books.aside (h : Books w) (i : ℕ) : Aside w i w :=
  ⟨fun _ _ _ => rfl, le_refl _, fun _ _ => rfl, h.names, h.placed⟩

theorem Aside.congr {w'' : World} (h : Aside w i w') (huses : w''.uses = w'.uses) : Aside w i w'' := by
  obtain ⟨count, length, nameOf, names, placed⟩ := h
  unfold World.count at count
  unfold World.Named at names
  unfold World.nameOf at nameOf names
  rw [← huses] at length names placed
  refine ⟨?_, length, ?_, names, placed⟩
  · unfold World.count
    rw [huses]
    exact count
  · unfold World.nameOf
    rw [huses]
    exact nameOf

lemma LeaseOk.uses (h : LeaseOk w i l) (huses : w'.uses = w.uses) : LeaseOk w' i l := by
  refine h.mono ?_ (le_of_eq (by rw [huses])) ?_
  · intro c
    unfold World.count
    rw [huses]
  · intro c _
    unfold World.nameOf
    rw [huses]

lemma rest_uses (armed : Lease) : (w.rest i l armed).uses = w.uses := by
  unfold World.rest
  split
  · rfl
  · split
    · rw [remove_uses]
      rfl
    · rfl

lemma Books.settle (h : Books w) (hl : w.leases[i]? = some l) {p : Lease} {uses : List Use} {c : ℕ} (ttl now : ℤ)
    (hmachine : p.machineId = l.machineId) (hexclusive : p.exclusive = l.exclusive) (hcost : p.cost = l.cost)
    (hfenced : p.fenced = l.fenced) (haborted : p.aborted = l.aborted) (hbusy : l.idle = false)
    (hactive : activeCost p ≤ activeCost l) (haside : Aside w i { w with uses := uses })
    (hok : LeaseOk { w with uses := uses } i p)
    (halive : ∀ (c' : ℕ) (claim : Claim), c' ≠ c → p.claims.get? c' = some claim → 0 < claim.users ∨ claim.retained = true) :
    ∃ l', Gives w i l l' ({ w with uses := uses }.settle ttl i p c now) ∧ l'.aborted = l.aborted ∧
      l'.due = (p.dropUnused c).due := by
  have hdropped := dropUnused_alive halive
  have hdroppedOk := hok.dropUnused c
  have hdroppedMachine : (p.dropUnused c).machineId = l.machineId := hmachine
  have hr := h.replaced_rest hl hdroppedMachine hfenced haborted hbusy uses ttl now
  have hcosts : leaseCost (p.dropUnused c) ≤ leaseCost l :=
    leaseCost_le (h.lease i l hl).cost hcost hexclusive ((hok.activeCost_dropUnused c).trans hactive)
      (fun hab => haborted.trans hab) (fun hidle => by rw [hidle] at hbusy; cases hbusy)
  have hless : (p.dropUnused c).due ≤ l.due :=
    due_le hcosts (fun hf => hfenced.trans hf) (h.lease i l hl).due_nonneg
  have huses : ({ w with uses := uses }.settle ttl i p c now).uses = uses := rest_uses _
  have haside' : Aside w i ({ w with uses := uses }.settle ttl i p c now) := haside.congr huses
  generalize hl' : (if (p.dropUnused c).idle ∧ ¬ (p.dropUnused c).aborted then (p.dropUnused c).arm ttl now
    else p.dropUnused c) = l' at hr
  have hsame : l'.claims = (p.dropUnused c).claims ∧ l'.terminals = p.terminals ∧ l'.cost = p.cost ∧
      l'.machineId = p.machineId ∧ l'.exclusive = p.exclusive ∧ l'.fenced = p.fenced ∧ l'.aborted = p.aborted ∧
      l'.due = (p.dropUnused c).due := by
    rw [← hl']
    split
    · exact ⟨rfl, rfl, rfl, rfl, rfl, rfl, rfl, rfl⟩
    · exact ⟨rfl, rfl, rfl, rfl, rfl, rfl, rfl, rfl⟩
  obtain ⟨hclaims, hterminals, hc, hm, he, hf, ha, hdue⟩ := hsame
  have hlive : l'.live = true → l.live = true := by
    intro hlives
    unfold Lease.live at hlives ⊢
    rw [hf, hfenced] at hlives
    simp only [Bool.and_eq_true, hbusy, Bool.not_false, Bool.or_true, and_true]
    exact (Bool.and_eq_true _ _ ▸ hlives).1
  refine ⟨l', ⟨hl, hr, ⟨hm.trans hmachine, he.trans hexclusive, hc.trans hcost, fun hab => ?_,
    fun hfence => (hf.trans hfenced).trans hfence, fun _ => ?_⟩, ?_, ?_⟩, ha.trans haborted, hdue⟩
  · rw [ha, haborted, hab]
  · rw [hdue]
    exact hless
  · rw [hdue]
    exact hless
  · refine h.replace hl hr (hm.trans hmachine) hlive ?_ ?_ haside'
    · have hfinal := hdroppedOk.uses huses
      refine hfinal.congr hclaims hc hterminals ?_
      rw [hf, ha]
      exact hok.fenced
    · unfold Lease.Alive
      rw [hclaims]
      exact hdropped

theorem Books.abort (h : Books w) (hl : w.leases[i]? = some l) (hlater : Later l l') (hclaims : l'.claims = l.claims)
    (hterminals : l'.terminals = l.terminals) (haborted : l'.aborted = true) (hfenced : l.fenced = true → l'.fenced = true)
    (hr : Replaced w i l' w') (huses : w'.uses = w.uses) : Gives w i l l' w' := by
  have hactive : activeCost l' = activeCost l := by
    unfold activeCost
    rw [hclaims]
  have hidle : l'.idle = l.idle := by
    unfold Lease.idle
    rw [hclaims]
  have hcosts : leaseCost l' ≤ leaseCost l :=
    leaseCost_le (h.lease i l hl).cost hlater.cost hlater.exclusive hactive.le hlater.aborted fun hl => hidle.trans hl
  have hlive : l'.live = true → l.live = true := by
    unfold Lease.live
    rw [haborted, hidle]
    cases hf : l.fenced with
    | true => simp [hfenced hf]
    | false =>
      cases l.idle with
      | true | false => simp
  have haside := (h.aside i).congr huses
  refine ⟨hl, hr, hlater, due_le hcosts hfenced (h.lease i l hl).due_nonneg, ?_⟩
  refine h.replace hl hr hlater.machine hlive ?_ ?_ haside
  · exact ((h.lease i l hl).congr hclaims hlater.cost hterminals fun _ => haborted).uses huses
  · unfold Lease.Alive
    rw [hclaims]
    exact h.alive i l hl

lemma abort_live : l.abort.live = (!l.fenced && !l.idle) := rfl

lemma later_abort (hok : LeaseOk w i l) : Later l l.abort := by
  refine ⟨rfl, rfl, rfl, fun _ => rfl, id, fun haborted => ?_⟩
  have hcosts : leaseCost l.abort ≤ leaseCost l := leaseCost_le hok.cost rfl rfl le_rfl (fun _ => rfl) fun hidle => hidle
  exact due_le hcosts id hok.due_nonneg

lemma Books.release (h : Books w) (hl : w.leases[i]? = some l) : Gives w i l l.abort (w.release i l) := by
  have hr : Replaced w i l.abort (w.release i l) := by
    unfold World.release
    split
    · rename_i hidle
      have hdead : l.abort.live = false := by
        rw [abort_live, hidle, Bool.not_true, Bool.and_false]
      exact replaced_remove hdead w.uses
    · rename_i hbusy
      have hlive : l.abort.live = l.live := by
        have hidle : l.idle = false := by simpa using hbusy
        rw [abort_live, Lease.live, hidle, Bool.not_false, Bool.or_true]
      have hmachine : l.abort.machineId = l.machineId := rfl
      exact h.replaced_put hl hmachine hlive w.uses
  have huses : (w.release i l).uses = w.uses := by
    unfold World.release
    split
    · rw [remove_uses]
      rfl
    · rfl
  exact h.abort hl (later_abort (h.lease i l hl)) rfl rfl rfl id hr huses

def Lease.detached (l : Lease) (reason : LeaseInvalidation) : Lease := (l.invalidate reason).abort

lemma Books.invalidate (h : Books w) (hl : w.leases[i]? = some l) (reason : LeaseInvalidation) :
    Gives w i l (l.detached reason) (w.invalidate i reason) := by
  have hlater : Later l (l.detached reason) :=
    ⟨rfl, rfl, rfl, fun _ => rfl, fun _ => rfl, fun _ => (h.lease i l hl).due_nonneg⟩
  have hinvalidate : w.invalidate i reason = (w.release i (l.invalidate reason)).remove i l.machineId := by
    unfold World.invalidate
    rw [hl]
  have hput : (w.release i (l.invalidate reason)).leases = w.leases.set i (l.detached reason) ∧
      (w.release i (l.invalidate reason)).members = w.members ∧ (w.release i (l.invalidate reason)).uses = w.uses := by
    unfold World.release
    split
    · rw [remove_leases, remove_members, remove_uses]
      exact ⟨rfl, rfl, rfl⟩
    · exact ⟨rfl, rfl, rfl⟩
  have hset : ∀ m, ((w.release i (l.invalidate reason)).remove i l.machineId).set m =
      if m = l.machineId then (w.set m).erase i else w.set m := by
    intro m
    have hmachine : (l.invalidate reason).machineId = l.machineId := rfl
    rw [set_remove]
    unfold World.release
    split
    · rename_i hm
      split
      · rw [set_remove, hmachine, if_pos hm]
        exact erase_of_not_mem (h.nodup m).not_mem_erase
      · rfl
    · rename_i hm
      split
      · rw [set_remove, hmachine, if_neg hm]
        rfl
      · rfl
  obtain ⟨hleases, hmembers, huses⟩ := hput
  have hr : Replaced w i (l.detached reason) (w.invalidate i reason) := by
    rw [hinvalidate]
    refine ⟨by rw [remove_leases, hleases], by rw [remove_members, hmembers], ?_⟩
    intro m
    have hdead : (l.detached reason).live = false := rfl
    have hmachine : (l.detached reason).machineId = l.machineId := rfl
    rw [hset, hdead, hmachine]
    simp only [true_and]
  exact h.abort hl hlater rfl rfl rfl (fun _ => rfl) hr (by rw [hinvalidate, remove_uses, huses])

lemma count_set {u : ℕ} {use : Use} (hu : w.uses[u]? = some use) (progress : Progress) (j c : ℕ) :
    ({ w with uses := w.uses.set u { use with progress := progress } } : World).count j c +
        (if use.lease = j ∧ use.claim = c ∧ use.progress ≠ .ended then 1 else 0) =
      w.count j c + if use.lease = j ∧ use.claim = c ∧ progress ≠ .ended then 1 else 0 := by
  have hcount := Slots.countP_set
    (fun use : Use => decide (use.lease = j ∧ use.claim = c ∧ use.progress ≠ .ended)) hu { use with progress := progress }
  simpa [World.count] using hcount

lemma nameOf_set {u : ℕ} {use : Use} (hu : w.uses[u]? = some use) (progress : Progress) (c : ℕ) :
    ({ w with uses := w.uses.set u { use with progress := progress } } : World).nameOf c = w.nameOf c := by
  unfold World.nameOf
  dsimp only
  rw [Slots.get?_set hu]
  split
  · rename_i hc
    rw [hc, hu]
    rfl
  · rfl

lemma Books.progress (h : Books w) {u : ℕ} {use : Use} (hu : w.uses[u]? = some use) (progress : Progress) :
    Aside w use.lease { w with uses := w.uses.set u { use with progress := progress } } := by
  refine ⟨?_, by simp, fun c _ => nameOf_set hu progress c, ?_, ?_⟩
  · intro j hj c
    have hcount := count_set hu progress j c
    rw [if_neg fun hsame => hj hsame.1.symm, if_neg fun hsame => hj hsame.1.symm] at hcount
    exact hcount
  · intro v other hv
    simp only [nameOf_set hu]
    rcases Slots.set_cases hu hv with ⟨rfl, rfl⟩ | ⟨-, hold⟩
    · exact h.names v use hu
    · exact h.names v other hold
  · intro other hother
    rcases mem_or_eq_of_mem_set hother with hold | rfl
    · exact h.placed other hold
    · exact h.placed use (mem_of_getElem? hu)

theorem LeaseOk.activeCost_set (h : LeaseOk w i l) {c : ℕ} {claim : Claim} (hc : l.claims.get? c = some claim) (users : ℕ)
    (retained : Bool) : ((l.claims.set c ⟨claim.cost, users, retained⟩).values.map (·.cost)).sum = activeCost l := by
  have hsum := Dict.sum_set_of_some (fun claim : Claim => claim.cost) h.unique hc (v := ⟨claim.cost, users, retained⟩)
  change (l.claims.set c ⟨claim.cost, users, retained⟩).sum (·.cost) = l.claims.sum (·.cost)
  simpa using hsum

lemma setClaim_get? (c c' : ℕ) (claim : Claim) :
    (l.setClaim c claim).claims.get? c' = if c' = c then some claim else l.claims.get? c' := Dict.get?_set _ _ _ _

theorem LeaseOk.releaseClaim (h : LeaseOk w i l) {u : ℕ} {use : Use} {claim : Claim} (hu : w.uses[u]? = some use)
    (hi : use.lease = i) (hc : l.claims.get? use.claim = some claim) (hactive : use.progress ≠ .ended) :
    LeaseOk { w with uses := w.uses.set u { use with progress := .ended } } i
      (l.setClaim use.claim { claim with users := claim.users - 1 }) := by
  refine ⟨h.unique.set _ _, h.cost, ?_, ?_, ?_, ?_, ?_, h.fenced⟩
  · intro c d hd
    rw [setClaim_get?] at hd
    split at hd
    · cases hd
      exact h.claimCost use.claim claim hc
    · exact h.claimCost c d hd
  · intro c
    have hcount := count_set hu .ended i c
    have husers := h.users c
    rw [setClaim_get?]
    by_cases hcc : c = use.claim
    · subst hcc
      rw [if_pos ⟨hi, rfl, hactive⟩, if_neg fun hsame => hsame.2.2 rfl] at hcount
      rw [hc] at husers
      simp only [map_some, getD_some] at husers
      rw [if_pos rfl]
      simp only [map_some, getD_some]
      omega
    · rw [if_neg fun hsame => hcc hsame.2.1.symm, if_neg fun hsame => hcc hsame.2.1.symm] at hcount
      rw [if_neg hcc, husers]
      exact hcount.symm
  · intro c d hd
    rw [setClaim_get?] at hd
    simp only [length_set]
    split at hd
    · rename_i hcc
      rw [hcc]
      exact h.made use.claim claim hc
    · exact h.made c d hd
  · intro name c hname
    obtain ⟨hnamed, d, hd, hretained⟩ := h.terminals name c hname
    refine ⟨(nameOf_set hu _ c).trans hnamed, ?_⟩
    rw [setClaim_get?]
    split
    · rename_i hcc
      rw [hcc, hc] at hd
      cases hd
      exact ⟨_, rfl, hretained⟩
    · exact ⟨d, hd, hretained⟩
  · intro c d hd hretained
    rw [setClaim_get?] at hd
    split at hd
    · rename_i hcc
      cases hd
      rw [hcc]
      exact h.retained use.claim claim hc hretained
    · exact h.retained c d hd hretained

lemma setClaim_alive (h : l.Alive) {c : ℕ} {claim : Claim} (c' : ℕ) (d : Claim) (hcc : c' ≠ c)
    (hd : (l.setClaim c claim).claims.get? c' = some d) : 0 < d.users ∨ d.retained = true := by
  rw [setClaim_get?, if_neg hcc] at hd
  exact h c' d hd

def Lease.useEnded (l : Lease) (c : ℕ) (claim : Claim) : Lease :=
  (l.setClaim c { claim with users := claim.users - 1 }).dropUnused c

lemma Books.releaseClaim (h : Books w) {u : ℕ} {use : Use} {claim : Claim} (hu : w.uses[u]? = some use)
    (hl : w.leases[use.lease]? = some l) (hc : l.claims.get? use.claim = some claim) (hactive : use.progress ≠ .ended)
    (ttl now : ℤ) : ∃ l', Gives w use.lease l l' (w.releaseClaim ttl u use l claim now) ∧ l'.aborted = l.aborted ∧
      l'.due = (l.useEnded use.claim claim).due := by
  have hok := h.lease _ l hl
  have hbusy := not_idle_of_get? hc
  have hcosts : activeCost (l.setClaim use.claim { claim with users := claim.users - 1 }) ≤ activeCost l :=
    (hok.activeCost_set hc (claim.users - 1) claim.retained).le
  exact h.settle (p := l.setClaim use.claim { claim with users := claim.users - 1 }) hl ttl now
    rfl rfl rfl rfl rfl hbusy hcosts (h.progress hu .ended) (hok.releaseClaim hu rfl hc hactive)
    (setClaim_alive (h.alive _ l hl))

theorem LeaseOk.opened (h : LeaseOk w i l) {u : ℕ} {use : Use} {name : String} {claim : Claim}
    (hnames : use.name = w.nameOf use.claim) (hu : w.uses[u]? = some use) (hname : use.name = some name)
    (hc : l.claims.get? use.claim = some claim) (hnew : l.terminals.contains name = false)
    (hrunning : use.progress = .running) :
    LeaseOk { w with uses := w.uses.set u { use with progress := .answered } } i
      { l.setClaim use.claim { claim with retained := true } with terminals := l.terminals.set name use.claim } := by
  have hfree : l.terminals.get? name = none := by
    rw [Dict.contains_iff] at hnew
    simpa using hnew
  refine ⟨h.unique.set _ _, h.cost, ?_, ?_, ?_, ?_, ?_, h.fenced⟩
  · intro c d hd
    rw [setClaim_get?] at hd
    split at hd
    · cases hd
      exact h.claimCost use.claim claim hc
    · exact h.claimCost c d hd
  · intro c
    have hcount := count_set hu .answered i c
    simp only [hrunning, ne_eq, reduceCtorEq, not_false_eq_true, and_true, Nat.add_right_cancel_iff] at hcount
    rw [setClaim_get?, hcount, ← h.users c]
    split
    · rename_i hcc
      rw [hcc, hc]
      rfl
    · rfl
  · intro c d hd
    rw [setClaim_get?] at hd
    simp only [length_set]
    split at hd
    · rename_i hcc
      rw [hcc]
      exact h.made use.claim claim hc
    · exact h.made c d hd
  · intro other c hother
    rw [nameOf_set hu]
    dsimp only at hother
    rw [Dict.get?_set] at hother
    split at hother
    · rename_i hsame
      cases hother
      rw [hsame, ← hnames, hname, setClaim_get?, if_pos rfl]
      exact ⟨rfl, _, rfl, rfl⟩
    · obtain ⟨hnamed, d, hd, hretained⟩ := h.terminals other c hother
      refine ⟨hnamed, ?_⟩
      rw [setClaim_get?]
      split
      · exact ⟨_, rfl, rfl⟩
      · exact ⟨d, hd, hretained⟩
  · intro c d hd hretained
    rw [setClaim_get?] at hd
    dsimp only
    split at hd
    · rename_i hcc
      exact ⟨name, by rw [hcc, Dict.get?_set_self]⟩
    · obtain ⟨other, hother⟩ := h.retained c d hd hretained
      refine ⟨other, ?_⟩
      rw [Dict.get?_set_of_ne _ _, hother]
      rintro rfl
      rw [hfree] at hother
      cases hother

theorem Books.put (h : Books w) (hl : w.leases[i]? = some l) {p : Lease} {uses : List Use}
    (hmachine : p.machineId = l.machineId) (hexclusive : p.exclusive = l.exclusive) (hcost : p.cost = l.cost)
    (hfenced : p.fenced = l.fenced) (haborted : p.aborted = l.aborted) (hidle : p.idle = l.idle)
    (hactive : activeCost p ≤ activeCost l) (haside : Aside w i { w with uses := uses })
    (hok : LeaseOk { w with uses := uses } i p) (halive : p.Alive) : Gives w i l p ({ w with uses := uses }.put i p) := by
  have hlive : p.live = l.live := by
    unfold Lease.live
    rw [hfenced, haborted, hidle]
  have hcosts : leaseCost p ≤ leaseCost l :=
    leaseCost_le (h.lease i l hl).cost hcost hexclusive hactive (fun hab => haborted.trans hab) fun hl => hidle.trans hl
  have hless : p.due ≤ l.due := due_le hcosts (fun hf => hfenced.trans hf) (h.lease i l hl).due_nonneg
  have hr := h.replaced_put hl hmachine hlive uses
  have haside' : Aside w i ({ w with uses := uses }.put i p) := haside.congr rfl
  refine ⟨hl, hr, ⟨hmachine, hexclusive, hcost, fun hab => haborted.trans hab, fun hf => hfenced.trans hf,
    fun _ => hless⟩, hless, ?_⟩
  exact h.replace hl hr hmachine (fun hp => hlive.symm.trans hp) (hok.uses rfl) halive haside'

lemma put_self (hl : w.leases[i]? = some l) : w.put i l = w := by
  unfold World.put
  have hset : w.leases.set i l = w.leases := by
    apply ext_getElem?
    intro j
    rw [Slots.get?_set hl]
    split
    · rename_i hj
      rw [hj, hl]
    · rfl
  rw [hset]

lemma Books.opened (h : Books w) {u : ℕ} {use : Use} {name : String} {claim : Claim} (hu : w.uses[u]? = some use)
    (hl : w.leases[use.lease]? = some l) (hc : l.claims.get? use.claim = some claim) (hname : use.name = some name)
    (hrunning : use.progress = .running) : ∃ l', Gives w use.lease l l' (w.opened u use l name claim) ∧ l'.aborted = l.aborted := by
  have hok := h.lease _ l hl
  have haside := h.progress hu .answered
  by_cases hnew : l.terminals.contains name = true
  · have hsame : w.opened u use l name claim =
        { w with uses := w.uses.set u { use with progress := .answered } }.put use.lease l := by
      unfold World.opened
      rw [if_pos hnew, put_self]
      exact hl
    rw [hsame]
    refine ⟨l, h.put hl rfl rfl rfl rfl rfl rfl le_rfl haside ?_ (h.alive _ l hl), rfl⟩
    refine hok.mono ?_ (by simp) fun c _ => nameOf_set hu _ c
    intro c
    have hcount := count_set hu .answered use.lease c
    simpa [hrunning] using hcount
  · have hnew' : l.terminals.contains name = false := by simpa using hnew
    have hopened : w.opened u use l name claim = { w with uses := w.uses.set u { use with progress := .answered } }.put
        use.lease { l.setClaim use.claim { claim with retained := true } with
          terminals := l.terminals.set name use.claim } := by
      unfold World.opened
      rw [if_neg hnew]
      rfl
    rw [hopened]
    have hidle : (l.setClaim use.claim { claim with retained := true }).idle = l.idle := by
      rw [not_idle_of_get? hc]
      exact not_idle_of_get? (Dict.get?_set_self _ _ _)
    refine ⟨_, h.put hl rfl rfl rfl rfl rfl hidle (hok.activeCost_set hc claim.users true).le haside
      (hok.opened (h.names u use hu).2 hu hname hc hnew' hrunning) ?_, rfl⟩
    intro c d hd
    rw [setClaim_get?] at hd
    split at hd
    · cases hd
      exact .inr rfl
    · exact h.alive _ l hl c d hd

def Lease.unretain (l : Lease) (name : String) (c : ℕ) (claim : Claim) : Lease :=
  { l.setClaim c { claim with retained := false } with terminals := l.terminals.erase name }

lemma LeaseOk.unretain (h : LeaseOk w i l) {name : String} {c : ℕ} {claim : Claim}
    (hname : l.terminals.get? name = some c) (hc : l.claims.get? c = some claim) : LeaseOk w i (l.unretain name c claim) := by
  obtain ⟨hnamed, -⟩ := h.terminals name c hname
  refine ⟨h.unique.set _ _, h.cost, ?_, ?_, ?_, ?_, ?_, h.fenced⟩
  · intro d e he
    simp only [Lease.unretain, setClaim_get?] at he
    split at he
    · cases he
      exact h.claimCost c claim hc
    · exact h.claimCost d e he
  · intro d
    simp only [Lease.unretain, setClaim_get?]
    rw [← h.users d]
    split
    · rename_i hd
      rw [hd, hc]
      rfl
    · rfl
  · intro d e he
    simp only [Lease.unretain, setClaim_get?] at he
    split at he
    · rename_i hd
      rw [hd]
      exact h.made c claim hc
    · exact h.made d e he
  · intro other d hother
    simp only [Lease.unretain, Dict.get?_erase] at hother
    split at hother
    · cases hother
    · rename_i hne
      obtain ⟨hnamed', e, he, hretained⟩ := h.terminals other d hother
      refine ⟨hnamed', e, ?_, hretained⟩
      simp only [Lease.unretain, setClaim_get?]
      rw [if_neg, he]
      rintro rfl
      rw [hnamed] at hnamed'
      exact hne (Option.some.inj hnamed').symm
  · intro d e he hretained
    simp only [Lease.unretain, setClaim_get?] at he
    split at he
    · cases he
      cases hretained
    · rename_i hd
      obtain ⟨other, hother⟩ := h.retained d e he hretained
      refine ⟨other, ?_⟩
      simp only [Lease.unretain, Dict.get?_erase]
      rw [if_neg, hother]
      rintro rfl
      rw [hname] at hother
      exact hd (Option.some.inj hother).symm

def Lease.closed (l : Lease) (name : String) : Lease :=
  match l.terminals.get? name with
  | none => l
  | some c =>
    match l.claims.get? c with
    | none => l
    | some claim => (l.unretain name c claim).dropUnused c

/-- The leases of a world later on: none of them owes more, and no set has grown. -/
structure Shrinks (w w' : World) : Prop where
  members : w'.members = w.members
  set : ∀ m : String, (w'.set m).Sublist (w.set m)
  length : w'.leases.length = w.leases.length
  leases : ∀ (i : ℕ) (l : Lease), w.leases[i]? = some l → ∃ l', w'.leases[i]? = some l' ∧ Later l l' ∧ l'.due ≤ l.due
  books : Books w'

lemma Shrinks.refl (h : Books w) : Shrinks w w :=
  ⟨rfl, fun _ => List.Sublist.refl _, rfl, fun _ l hl => ⟨l, hl, .refl l, le_refl _⟩, h⟩

lemma Shrinks.trans {w'' : World} (h : Shrinks w w') (h' : Shrinks w' w'') : Shrinks w w'' := by
  refine ⟨h'.members.trans h.members, fun m => (h'.set m).trans (h.set m), h'.length.trans h.length, ?_, h'.books⟩
  intro i l hl
  obtain ⟨l', hl', hlater, hless⟩ := h.leases i l hl
  obtain ⟨l'', hl'', hlater', hless'⟩ := h'.leases i l' hl'
  exact ⟨l'', hl'', hlater.trans hlater', hless'.trans hless⟩

lemma Gives.shrinks (h : Gives w i l l' w') : Shrinks w w' := by
  refine ⟨h.replaced.members, ?_, ?_, ?_, h.books⟩
  · intro m
    rw [h.replaced.set]
    split
    · exact erase_sublist
    · exact List.Sublist.refl _
  · rw [h.replaced.leases, length_set]
  · intro j k hk
    rw [h.replaced.leases, Slots.get?_set h.was]
    split
    · rename_i hj
      rw [hj, h.was] at hk
      cases hk
      exact ⟨l', rfl, h.later, h.less⟩
    · exact ⟨k, hk, .refl k, le_refl _⟩

lemma closed_of_none {name : String} (h : l.terminals.get? name = none) : l.closed name = l := by
  unfold Lease.closed
  rw [h]

lemma closed_of_some {name : String} {c : ℕ} {claim : Claim} (hname : l.terminals.get? name = some c)
    (hc : l.claims.get? c = some claim) : l.closed name = (l.unretain name c claim).dropUnused c := by
  unfold Lease.closed
  rw [hname]
  dsimp only
  rw [hc]

lemma Books.closeTerminal (h : Books w) (ttl : ℤ) (i : ℕ) (name : String) (now : ℤ) :
    (w.closeTerminal ttl i name now = w ∧ ∀ l, w.leases[i]? = some l → l.closed name = l) ∨
      ∃ l l', Gives w i l l' (w.closeTerminal ttl i name now) ∧ l'.aborted = l.aborted ∧
        l'.due = (l.closed name).due := by
  unfold World.closeTerminal
  split
  · rename_i hnone
    left
    refine ⟨rfl, fun l hl => ?_⟩
    rw [hnone] at hl
    cases hl
  · rename_i l hl
    split
    · rename_i hnone
      left
      refine ⟨rfl, fun k hk => ?_⟩
      obtain rfl := Option.mem_unique hl hk
      exact closed_of_none hnone
    · rename_i c hname
      right
      have hok := h.lease i l hl
      obtain ⟨-, claim, hc, -⟩ := hok.terminals name c hname
      have hbusy := not_idle_of_get? hc
      have hcosts : activeCost (l.unretain name c claim) ≤ activeCost l := (hok.activeCost_set hc claim.users false).le
      obtain ⟨l', hgives, haborted, hdue⟩ := h.settle (p := l.unretain name c claim) (c := c) hl ttl now rfl rfl rfl
        rfl rfl hbusy hcosts (h.aside i) (hok.unretain hname hc) (setClaim_alive (h.alive i l hl))
      rw [hc]
      refine ⟨l, l', hgives, haborted, ?_⟩
      rw [closed_of_some hname hc]
      exact hdue

lemma Books.invalidateAll (h : Books w) (reason : LeaseInvalidation) (ids : List ℕ) :
    Shrinks w (ids.foldl (fun w i => w.invalidate i reason) w) := by
  induction ids generalizing w with
  | nil => exact .refl h
  | cons i ids ih =>
    rw [foldl_cons]
    cases hl : w.leases[i]? with
    | none =>
      have hsame : w.invalidate i reason = w := by
        unfold World.invalidate
        rw [hl]
      rw [hsame]
      exact ih h
    | some l =>
      have hgives := h.invalidate hl reason
      exact hgives.shrinks.trans (ih hgives.books)

def World.use (w : World) (i c : ℕ) (name : Option String) (opens : Bool) : World :=
  { w with uses := w.uses ++ [⟨i, c, name, opens, .running⟩] }

lemma count_use (i c : ℕ) (name : Option String) (opens : Bool) (j d : ℕ) :
    (w.use i c name opens).count j d = w.count j d + if i = j ∧ c = d then 1 else 0 := by
  unfold World.count World.use
  rw [countP_append, countP_singleton]
  simp

lemma nameOf_use (i c : ℕ) (name : Option String) (opens : Bool) {d : ℕ} (hd : d < w.uses.length) :
    (w.use i c name opens).nameOf d = w.nameOf d := by
  unfold World.nameOf World.use
  dsimp only
  rw [getElem?_append_left hd]

lemma nameOf_use_last (i c : ℕ) (name : Option String) (opens : Bool) :
    (w.use i c name opens).nameOf w.uses.length = name := by
  unfold World.nameOf World.use
  simp

/-- The claim a use takes: a terminal's, which bears the name of the use, or a new one. -/
structure Takes (w : World) (l : Lease) (name : Option String) (c : ℕ) (claim : Claim) : Prop where
  named : (w.use 0 c name false).nameOf c = name
  made : c ≤ w.uses.length
  cost : 0 < claim.cost
  users : ((l.claims.get? c).map (·.users)).getD 0 = claim.users
  kept : claim.retained = true → ∃ terminal, l.terminals.get? terminal = some c
  old : ∀ claim' : Claim, l.claims.get? c = some claim' → claim = claim'

lemma Takes.nameOf {name : Option String} {c : ℕ} {claim : Claim} (h : Takes w l name c claim) (i : ℕ) (opens : Bool) :
    (w.use i c name opens).nameOf c = name := by
  have hnamed := h.named
  rcases Nat.lt_or_ge c w.uses.length with hc | hc
  · rw [nameOf_use _ _ _ _ hc] at hnamed ⊢
    exact hnamed
  · obtain rfl : c = w.uses.length := le_antisymm h.made hc
    exact nameOf_use_last _ _ _ _

lemma Books.aside_use (h : Books w) (hl : w.leases[i]? = some l) {name : Option String} {c : ℕ} {claim : Claim} (htakes : Takes w l name c claim)
    (opens : Bool) : Aside w i (w.use i c name opens) := by
  refine ⟨?_, by simp [World.use], fun d hd => nameOf_use _ _ _ _ hd, ?_, ?_⟩
  · intro j hj d
    rw [count_use, if_neg fun hsame => hj hsame.1.symm, Nat.add_zero]
  · intro v use hv
    rcases Slots.append_cases hv with hold | ⟨rfl, rfl⟩
    · obtain ⟨hback, hname⟩ := h.names v use hold
      have hlt := (List.getElem?_eq_some_iff.mp hold).1
      rw [nameOf_use _ _ _ _ (lt_of_le_of_lt hback hlt)]
      exact ⟨hback, hname⟩
    · exact ⟨htakes.made, (htakes.nameOf i opens).symm⟩
  · intro use huse
    rcases mem_append.mp huse with hold | hnew
    · exact h.placed use hold
    · obtain rfl := mem_singleton.mp hnew
      exact (List.getElem?_eq_some_iff.mp hl).1

lemma cancel_claims : l.cancel.claims = l.claims := rfl

lemma LeaseOk.acquire (h : LeaseOk w i l) {name : Option String} {c : ℕ} {claim : Claim} (htakes : Takes w l name c claim)
    (opens : Bool) : LeaseOk (w.use i c name opens) i (l.setClaim c { claim with users := claim.users + 1 }).cancel := by
  refine ⟨h.unique.set _ _, h.cost, ?_, ?_, ?_, ?_, ?_, h.fenced⟩
  · intro d e he
    rw [cancel_claims, setClaim_get?] at he
    split at he
    · cases he
      exact htakes.cost
    · exact h.claimCost d e he
  · intro d
    rw [cancel_claims, setClaim_get?, count_use]
    by_cases hd : d = c
    · rw [if_pos hd, if_pos ⟨rfl, hd.symm⟩, hd, ← h.users c, htakes.users]
      rfl
    · rw [if_neg hd, if_neg fun hsame => hd hsame.2.symm, h.users d, Nat.add_zero]
  · intro d e he
    rw [cancel_claims, setClaim_get?] at he
    simp only [World.use, length_append, length_singleton]
    split at he
    · rename_i hd
      rw [hd]
      exact Nat.lt_succ_of_le htakes.made
    · exact Nat.lt_succ_of_lt (h.made d e he)
  · intro terminal d hterminal
    obtain ⟨hnamed, e, he, hretained⟩ := h.terminals terminal d hterminal
    refine ⟨(nameOf_use _ _ _ _ (h.made d e he)).trans hnamed, ?_⟩
    rw [cancel_claims, setClaim_get?]
    split
    · rename_i hd
      rw [hd] at he
      exact ⟨_, rfl, by rw [htakes.old e he, hretained]⟩
    · exact ⟨e, he, hretained⟩
  · intro d e he hretained
    rw [cancel_claims, setClaim_get?] at he
    split at he
    · rename_i hd
      cases he
      rw [hd]
      exact htakes.kept hretained
    · exact h.retained d e he hretained

lemma setClaim_activeCost_of_none (c : ℕ) (claim : Claim) (hc : l.claims.get? c = none) :
    activeCost (l.setClaim c claim) = activeCost l + claim.cost :=
  Dict.sum_set_of_none (fun claim : Claim => claim.cost) hc

theorem due_of_open (hok : LeaseOk w i l) (haborted : l.aborted = false) :
    l.due = leaseCost l ∧ leaseCost l = if l.exclusive then l.cost else max l.cost (activeCost l) := by
  have hfenced : l.fenced = false := by
    rw [← Bool.not_eq_true]
    intro hf
    rw [hok.fenced hf] at haborted
    cases haborted
  constructor
  · unfold Lease.due
    rw [hfenced, if_neg Bool.false_ne_true]
  · unfold leaseCost
    rw [haborted, if_neg Bool.false_ne_true]
    dsimp only
    split
    · rw [ite_self]
    · rfl

theorem LeaseOk.take_due (h : LeaseOk w i l) {c : ℕ} {claim : Claim} {held : Bool} (hopen : l.aborted = false)
    (hheld : held = true → l.claims.get? c = some claim) (hnew : held = false → l.claims.get? c = none)
    (hcost : 0 < claim.cost) {l' : Lease} (hl' : l' = (l.setClaim c { claim with users := claim.users + 1 }).cancel)
    (hok : LeaseOk w' i l') : l'.due = l.due + l.extra held claim.cost ∧ 0 ≤ l.extra held claim.cost := by
  have hopen' : l'.aborted = false := by
    rw [hl']
    exact hopen
  have hexclusive : l'.exclusive = l.exclusive := by rw [hl']; rfl
  have hcosts : l'.cost = l.cost := by rw [hl']; rfl
  obtain ⟨hdue, hcharge⟩ := due_of_open h hopen
  obtain ⟨hdue', hcharge'⟩ := due_of_open hok hopen'
  have hactive : activeCost l' = if held then activeCost l else activeCost l + claim.cost := by
    rw [hl']
    change activeCost (l.setClaim c { claim with users := claim.users + 1 }) = _
    cases held with
    | true =>
      rw [if_pos rfl]
      exact h.activeCost_set (hheld rfl) (claim.users + 1) claim.retained
    | false =>
      rw [if_neg Bool.false_ne_true]
      exact setClaim_activeCost_of_none c _ (hnew rfl)
  rw [hdue, hdue', hcharge', hexclusive, hcosts, hactive]
  unfold Lease.extra
  rw [hcharge]
  by_cases hx : l.exclusive = true
  · simp [hx]
  · cases held with
    | true => simp [hx]
    | false =>
      have hmono : max l.cost (activeCost l) ≤ max l.cost (activeCost l + claim.cost) :=
        max_le_max le_rfl (by linarith)
      simp only [hx, if_false, Bool.false_eq_true, or_self]
      constructor
      · ring
      · linarith

section
variable (h : Books w) (hl : w.leases[i]? = some l) {name : Option String} {c : ℕ} {claim : Claim}
include h hl

lemma Books.take (htakes : Takes w l name c claim) (hopen : l.aborted = false) (opens : Bool) {l' : Lease}
    (hl' : l' = (l.setClaim c { claim with users := claim.users + 1 }).cancel) :
    Replaced w i l' ((w.use i c name opens).put i l') ∧ Later l l' ∧ Books ((w.use i c name opens).put i l') := by
  have hok := h.lease i l hl
  have hfenced : l.fenced = false := by
    rw [← Bool.not_eq_true]
    intro hf
    rw [hok.fenced hf] at hopen
    cases hopen
  have hlive : l'.live = l.live := by
    rw [hl']
    change (!l.fenced && (!l.aborted || _)) = (!l.fenced && (!l.aborted || !l.idle))
    rw [hopen]
    rfl
  have hmachine : l'.machineId = l.machineId := by rw [hl']; rfl
  have hr : Replaced w i l' ((w.use i c name opens).put i l') := h.replaced_put hl hmachine hlive _
  have haside : Aside w i ((w.use i c name opens).put i l') := (h.aside_use hl htakes opens).congr rfl
  refine ⟨hr, ⟨hmachine, by rw [hl']; rfl, by rw [hl']; rfl, fun hab => ?_, fun hf => ?_, fun hab => ?_⟩, ?_⟩
  · rw [hopen] at hab
    cases hab
  · rw [hfenced] at hf
    cases hf
  · rw [hopen] at hab
    cases hab
  · refine h.replace hl hr hmachine (fun hp => hlive.symm.trans hp) ?_ ?_ haside
    · rw [hl']
      exact (hok.acquire htakes opens).uses rfl
    · intro d e he
      rw [hl', cancel_claims, setClaim_get?] at he
      split at he
      · cases he
        exact .inl (Nat.succ_pos _)
      · exact h.alive i l hl d e he

lemma Books.takes_held
    (hheld : l.held name = some (c, claim)) : Takes w l name c claim ∧ l.claims.get? c = some claim := by
  have hok := h.lease i l hl
  simp only [Lease.held, Option.bind_eq_bind, Option.bind_eq_some_iff] at hheld
  obtain ⟨terminal, rfl, d, hterminal, e, he, hsame⟩ := hheld
  obtain ⟨rfl, rfl⟩ := Prod.mk.inj (Option.some.inj hsame)
  obtain ⟨hnamed, -⟩ := hok.terminals terminal d hterminal
  have hmade := hok.made d e he
  refine ⟨⟨?_, hmade.le, hok.claimCost d e he, by rw [he]; rfl, fun _ => ⟨terminal, hterminal⟩, ?_⟩, he⟩
  · rw [nameOf_use _ _ _ _ hmade, hnamed]
  · intro claim' hclaim'
    rw [he] at hclaim'
    exact Option.some.inj hclaim'

end

lemma Books.takes_new (h : Books w) (hl : w.leases[i]? = some l) (name : Option String) {cost : ℚ} (hcost : 0 < cost) :
    Takes w l name w.uses.length ⟨cost, 0, false⟩ ∧ l.claims.get? w.uses.length = none := by
  have hnone : l.claims.get? w.uses.length = none := by
    cases hc : l.claims.get? w.uses.length with
    | none => rfl
    | some claim => exact absurd ((h.lease i l hl).made _ claim hc) (lt_irrefl _)
  refine ⟨⟨nameOf_use_last _ _ _ _, le_rfl, hcost, by rw [hnone]; rfl, fun hkept => absurd hkept Bool.false_ne_true, ?_⟩, hnone⟩
  intro claim' hclaim'
  rw [hnone] at hclaim'
  cases hclaim'

lemma ClassCosts.cost_pos (costs : ClassCosts) (workClass : LeaseClass) : 0 < costs.cost workClass := by
  cases workClass with
  | exec | eval | pty => exact one_pos
  | job => exact costs.positive

theorem Books.acquire {rows : List CapacityRow} {workClass : LeaseClass} {name : Option String} {opens : Bool}
    (h : Books w) (hl : w.leases[i]? = some l) (hacquired : w.acquire rows i l workClass name opens = .ok w') :
    ∃ (machine : MachineInfo) (extra : ℚ) (l' : Lease), w.members.get? l.machineId = some machine ∧ 0 ≤ extra ∧
      w.credit rows machine extra (some i) = none ∧ l'.aborted = l.aborted ∧ Replaced w i l' w' ∧ Later l l' ∧
      l'.due = l.due + extra ∧ Books w' := by
  unfold World.acquire at hacquired
  split at hacquired
  · cases hacquired
  rename_i machine hmachine
  split at hacquired
  · cases hacquired
  rename_i haborted
  have hopen : l.aborted = false := by simpa using haborted
  have htaken : ∀ (c : ℕ) (claim : Claim), (l.held name).getD
      (w.uses.length, ⟨(effective rows machine).classCosts.cost workClass, 0, false⟩) = (c, claim) →
      Takes w l name c claim ∧ ((l.held name).isSome = true → l.claims.get? c = some claim) ∧
        ((l.held name).isSome = false → l.claims.get? c = none) := by
    intro c claim htaken
    cases hheld : l.held name with
    | none =>
      rw [hheld] at htaken
      cases htaken
      obtain ⟨htakes, hnone⟩ := h.takes_new hl name ((effective rows machine).classCosts.cost_pos workClass)
      exact ⟨htakes, fun hsome => absurd hsome Bool.false_ne_true, fun _ => hnone⟩
    | some taken =>
      rw [hheld] at htaken
      obtain rfl : taken = (c, claim) := htaken
      obtain ⟨htakes, hsome⟩ := h.takes_held hl hheld
      exact ⟨htakes, fun _ => hsome, fun hnone => absurd hnone (Bool.false_ne_true ∘ Eq.symm)⟩
  dsimp only at hacquired
  generalize (l.held name).getD (w.uses.length, ⟨(effective rows machine).classCosts.cost workClass, 0, false⟩) = taken
    at hacquired htaken
  obtain ⟨c, claim⟩ := taken
  obtain ⟨htakes, hheld, hnew⟩ := htaken c claim rfl
  split at hacquired
  · cases hacquired
  rename_i hcredit
  cases hacquired
  obtain ⟨hr, hlater, hbooks⟩ := h.take hl htakes hopen opens rfl
  have hget : ((w.use i c name opens).put i (l.setClaim c { claim with users := claim.users + 1 }).cancel).leases[i]? =
      some (l.setClaim c { claim with users := claim.users + 1 }).cancel := by
    rw [hr.leases, Slots.get?_set hl, if_pos rfl]
  obtain ⟨hdue, hextra⟩ := (h.lease i l hl).take_due hopen hheld hnew htakes.cost rfl (hbooks.lease i _ hget)
  exact ⟨machine, l.extra (l.held name).isSome claim.cost, (l.setClaim c { claim with users := claim.users + 1 }).cancel,
    hmachine, hextra, hcredit, rfl, hr, hlater, hdue, hbooks⟩

def made (machineId : String) (cost : ℚ) (exclusive : Bool) (workClass : LeaseClass) (ttl now : ℤ) : Lease :=
  (⟨machineId, cost, exclusive, workClass, .empty, .empty, false, false, .leaseExpired, 0, []⟩ : Lease).arm ttl now

section
variable {m : String} {cost : ℚ} {exclusive : Bool} {workClass : LeaseClass} {ttl now : ℤ}

lemma made_due (hcost : 0 < cost) :
    (made m cost exclusive workClass ttl now).due = cost := by
  change (if exclusive then cost else max cost 0) = cost
  split
  · rfl
  · exact max_eq_left hcost.le

lemma reserve_leases :
    (w.reserve ttl m cost exclusive workClass now).leases = w.leases ++ [made m cost exclusive workClass ttl now] := rfl

lemma reserve_set (m' : String) :
    (w.reserve ttl m cost exclusive workClass now).set m' =
      if m' = m then w.set m' ++ [w.leases.length] else w.set m' := by
  unfold World.set World.reserve
  dsimp only
  rw [Dict.get?_set]
  split
  · rename_i hm
    rw [hm]
    rfl
  · rfl

end

lemma Books.reserve (h : Books w) (m : String) {cost : ℚ} (exclusive : Bool) (workClass : LeaseClass) (ttl now : ℤ)
    (hcost : 0 < cost) : Books (w.reserve ttl m cost exclusive workClass now) := by
  have hnone : ∀ m', w.leases.length ∉ w.set m' := by
    intro m' hmem
    obtain ⟨l, hl, -⟩ := h.own m' _ hmem
    exact absurd (List.getElem?_eq_some_iff.mp hl).1 (lt_irrefl _)
  refine ⟨?_, ?_, h.names, ?_, ?_, ?_, ?_⟩
  · intro j l hl
    rcases Slots.append_cases hl with hold | ⟨rfl, rfl⟩
    · exact (h.lease j l hold).mono (fun _ => rfl) le_rfl fun _ _ => rfl
    · refine ⟨Dict.unique_empty, hcost, fun _ _ hc => (by cases hc), ?_, fun _ _ hc => (by cases hc),
        fun _ _ hc => (by cases hc), fun _ _ hc => (by cases hc), fun hf => (by cases hf)⟩
      intro c
      symm
      apply countP_eq_zero.mpr
      intro use huse
      have hlt := h.placed use huse
      have hne : use.lease ≠ w.leases.length := hlt.ne
      simp [hne]
  · intro j l hl
    rcases Slots.append_cases hl with hold | ⟨rfl, rfl⟩
    · exact h.alive j l hold
    · intro c claim hc
      cases hc
  · intro use huse
    have hlt := h.placed use huse
    rw [reserve_leases, length_append]
    omega
  · intro m' j hj
    rw [reserve_set] at hj
    have hold : ∀ {j}, j ∈ w.set m' →
        ∃ l, (w.reserve ttl m cost exclusive workClass now).leases[j]? = some l ∧ l.machineId = m' := by
      intro j hj
      obtain ⟨l, hl, hm⟩ := h.own m' j hj
      exact ⟨l, Slots.get?_append hl _, hm⟩
    split at hj
    · rename_i hm
      rcases mem_append.mp hj with hj | hj
      · exact hold hj
      · obtain rfl := mem_singleton.mp hj
        exact ⟨made m cost exclusive workClass ttl now, by rw [reserve_leases]; simp, hm.symm⟩
    · exact hold hj
  · intro j l hl
    rw [reserve_set]
    rcases Slots.append_cases hl with hold | ⟨rfl, rfl⟩
    · have hlt := (List.getElem?_eq_some_iff.mp hold).1
      have hreg := h.registered j l hold
      split
      · rw [mem_append, mem_singleton, or_iff_left hlt.ne]
        exact hreg
      · exact hreg
    · have hmachine : (made m cost exclusive workClass ttl now).machineId = m := rfl
      change _ ∈ (if (made m cost exclusive workClass ttl now).machineId = m then _ else _) ↔
        (made m cost exclusive workClass ttl now).live = true
      rw [if_pos hmachine]
      exact ⟨fun _ => rfl, fun _ => mem_append_right _ (mem_singleton.mpr rfl)⟩
  · intro m'
    rw [reserve_set]
    split
    · apply nodup_append.mpr
      refine ⟨h.nodup m', nodup_singleton _, ?_⟩
      intro a ha b hb heq
      obtain rfl := mem_singleton.mp hb
      rw [heq] at ha
      exact hnone m' ha
    · exact h.nodup m'

lemma Books.used_reserve (h : Books w) (m : String) {cost : ℚ} (exclusive : Bool) (workClass : LeaseClass) (ttl now : ℤ)
    (hcost : 0 < cost) (m' : String) :
    (w.reserve ttl m cost exclusive workClass now).used m' = w.used m' + if m = m' then cost else 0 := by
  have hbooks := h.reserve m exclusive workClass ttl now hcost
  rw [hbooks.used_eq, h.used_eq, reserve_leases, length_append, length_singleton, Finset.sum_range_succ]
  have hnew : (w.reserve ttl m cost exclusive workClass now).share m' w.leases.length = if m = m' then cost else 0 := by
    have hmachine : (made m cost exclusive workClass ttl now).machineId = m := rfl
    unfold World.share
    rw [reserve_leases, getElem?_append_right le_rfl, Nat.sub_self]
    simp only [getElem?_cons_zero, map_some, getD_some]
    rw [hmachine, made_due hcost]
  have hold : ∑ i ∈ range w.leases.length, (w.reserve ttl m cost exclusive workClass now).share m' i =
      ∑ i ∈ range w.leases.length, w.share m' i := by
    apply Finset.sum_congr rfl
    intro i hi
    unfold World.share
    rw [reserve_leases, getElem?_append_left (Finset.mem_range.mp hi)]
  rw [hold, hnew]

end Capacity
end OpenOmni
