import Mathlib
import OpenOmni.Lib.Selection
import OpenOmni.Machines.Placement

/-! A placement does not depend on the order of the machines, and a sticky one stays where it is. -/
namespace OpenOmni
namespace Placement
open Selection List

/-- `localeCompare` as an order of identifiers. -/
structure StrictTotal (localeCompare : String → String → ℤ) : Prop where
  irrefl : ∀ a, ¬localeCompare a a < 0
  trans : ∀ a b c, localeCompare a b < 0 → localeCompare b c < 0 → localeCompare a c < 0
  total : ∀ a b, a ≠ b → localeCompare a b < 0 ∨ localeCompare b a < 0

def rank (prefer : Prefer) (machine : Member) : ℚ ×ₗ ℚ ×ₗ ℤ :=
  match prefer with
  | .spread => toLex ((slotsOf machine).elim 0 (machine.leases / ·), toLex (machine.leases, -freeMemoryOf machine))
  | .pack => toLex (-machine.leases, toLex (0, 0))
  | _ => toLex (machine.leases, toLex (0, 0))

def Beats {β : Type*} [LT β] (localeCompare : String → String → ℤ) (rank : Member → β) (machine best : Member) : Prop :=
  rank machine < rank best ∨ rank machine = rank best ∧ localeCompare machine.machineId best.machineId < 0

section Beats
variable {β : Type*} [LinearOrder β] {localeCompare : String → String → ℤ} (h : StrictTotal localeCompare) (rank : Member → β)
include h

lemma beats_irrefl (machine : Member) : ¬Beats localeCompare rank machine machine := by
  rintro (hlt | ⟨-, hlt⟩)
  · exact lt_irrefl _ hlt
  · exact h.irrefl _ hlt

lemma beats_trans (a b c : Member) (hab : Beats localeCompare rank a b) (hbc : Beats localeCompare rank b c) :
    Beats localeCompare rank a c := by
  rcases hab with hab | ⟨hab, hid⟩
  · rcases hbc with hbc | ⟨hbc, -⟩
    · exact .inl (hab.trans hbc)
    · exact .inl (hbc ▸ hab)
  · rcases hbc with hbc | ⟨hbc, hid'⟩
    · exact .inl (hab ▸ hbc)
    · exact .inr ⟨hab.trans hbc, h.trans _ _ _ hid hid'⟩

lemma beats_total {a b : Member} (hne : a.machineId ≠ b.machineId) :
    Beats localeCompare rank a b ∨ Beats localeCompare rank b a := by
  rcases lt_trichotomy (rank a) (rank b) with hlt | heq | hlt
  · exact .inl (.inl hlt)
  · rcases h.total _ _ hne with hid | hid
    · exact .inl (.inr ⟨heq, hid⟩)
    · exact .inr (.inr ⟨heq.symm, hid⟩)
  · exact .inr (.inl hlt)

end Beats

variable {localeCompare : String → String → ℤ} {hashScore : String → String → String}

variable {prefer : Prefer} {a b machine winner : Member} {pool machines : List Member}
  {beats : Member → Member → Prop} {better : Member → Member → Member} {request : Request}

lemma rank_lt : rank prefer a < rank prefer b ↔
    match prefer with
    | .spread => (slotsOf a).elim 0 (a.leases / ·) < (slotsOf b).elim 0 (b.leases / ·) ∨
        (slotsOf a).elim 0 (a.leases / ·) = (slotsOf b).elim 0 (b.leases / ·) ∧
          (a.leases < b.leases ∨ a.leases = b.leases ∧ freeMemoryOf b < freeMemoryOf a)
    | .pack => b.leases < a.leases
    | _ => a.leases < b.leases := by
  unfold rank
  cases prefer with
  | spread => simp only [Prod.Lex.toLex_lt_toLex, neg_lt_neg_iff]
  | pack | exclusive | sticky key => simp [Prod.Lex.toLex_lt_toLex]

lemma rank_eq : rank prefer a = rank prefer b ↔
    match prefer with
    | .spread => (slotsOf a).elim 0 (a.leases / ·) = (slotsOf b).elim 0 (b.leases / ·) ∧
        a.leases = b.leases ∧ freeMemoryOf a = freeMemoryOf b
    | _ => a.leases = b.leases := by
  unfold rank
  cases prefer with
  | spread | pack | exclusive | sticky key => simp

lemma compareCandidates_goes (prefer : Prefer) {best : Member}
    (hknown : (slotsOf best).isSome = (slotsOf machine).isSome) :
    Beats localeCompare (rank prefer) machine best ∧ compareCandidates localeCompare prefer best machine = machine ∨
      ¬Beats localeCompare (rank prefer) machine best ∧ compareCandidates localeCompare prefer best machine = best := by
  unfold Beats
  rw [rank_lt, rank_eq]
  unfold compareCandidates compareLeases lessFull
  cases prefer with
  | spread =>
    cases hbest : slotsOf best with
    | none =>
      rw [hbest, Option.isSome_none] at hknown
      have hmachine : slotsOf machine = none := Option.not_isSome_iff_eq_none.mp (by simp [← hknown])
      simp only [hmachine, Option.elim_none]
      grind
    | some bestSlots =>
      rw [hbest, Option.isSome_some] at hknown
      obtain ⟨machineSlots, hmachine⟩ := Option.isSome_iff_exists.mp hknown.symm
      simp only [hmachine, Option.elim_some]
      generalize machine.leases / (machineSlots : ℚ) = machineRatio
      generalize best.leases / (bestSlots : ℚ) = bestRatio
      by_cases hratio : machineRatio = bestRatio
      · simp only [hratio]
        grind
      · simp only [hratio]
        grind
  | pack | exclusive | sticky key => grind

lemma goesBy_compareCandidates (prefer : Prefer)
    (hknown : ∀ a ∈ pool, ∀ b ∈ pool, (slotsOf a).isSome = (slotsOf b).isSome) :
    GoesBy (Beats localeCompare (rank prefer)) (compareCandidates localeCompare prefer) pool :=
  fun best hbest machine hmachine => compareCandidates_goes prefer (hknown best hbest machine hmachine)

/-- `sticky` ranks by the digest alone, the greatest first. -/
def Sticks (hashScore : String → String → String) (key : String) (machine best : Member) : Prop :=
  hashScore key best.machineId < hashScore key machine.machineId

lemma goesBy_stickier (key : String) (pool : List Member) :
    GoesBy (Sticks hashScore key) (stickier hashScore key) pool := by
  intro best _ machine _
  unfold Sticks stickier
  split_ifs with hlt
  · exact .inl ⟨hlt, rfl⟩
  · exact .inr ⟨hlt, rfl⟩

lemma select_best (hirrefl : ∀ x, ¬beats x x) (htrans : ∀ x y z, beats x y → beats y z → beats x z)
    (hgoes : GoesBy beats better pool) (h : select better pool = some winner) : Best beats pool winner := by
  cases pool with
  | nil => cases h
  | cons first rest =>
    cases h
    exact foldl_best hirrefl htrans first rest hgoes

lemma select_isSome (better : Member → Member → Member) (h : pool ≠ []) :
    ∃ winner, select better pool = some winner := by
  cases pool with
  | nil => exact absurd rfl h
  | cons first rest => exact ⟨_, rfl⟩

lemma select_eq_of_best (hirrefl : ∀ x, ¬beats x x) (htrans : ∀ x y z, beats x y → beats y z → beats x z)
    (hgoes : GoesBy beats better pool) (htotal : ∀ x ∈ pool, ∀ y ∈ pool, x ≠ y → beats x y ∨ beats y x)
    (h : Best beats pool winner) : select better pool = some winner := by
  obtain ⟨selected, hselected⟩ := select_isSome better (ne_nil_of_mem h.1)
  rw [hselected, (select_best hirrefl htrans hgoes hselected).eq h htotal]

lemma mem_knownFirst : machine ∈ knownFirst machines ↔
    machine ∈ machines ∧ ((slotsOf machine).isSome = true ∨ ∀ other ∈ machines, slotsOf other = none) := by
  unfold knownFirst
  dsimp only
  split_ifs with hknown
  · have hnone : ∀ other ∈ machines, slotsOf other = none := fun other hother => by
      have := filter_eq_nil_iff.mp hknown other hother
      simpa using this
    exact ⟨fun hmem => ⟨hmem, .inr hnone⟩, fun h => h.1⟩
  · rw [mem_filter]
    refine and_congr_right fun hmem => ⟨.inl, fun h => h.resolve_right fun hnone => hknown ?_⟩
    exact filter_eq_nil_iff.mpr fun other hother => by simp [hnone other hother]

lemma knownFirst_known (ha : a ∈ knownFirst machines) (hb : b ∈ knownFirst machines) :
    (slotsOf a).isSome = (slotsOf b).isSome := by
  obtain ⟨hmem, ha⟩ := mem_knownFirst.mp ha
  obtain ⟨hmem', hb⟩ := mem_knownFirst.mp hb
  rcases ha with ha | hnone
  · rcases hb with hb | hnone
    · rw [ha, hb]
    · rw [hnone a hmem] at ha
      cases ha
  · rw [hnone a hmem, hnone b hmem']

lemma knownFirst_eq_nil : knownFirst machines = [] ↔ machines = [] := by
  unfold knownFirst
  dsimp only
  split_ifs with hknown
  · rfl
  · exact ⟨fun h => absurd h hknown, fun h => absurd (by rw [h]; rfl) hknown⟩

/-- A machine the request can be placed on: tagged, live, capable, with credit, and free where the placement
is exclusive. -/
structure Placeable (request : Request) (machine : Member) : Prop where
  tagged : request.tag ∈ machine.tags
  live : machine.live.any (·.stale) = false
  capable : ∀ capability ∈ request.requires.getD [], capability ∈ machine.capabilities
  credited : hasCredit machine = true
  exclusive : request.prefer = .exclusive → machine.leases = 0

def liveOf (request : Request) (machines : List Member) : List Member :=
  (machines.filter fun machine => request.tag ∈ machine.tags).filter fun machine => ¬machine.live.any (·.stale)

def capableOf (request : Request) (machines : List Member) : List Member :=
  (liveOf request machines).filter fun machine => (request.requires.getD []).all (· ∈ machine.capabilities)

def creditedOf (request : Request) (machines : List Member) : List Member := (capableOf request machines).filter hasCredit

def poolOf (request : Request) (machines : List Member) : List Member :=
  knownFirst (eligible request.prefer (creditedOf request machines))

lemma mem_eligible_credited :
    machine ∈ eligible request.prefer (creditedOf request machines) ↔ machine ∈ machines ∧ Placeable request machine := by
  have hcredited : machine ∈ creditedOf request machines ↔ machine ∈ machines ∧ request.tag ∈ machine.tags ∧
      machine.live.any (·.stale) = false ∧ (∀ capability ∈ request.requires.getD [], capability ∈ machine.capabilities) ∧
      hasCredit machine = true := by
    simp only [creditedOf, capableOf, liveOf, mem_filter, decide_eq_true_eq, all_eq_true, Bool.not_eq_true,
      and_assoc]
  unfold eligible
  split_ifs with hprefer
  · rw [mem_filter, hcredited]
    constructor
    · rintro ⟨⟨hmem, htag, hlive, hcapable, hcredit⟩, hfree⟩
      exact ⟨hmem, htag, hlive, hcapable, hcredit, fun _ => of_decide_eq_true hfree⟩
    · rintro ⟨hmem, htag, hlive, hcapable, hcredit, hfree⟩
      exact ⟨⟨hmem, htag, hlive, hcapable, hcredit⟩, decide_eq_true (hfree hprefer)⟩
  · rw [hcredited]
    constructor
    · rintro ⟨hmem, htag, hlive, hcapable, hcredit⟩
      exact ⟨hmem, htag, hlive, hcapable, hcredit, fun hexclusive => absurd hexclusive hprefer⟩
    · rintro ⟨hmem, htag, hlive, hcapable, hcredit, -⟩
      exact ⟨hmem, htag, hlive, hcapable, hcredit⟩

lemma mem_poolOf : machine ∈ poolOf request machines ↔
    machine ∈ machines ∧ Placeable request machine ∧ ((slotsOf machine).isSome = true ∨
      ∀ other ∈ machines, Placeable request other → slotsOf other = none) := by
  unfold poolOf
  rw [mem_knownFirst, mem_eligible_credited, and_assoc]
  simp only [mem_eligible_credited, and_imp]

def beatsOf (localeCompare : String → String → ℤ) (hashScore : String → String → String) (prefer : Prefer)
    (machine best : Member) : Prop :=
  match prefer with
  | .sticky key => Sticks hashScore key machine best
  | prefer => Beats localeCompare (rank prefer) machine best

def betterOf (localeCompare : String → String → ℤ) (hashScore : String → String → String) (prefer : Prefer) :
    Member → Member → Member :=
  match prefer with
  | .sticky key => stickier hashScore key
  | prefer => compareCandidates localeCompare prefer

def HashInjective (hashScore : String → String → String) (prefer : Prefer) (machines : List Member) : Prop :=
  ∀ key, prefer = .sticky key → ∀ a ∈ machines, ∀ b ∈ machines,
    hashScore key a.machineId = hashScore key b.machineId → a.machineId = b.machineId

lemma goesBy_betterOf (prefer : Prefer) (hknown : ∀ a ∈ pool, ∀ b ∈ pool, (slotsOf a).isSome = (slotsOf b).isSome) :
    GoesBy (beatsOf localeCompare hashScore prefer) (betterOf localeCompare hashScore prefer) pool := by
  cases prefer with
  | sticky key => exact goesBy_stickier key pool
  | _ => exact goesBy_compareCandidates _ hknown

section Choice
variable (hlocale : StrictTotal localeCompare)
include hlocale

lemma beatsOf_irrefl (prefer : Prefer) (machine : Member) : ¬beatsOf localeCompare hashScore prefer machine machine := by
  cases prefer with
  | sticky key => exact lt_irrefl (hashScore key machine.machineId)
  | _ => exact beats_irrefl hlocale _ machine

lemma beatsOf_trans (prefer : Prefer) (a b c : Member) (hab : beatsOf localeCompare hashScore prefer a b)
    (hbc : beatsOf localeCompare hashScore prefer b c) : beatsOf localeCompare hashScore prefer a c := by
  cases prefer with
  | sticky key => exact lt_trans (b := hashScore key b.machineId) hbc hab
  | _ => exact beats_trans hlocale _ a b c hab hbc

variable {machines : List Member}

lemma beatsOf_total {prefer : Prefer} (hdistinct : (machines.map (·.machineId)).Nodup)
    (hhash : HashInjective hashScore prefer machines) {a b : Member} (ha : a ∈ machines) (hb : b ∈ machines)
    (hne : a ≠ b) : beatsOf localeCompare hashScore prefer a b ∨ beatsOf localeCompare hashScore prefer b a := by
  have hid : a.machineId ≠ b.machineId := fun heq => hne (inj_on_of_nodup_map hdistinct ha hb heq)
  cases prefer with
  | sticky key => exact (lt_or_gt_of_ne fun heq => hid (hhash key rfl a ha b hb heq)).symm
  | _ => exact beats_total hlocale _ hid

lemma select_eq_some_iff {request : Request} (hdistinct : (machines.map (·.machineId)).Nodup)
    (hhash : HashInjective hashScore request.prefer machines) {winner : Member} :
    select (betterOf localeCompare hashScore request.prefer) (poolOf request machines) = some winner ↔
      Best (beatsOf localeCompare hashScore request.prefer) (poolOf request machines) winner := by
  have hgoes : GoesBy (beatsOf localeCompare hashScore request.prefer) (betterOf localeCompare hashScore request.prefer)
      (poolOf request machines) := goesBy_betterOf _ fun a ha b hb => knownFirst_known ha hb
  have htotal : ∀ a ∈ poolOf request machines, ∀ b ∈ poolOf request machines, a ≠ b →
      beatsOf localeCompare hashScore request.prefer a b ∨ beatsOf localeCompare hashScore request.prefer b a :=
    fun a ha b hb => beatsOf_total hlocale hdistinct hhash (mem_poolOf.mp ha).1 (mem_poolOf.mp hb).1
  exact ⟨select_best (beatsOf_irrefl hlocale _) (beatsOf_trans hlocale _) hgoes,
    select_eq_of_best (beatsOf_irrefl hlocale _) (beatsOf_trans hlocale _) hgoes htotal⟩

end Choice

lemma place_eq (request : Request) (machines : List Member) : place localeCompare hashScore request machines =
    if machines.filter (fun machine => request.tag ∈ machine.tags) = [] then .noMember
    else if liveOf request machines = [] then .allStale
    else if capableOf request machines = [] then .noMember
    else outcomeOf (select (betterOf localeCompare hashScore request.prefer) (poolOf request machines)) := by
  have hnone : ∀ {prefer : Prefer} {pool : List Member}, pool = [] →
      outcomeOf (select (betterOf localeCompare hashScore prefer) pool) = .machineSaturated := by
    rintro prefer _ rfl
    rfl
  have hcreditless : creditedOf request machines = [] → poolOf request machines = [] := fun hempty => by
    refine knownFirst_eq_nil.mpr (eq_nil_iff_forall_not_mem.mpr fun machine hmem => ?_)
    have hcredited := (mem_eligible hmem).1
    rw [hempty] at hcredited
    cases hcredited
  have heligible : eligible request.prefer (creditedOf request machines) = [] → poolOf request machines = [] :=
    knownFirst_eq_nil.mpr
  unfold place
  dsimp only
  change (if _ then _ else if liveOf request machines = [] then _ else if capableOf request machines = [] then _ else
    if creditedOf request machines = [] then _ else _) = _
  refine if_congr Iff.rfl rfl (if_congr Iff.rfl rfl (if_congr Iff.rfl rfl ?_))
  by_cases hcredited : creditedOf request machines = []
  · rw [if_pos hcredited, hnone (hcreditless hcredited)]
  · rw [if_neg hcredited]
    have hpool : ∀ prefer, request.prefer = prefer → (∀ key, prefer ≠ .sticky key) →
        (if eligible prefer (creditedOf request machines) = [] then Outcome.machineSaturated
          else outcomeOf (select (compareCandidates localeCompare prefer) (knownFirst (eligible prefer (creditedOf request machines))))) =
        outcomeOf (select (betterOf localeCompare hashScore prefer) (poolOf request machines)) := by
      rintro prefer rfl hsticky
      have hbetter : betterOf localeCompare hashScore request.prefer = compareCandidates localeCompare request.prefer := by
        unfold betterOf
        split
        · rename_i key hkey
          exact absurd hkey (hsticky key)
        · rfl
      split_ifs with hempty
      · rw [hnone (heligible hempty)]
      · rw [hbetter]
        rfl
    cases hprefer : request.prefer with
    | sticky key =>
      have hcreditedPool : poolOf request machines = knownFirst (creditedOf request machines) := by
        unfold poolOf eligible
        rw [hprefer]
        rfl
      rw [hcreditedPool]
      rfl
    | spread => exact hpool .spread hprefer nofun
    | pack => exact hpool .pack hprefer nofun
    | exclusive => exact hpool .exclusive hprefer nofun

section Stable
variable {request : Request} {machines machines' : List Member} (hlocale : StrictTotal localeCompare)
include hlocale

theorem place_perm (hdistinct : (machines.map (·.machineId)).Nodup) (hhash : HashInjective hashScore request.prefer machines)
    (hperm : machines.Perm machines') :
    place localeCompare hashScore request machines' = place localeCompare hashScore request machines := by
  have hdistinct' : (machines'.map (·.machineId)).Nodup := (hperm.map _).nodup_iff.mp hdistinct
  have hhash' : HashInjective hashScore request.prefer machines' := fun key hkey a ha b hb =>
    hhash key hkey a (hperm.mem_iff.mpr ha) b (hperm.mem_iff.mpr hb)
  have hpool : ∀ machine, machine ∈ poolOf request machines' ↔ machine ∈ poolOf request machines := fun machine => by
    simp only [mem_poolOf, hperm.mem_iff]
  have htagged := hperm.filter fun machine => request.tag ∈ machine.tags
  have hlive : (liveOf request machines).Perm (liveOf request machines') := htagged.filter _
  have hcapable : (capableOf request machines).Perm (capableOf request machines') := hlive.filter _
  have hnil : ∀ {l l' : List Member}, l.Perm l' → (l' = [] ↔ l = []) := fun h =>
    ⟨fun heq => perm_nil.mp (heq ▸ h), fun heq => perm_nil.mp (heq ▸ h.symm)⟩
  have hchosen : select (betterOf localeCompare hashScore request.prefer) (poolOf request machines') =
      select (betterOf localeCompare hashScore request.prefer) (poolOf request machines) := by
    refine Option.ext fun winner => ?_
    rw [select_eq_some_iff hlocale hdistinct' hhash', select_eq_some_iff hlocale hdistinct hhash]
    unfold Best
    simp only [hpool]
  rw [place_eq, place_eq, hchosen]
  exact if_congr (hnil htagged) rfl (if_congr (hnil hlive) rfl (if_congr (hnil hcapable) rfl rfl))

variable {machineId : String}

section
variable (hdistinct : (machines.map (·.machineId)).Nodup) (hhash : HashInjective hashScore request.prefer machines)
include hdistinct hhash

theorem place_placed_iff : place localeCompare hashScore request machines = .placed machineId ↔
      ∃ winner, winner.machineId = machineId ∧
        Best (beatsOf localeCompare hashScore request.prefer) (poolOf request machines) winner := by
  rw [place_eq]
  constructor
  · intro h
    split_ifs at h
    obtain ⟨winner, hselected, hid⟩ := outcomeOf_eq_placed h
    exact ⟨winner, hid, (select_eq_some_iff hlocale hdistinct hhash).mp hselected⟩
  · rintro ⟨winner, rfl, hbest⟩
    obtain ⟨hmem, hplaceable, -⟩ := mem_poolOf.mp hbest.1
    have htagged : winner ∈ machines.filter fun machine => request.tag ∈ machine.tags :=
      mem_filter.mpr ⟨hmem, decide_eq_true hplaceable.tagged⟩
    have hlive : winner ∈ liveOf request machines := mem_filter.mpr ⟨htagged, by simp [hplaceable.live]⟩
    have hcapable : winner ∈ capableOf request machines :=
      mem_filter.mpr ⟨hlive, all_eq_true.mpr fun capability hin => decide_eq_true (hplaceable.capable capability hin)⟩
    rw [if_neg (ne_nil_of_mem htagged), if_neg (ne_nil_of_mem hlive), if_neg (ne_nil_of_mem hcapable),
      (select_eq_some_iff hlocale hdistinct hhash).mpr hbest]
    rfl

theorem place_stays {gone : String} (hgone : gone ≠ machineId)
    (h : place localeCompare hashScore request machines = .placed machineId) :
    place localeCompare hashScore request (machines.filter fun machine => machine.machineId ≠ gone) = .placed machineId := by
  obtain ⟨winner, hid, hbest⟩ := (place_placed_iff hlocale hdistinct hhash).mp h
  have hmem : ∀ {machine : Member}, machine ∈ machines.filter (fun machine => machine.machineId ≠ gone) ↔
      machine ∈ machines ∧ machine.machineId ≠ gone := by
    intro machine
    rw [mem_filter, decide_eq_true_eq]
  obtain ⟨hwinner, hplaceable, hknown⟩ := mem_poolOf.mp hbest.1
  have hstays : winner ∈ machines.filter fun machine => machine.machineId ≠ gone :=
    hmem.mpr ⟨hwinner, fun heq => hgone (heq.symm.trans hid)⟩
  refine (place_placed_iff hlocale (hdistinct.sublist (filter_sublist.map _)) ?_).mpr ⟨winner, hid, ?_⟩
  · exact fun key' hkey a ha b hb => hhash key' hkey a (hmem.mp ha).1 b (hmem.mp hb).1
  · refine hbest.mono (fun machine hpool => ?_) ?_
    · obtain ⟨hin, hfit, hfirst⟩ := mem_poolOf.mp hpool
      refine mem_poolOf.mpr ⟨(hmem.mp hin).1, hfit, ?_⟩
      rcases hfirst with hsome | hnone
      · exact .inl hsome
      · refine .inr (hknown.resolve_left fun hsome => ?_)
        rw [hnone winner hstays hplaceable] at hsome
        cases hsome
    · refine mem_poolOf.mpr ⟨hstays, hplaceable, hknown.imp id fun hnone other hother => ?_⟩
      exact hnone other (hmem.mp hother).1

end

/-- A placement is the same for every order of the machines; who is placed fits the request, with a known
capacity where any that fits has one; and a sticky key stays where it is, whatever other machine goes. -/
theorem place_stable (hdistinct : (machines.map (·.machineId)).Nodup)
    (hhash : HashInjective hashScore request.prefer machines) :
    (∀ machines', machines.Perm machines' →
      place localeCompare hashScore request machines' = place localeCompare hashScore request machines) ∧
    ∀ machineId, place localeCompare hashScore request machines = .placed machineId →
      (∃ machine ∈ machines, machine.machineId = machineId ∧ Placeable request machine ∧
        (slotsOf machine = none → ∀ other ∈ machines, Placeable request other → slotsOf other = none)) ∧
      ∀ key, request.prefer = .sticky key → ∀ gone, gone ≠ machineId →
        place localeCompare hashScore request (machines.filter fun machine => machine.machineId ≠ gone) =
          .placed machineId := by
  refine ⟨fun machines' hperm => place_perm hlocale hdistinct hhash hperm, fun machineId hplaced => ⟨?_, ?_⟩⟩
  · obtain ⟨winner, hid, hbest⟩ := (place_placed_iff hlocale hdistinct hhash).mp hplaced
    obtain ⟨hwinner, hplaceable, hknown⟩ := mem_poolOf.mp hbest.1
    refine ⟨winner, hwinner, hid, hplaceable, fun hnone => hknown.resolve_left fun hsome => ?_⟩
    rw [hnone] at hsome
    cases hsome
  · intro key _ gone hgone
    exact place_stays hlocale hdistinct hhash hgone hplaced

end Stable

/-! A comparison by the order of the texts, and the identifier for its own digest. -/

def textCompare (a b : String) : ℤ := if a < b then -1 else if b < a then 1 else 0

lemma textCompare_neg {a b : String} : textCompare a b < 0 ↔ a < b := by
  unfold textCompare
  split_ifs with hlt hgt
  · simp [hlt]
  · simp [hlt]
  · simp [hlt]

lemma textCompare_strictTotal : StrictTotal textCompare where
  irrefl _ := fun h => lt_irrefl _ (textCompare_neg.mp h)
  trans _ _ _ := fun hab hbc => textCompare_neg.mpr ((textCompare_neg.mp hab).trans (textCompare_neg.mp hbc))
  total _ _ := fun hne => (lt_or_gt_of_ne hne).imp textCompare_neg.mpr textCompare_neg.mpr

def pair : List Member :=
  [⟨"a", ["gpu"], [], some ⟨4, 8⟩, none, 1, none⟩, ⟨"b", ["gpu"], [], none, none, 0, none⟩]

def stickyRequest : Request := ⟨"gpu", none, .sticky "k"⟩

/-- Of two machines the one with a known capacity takes the key, in either order. -/
theorem place_stable_pair : place textCompare (fun _ machineId => machineId) stickyRequest pair = .placed "a" ∧
    place textCompare (fun _ machineId => machineId) stickyRequest pair.reverse = .placed "a" := by
  have hdistinct : (pair.map (·.machineId)).Nodup := by decide
  have hhash : HashInjective (fun _ machineId => machineId) stickyRequest.prefer pair := fun _ _ _ _ _ _ heq => heq
  have h := place_stable textCompare_strictTotal hdistinct hhash
  have hplaced : place textCompare (fun _ machineId => machineId) stickyRequest pair = .placed "a" := by decide
  exact ⟨hplaced, (h.1 pair.reverse pair.reverse_perm.symm).trans hplaced⟩

end Placement
end OpenOmni
