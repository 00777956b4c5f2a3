import Mathlib
import OpenOmni.Lib.Dict

/-! The window in which an id that was acquired counts as a duplicate. -/
namespace OpenOmni
namespace Dedupe
open List

structure Entry where
  «at» : ℚ
  token : ℕ

/-- The map, and the counter of its prunes; a token is the number of its generation. -/
structure State where
  seen : Dict String Entry := Dict.empty
  ops : ℕ := 0
  generation : ℕ := 0

section Model
variable (maxAge : ℚ) (maxSize : ℕ)

def unexpired (now : ℚ) (seen : Dict String Entry) : List (String × Entry) :=
  seen.entries.filter fun entry => ¬ entry.2.at < now - maxAge

def prune (now : ℚ) (seen : Dict String Entry) : Dict String Entry :=
  ⟨(unexpired maxAge now seen).drop ((unexpired maxAge now seen).length - maxSize)⟩

/-- The start of an `acquire`: every hundredth prunes, by a clock reading of its own. -/
def State.tick (s : State) (pruned : ℚ) : State :=
  if 100 ≤ s.ops + 1 then { s with ops := 0, seen := prune maxAge maxSize pruned s.seen } else { s with ops := s.ops + 1 }

/-- `acquire`: the token, or nothing for a duplicate. -/
def State.acquire (s : State) (id : String) (pruned now : ℚ) : Option ℕ × State :=
  let s := s.tick maxAge maxSize pruned
  if (s.seen.get? id).any fun existing => now - existing.at ≤ maxAge then (none, s)
  else (some s.generation, { s with seen := s.seen.set id ⟨now, s.generation⟩, generation := s.generation + 1 })

def State.forget (s : State) (id : String) (token : ℕ) : State :=
  if (s.seen.get? id).map (·.token) = some token then { s with seen := s.seen.erase id } else s

structure Grant where
  id : String
  «at» : ℚ
  token : ℕ
deriving DecidableEq

inductive Call where
  | acquire (id : String) (pruned now : ℚ)
  | forget (id : String) (token : ℕ)

/-- The map with its history: what was granted, the latest first, the tokens given back, and the last clock reading. -/
structure World where
  state : State := {}
  granted : List Grant := []
  forgotten : List (String × ℕ) := []
  clock : ℚ

def World.step (w : World) : Call → World
  | .acquire id pruned now => match w.state.acquire maxAge maxSize id pruned now with
    | (none, s) => { w with state := s, clock := now }
    | (some token, s) => { w with state := s, granted := ⟨id, now, token⟩ :: w.granted, clock := now }
  | .forget id token => { w with state := w.state.forget id token, forgotten := (id, token) :: w.forgotten }

def World.give (w : World) (id : String) (now : ℚ) : World := { w with
  state := { w.state with seen := w.state.seen.set id ⟨now, w.state.generation⟩, generation := w.state.generation + 1 }
  granted := ⟨id, now, w.state.generation⟩ :: w.granted
  clock := now }

/-- Histories at clocks that never go back, each of whose prunes finds the map as `Prunes` says. -/
inductive Reached (Prunes : State → ℚ → Prop) : World → Prop
  | start (clock : ℚ) : Reached Prunes { clock := clock }
  | acquire {w : World} (h : Reached Prunes w) (id : String) {pruned now : ℚ} (hpruned : w.clock ≤ pruned) (hnow : pruned ≤ now)
      (hprunes : Prunes w.state pruned) : Reached Prunes (w.step maxAge maxSize (.acquire id pruned now))
  | forget {w : World} (h : Reached Prunes w) (id : String) (token : ℕ) :
      Reached Prunes (w.step maxAge maxSize (.forget id token))

def World.last (w : World) (id : String) : Option Grant := w.granted.find? (·.id = id)

def World.since (w : World) (id : String) : Finset String := ((w.granted.takeWhile (·.id ≠ id)).map (·.id)).toFinset

/-- A prune that has to evict for the size evicts what was granted before everything that it keeps. -/
def EvictsOldest (s : State) (pruned : ℚ) : Prop := 100 ≤ s.ops + 1 →
  let kept := unexpired maxAge pruned s.seen
  ∀ evicted ∈ kept.take (kept.length - maxSize), ∀ entry ∈ kept.drop (kept.length - maxSize), evicted.2.token < entry.2.token

/-- The map holds only last grants; tokens are in the order of the grants. -/
structure Inv (w : World) : Prop where
  unique : w.state.seen.Unique
  entry : ∀ id e, w.state.seen.get? id = some e → w.last id = some ⟨id, e.at, e.token⟩
  ordered : w.granted.Pairwise fun later earlier => earlier.token < later.token
  fresh : ∀ grant ∈ w.granted, grant.token < w.state.generation

/-- A last grant is in the map, or is given back, too old, or followed by too many others. -/
def Remembers (w : World) : Prop := ∀ id grant, w.last id = some grant → (id, grant.token) ∉ w.forgotten →
  w.state.seen.get? id = some ⟨grant.at, grant.token⟩ ∨ maxAge < w.clock - grant.at ∨ maxSize ≤ (w.since id).card

end Model

section Steps
variable {maxAge pruned now : ℚ} {maxSize : ℕ} {w : World} {id : String} {e : Entry} {grant : Grant}

lemma tick_cases (maxAge : ℚ) (maxSize : ℕ) (s : State) (pruned : ℚ) : (s.tick maxAge maxSize pruned).generation = s.generation ∧
    ((s.tick maxAge maxSize pruned).seen = s.seen ∨
      100 ≤ s.ops + 1 ∧ (s.tick maxAge maxSize pruned).seen = prune maxAge maxSize pruned s.seen) := by
  unfold State.tick
  split_ifs with hops
  · exact ⟨rfl, .inr ⟨hops, rfl⟩⟩
  · exact ⟨rfl, .inl rfl⟩

lemma prune_sublist (maxAge : ℚ) (maxSize : ℕ) (now : ℚ) (seen : Dict String Entry) :
    (prune maxAge maxSize now seen).entries.Sublist seen.entries :=
  (drop_sublist _ _).trans filter_sublist

lemma Inv.tick (h : Inv w) (pruned clock : ℚ) :
    Inv { w with state := w.state.tick maxAge maxSize pruned, clock := clock } := by
  obtain ⟨hgeneration, hseen⟩ := tick_cases maxAge maxSize w.state pruned
  have hsublist : (w.state.tick maxAge maxSize pruned).seen.entries.Sublist w.state.seen.entries := by
    rcases hseen with hsame | ⟨-, hpruned⟩
    · rw [hsame]
    · rw [hpruned]
      exact prune_sublist maxAge maxSize pruned w.state.seen
  have hunique : (w.state.tick maxAge maxSize pruned).seen.Unique := h.unique.sublist (hsublist.map _)
  refine ⟨hunique, fun id e hget => h.entry id e ?_, h.ordered, fun grant hgrant => ?_⟩
  · rw [Dict.get?_eq_some_iff h.unique]
    exact hsublist.subset ((Dict.get?_eq_some_iff hunique).mp hget)
  · exact hgeneration ▸ h.fresh grant hgrant

lemma Inv.evicted (h : Inv w) (hlast : w.last id = some grant)
    (hmem : (id, e) ∈ (unexpired maxAge pruned w.state.seen).take ((unexpired maxAge pruned w.state.seen).length - maxSize))
    (holdest : ∀ entry ∈ (unexpired maxAge pruned w.state.seen).drop ((unexpired maxAge pruned w.state.seen).length - maxSize),
      grant.token < entry.2.token) : maxSize ≤ (w.since id).card := by
  have hlong := length_pos_of_mem hmem
  rw [length_take] at hlong
  have hunique : (prune maxAge maxSize pruned w.state.seen).Unique :=
    h.unique.sublist ((prune_sublist maxAge maxSize pruned w.state.seen).map _)
  have hcard : ((prune maxAge maxSize pruned w.state.seen).entries.map Prod.fst).toFinset.card = maxSize := by
    rw [toFinset_card_of_nodup hunique, length_map, prune, length_drop]
    omega
  rw [← hcard]
  refine Finset.card_le_card fun key hkey => ?_
  obtain ⟨entry, hentry, rfl⟩ := mem_map.mp (mem_toFinset.mp hkey)
  have hget : w.state.seen.get? entry.1 = some entry.2 := (Dict.get?_eq_some_iff h.unique).mpr
    ((prune_sublist maxAge maxSize pruned w.state.seen).subset hentry)
  have hgranted := mem_of_find?_eq_some (h.entry _ _ hget)
  obtain ⟨hid, since, earlier, hsplit, hsince⟩ := find?_eq_some_iff_append.mp hlast
  have hafter := holdest entry hentry
  have hordered := h.ordered
  rw [hsplit] at hgranted hordered
  have hnew : (⟨entry.1, entry.2.at, entry.2.token⟩ : Grant) ∈ since := by
    rcases mem_append.mp hgranted with hmem | hmem
    · exact hmem
    · rcases mem_cons.mp hmem with rfl | hmem
      · exact absurd hafter (lt_irrefl _)
      · have hbefore := rel_of_pairwise_cons (pairwise_append.mp hordered).2.1 hmem
        exact absurd hafter (lt_asymm hbefore)
  have htake : w.granted.takeWhile (·.id ≠ id) = since := by
    rw [hsplit, takeWhile_append_of_pos (by simpa using hsince), takeWhile_cons_of_neg (by simpa using hid),
      append_nil]
  unfold World.since
  rw [htake]
  exact mem_toFinset.mpr (mem_map_of_mem hnew)

lemma Remembers.tick (h : Remembers maxAge maxSize w) (hinv : Inv w) (hpruned : w.clock ≤ pruned)
    (holdest : EvictsOldest maxAge maxSize w.state pruned) :
    Remembers maxAge maxSize { w with state := w.state.tick maxAge maxSize pruned, clock := pruned } := by
  intro id grant hlast hkept
  rcases h id grant hlast hkept with hget | hold | hmany
  · obtain ⟨-, hsame | ⟨hops, hseen⟩⟩ := tick_cases maxAge maxSize w.state pruned
    · exact .inl (hsame ▸ hget)
    · by_cases hexpired : grant.at < pruned - maxAge
      · exact .inr (.inl (by linarith))
      · have hmem : (id, (⟨grant.at, grant.token⟩ : Entry)) ∈ unexpired maxAge pruned w.state.seen :=
          mem_filter.mpr ⟨(Dict.get?_eq_some_iff hinv.unique).mp hget, by simpa using hexpired⟩
        rw [← take_append_drop ((unexpired maxAge pruned w.state.seen).length - maxSize)
          (unexpired maxAge pruned w.state.seen)] at hmem
        rcases mem_append.mp hmem with hevicted | hstays
        · exact .inr (.inr (hinv.evicted hlast hevicted (holdest hops _ hevicted)))
        · refine .inl ?_
          change (w.state.tick maxAge maxSize pruned).seen.get? id = _
          rw [hseen, Dict.get?_eq_some_iff (hinv.unique.sublist ((prune_sublist maxAge maxSize pruned w.state.seen).map _))]
          exact hstays
  · exact .inr (.inl (by change maxAge < pruned - grant.at; linarith))
  · exact .inr (.inr hmany)

lemma step_acquire (maxAge : ℚ) (maxSize : ℕ) (w : World) (id : String) (pruned now : ℚ) :
    w.step maxAge maxSize (.acquire id pruned now) = { w with state := w.state.tick maxAge maxSize pruned, clock := now } ∨
      w.step maxAge maxSize (.acquire id pruned now) =
        { w with state := w.state.tick maxAge maxSize pruned, clock := pruned }.give id now := by
  unfold World.step State.acquire
  dsimp only
  split_ifs
  · exact .inl rfl
  · exact .inr rfl

lemma last_give (w : World) (id key : String) (now : ℚ) :
    (w.give id now).last key = if key = id then some ⟨id, now, w.state.generation⟩ else w.last key := by
  unfold World.last World.give
  rw [find?_cons]
  by_cases hkey : key = id
  · simp [hkey]
  · simp [hkey, Ne.symm hkey]

lemma Inv.give (h : Inv w) (id : String) (now : ℚ) : Inv (w.give id now) := by
  refine ⟨h.unique.set _ _, fun key e hkey => ?_, pairwise_cons.mpr ⟨h.fresh, h.ordered⟩, fun grant hgrant => ?_⟩
  · change (w.state.seen.set id ⟨now, w.state.generation⟩).get? key = some e at hkey
    rw [Dict.get?_set] at hkey
    rw [last_give]
    split_ifs at hkey ⊢ with heq
    · cases hkey
      rw [heq]
    · exact h.entry key e hkey
  · rcases mem_cons.mp hgrant with rfl | hgrant
    · exact Nat.lt_succ_self _
    · exact (h.fresh grant hgrant).trans (Nat.lt_succ_self _)

lemma Remembers.give (h : Remembers maxAge maxSize w) (hnow : w.clock ≤ now) (id : String) :
    Remembers maxAge maxSize (w.give id now) := by
  intro key grant hlast hkept
  rw [last_give] at hlast
  change (w.state.seen.set id ⟨now, w.state.generation⟩).get? key = _ ∨ maxAge < now - grant.at ∨ _
  rw [Dict.get?_set]
  split_ifs at hlast ⊢ with heq
  · cases hlast
    exact .inl rfl
  · rcases h key grant hlast hkept with hin | hold | hmany
    · exact .inl hin
    · exact .inr (.inl (by linarith))
    · refine .inr (.inr (hmany.trans (Finset.card_le_card ?_)))
      unfold World.since World.give
      rw [takeWhile_cons_of_pos (by simpa using Ne.symm heq), map_cons, toFinset_cons]
      exact Finset.subset_insert _ _

lemma Inv.forget (h : Inv w) (id : String) (token : ℕ) :
    Inv { w with state := w.state.forget id token, forgotten := (id, token) :: w.forgotten } := by
  unfold State.forget
  split_ifs
  · refine ⟨h.unique.erase _, fun key e hget => h.entry key e ?_, h.ordered, h.fresh⟩
    rw [Dict.get?_erase] at hget
    split_ifs at hget
    exact hget
  · exact ⟨h.unique, h.entry, h.ordered, h.fresh⟩

lemma Remembers.forget (h : Remembers maxAge maxSize w) (id : String) (token : ℕ) :
    Remembers maxAge maxSize { w with state := w.state.forget id token, forgotten := (id, token) :: w.forgotten } := by
  intro key grant hlast hkept
  rw [mem_cons, not_or] at hkept
  refine (h key grant hlast hkept.2).imp_left fun hget => ?_
  unfold State.forget
  split_ifs with hown
  · change (w.state.seen.erase id).get? key = _
    rw [Dict.get?_erase, if_neg, hget]
    rintro rfl
    rw [hget] at hown
    exact hkept.1 (by rw [← Option.some.inj hown])
  · exact hget

variable {Prunes : State → ℚ → Prop}

lemma Reached.inv (h : Reached maxAge maxSize Prunes w) : Inv w := by
  induction h with
  | start clock => exact ⟨Dict.unique_empty, fun _ _ hget => (nomatch hget), .nil, fun _ hmem => (nomatch hmem)⟩
  | forget _ id token ih => exact ih.forget id token
  | @acquire w _ id pruned now _ _ _ ih =>
    rcases step_acquire maxAge maxSize w id pruned now with heq | heq
    · rw [heq]
      exact ih.tick pruned now
    · rw [heq]
      exact (ih.tick pruned pruned).give id now

lemma Reached.remembers (h : Reached maxAge maxSize (EvictsOldest maxAge maxSize) w) : Remembers maxAge maxSize w := by
  induction h with
  | start clock => exact fun _ _ hlast => nomatch hlast
  | forget _ id token ih => exact ih.forget id token
  | @acquire w h id pruned now hpruned hnow holdest ih =>
    have hticked := ih.tick h.inv hpruned holdest
    rcases step_acquire maxAge maxSize w id pruned now with heq | heq
    · rw [heq]
      intro key grant hlast hkept
      refine (hticked key grant hlast hkept).imp_right (Or.imp_left fun hold => ?_)
      change maxAge < now - grant.at
      exact lt_of_lt_of_le hold (sub_le_sub_right hnow _)
    · rw [heq]
      exact hticked.give hnow id

end Steps

/-- An unforgotten grant within the window makes a duplicate while fewer others followed than the map may hold, wherever
prunes evict what was granted first; and in any history a grant is over once the window has passed, and is not undone by
the token of another. -/
theorem dedupe_window (maxAge : ℚ) (maxSize : ℕ) :
    (∀ w, Reached maxAge maxSize (EvictsOldest maxAge maxSize) w → ∀ id grant pruned now, w.clock ≤ pruned → pruned ≤ now →
      EvictsOldest maxAge maxSize w.state pruned → w.last id = some grant → (id, grant.token) ∉ w.forgotten →
      now - grant.at ≤ maxAge → (w.since id).card < maxSize → (w.state.acquire maxAge maxSize id pruned now).1 = none) ∧
    ∀ w, Reached maxAge maxSize (fun _ _ => True) w → ∀ id,
      (∀ grant token, w.last id = some grant → token ≠ grant.token → w.state.forget id token = w.state) ∧
      ∀ pruned now, (∀ grant, w.last id = some grant → maxAge < now - grant.at) →
        (w.state.acquire maxAge maxSize id pruned now).1.isSome = true := by
  refine ⟨fun w h id grant pruned now hpruned hnow holdest hlast hkept hwindow hfew => ?_, fun w h id => ⟨?_, ?_⟩⟩
  · have hticked := h.remembers.tick h.inv hpruned holdest
    rcases hticked id grant hlast hkept with hget | hold | hmany
    · unfold State.acquire
      change (w.state.tick maxAge maxSize pruned).seen.get? id = _ at hget
      dsimp only
      rw [hget, if_pos (by simpa using hwindow)]
    · change maxAge < pruned - grant.at at hold
      linarith
    · exact absurd hfew (Nat.not_lt.mpr hmany)
  · intro grant token hlast hother
    refine if_neg fun hown => ?_
    obtain ⟨e, hget, rfl⟩ := Option.map_eq_some_iff.mp hown
    rw [h.inv.entry id e hget] at hlast
    cases hlast
    exact hother rfl
  · intro pruned now hover
    unfold State.acquire
    dsimp only
    rw [if_neg]
    · rfl
    · intro hany
      obtain ⟨e, hget, hwindow⟩ := (Option.any_eq_true _ _).mp hany
      have hlast := (h.inv.tick pruned now).entry id e hget
      have := hover _ hlast
      have hle := of_decide_eq_true hwindow
      linarith

namespace DedupeSample

def call : Call := .acquire "a" 11 11

/-- `a` is granted again while its old entry stands before that of `b`, and refused up to the hundredth acquire. -/
def renewed : World :=
  (List.replicate 96 call).foldl (World.step 10 1) (([.acquire "a" 0 0, .acquire "b" 5 5, call] : List Call).foldl
    (World.step 10 1) { clock := 0 })

lemma reached_calls (n : ℕ) {w : World} (h : Reached 10 1 (fun _ _ => True) w) (hclock : w.clock = 11) :
    Reached 10 1 (fun _ _ => True) ((List.replicate n call).foldl (World.step 10 1) w) := by
  induction n generalizing w with
  | zero => exact h
  | succ n ih =>
    refine ih (h.acquire "a" hclock.le le_rfl trivial) ?_
    rcases step_acquire 10 1 w "a" 11 11 with heq | heq
    · exact congrArg World.clock heq
    · exact congrArg World.clock heq

theorem renewed_evicted : ¬ ∀ (maxAge : ℚ) (maxSize : ℕ) (w : World), Reached maxAge maxSize (fun _ _ => True) w →
    ∀ id grant pruned now, w.clock ≤ pruned → pruned ≤ now → w.last id = some grant → (id, grant.token) ∉ w.forgotten →
      now - grant.at ≤ maxAge → (w.since id).card < maxSize → (w.state.acquire maxAge maxSize id pruned now).1 = none := by
  intro hall
  have hstart : Reached 10 1 (fun _ _ => True) { clock := 0 } := .start 0
  have hboth := (hstart.acquire "a" (le_refl 0) (le_refl 0) trivial).acquire "b" (by decide) (le_refl 5) trivial
  have hreached : Reached 10 1 (fun _ _ => True) renewed :=
    reached_calls 96 (hboth.acquire "a" (by decide) (le_refl 11) trivial) (by decide +kernel)
  have hduplicate := hall 10 1 renewed hreached "a" ⟨"a", 11, 2⟩ 12 12 (by decide +kernel) le_rfl (by decide +kernel)
    (by decide +kernel) (by decide +kernel) (by decide +kernel)
  exact absurd hduplicate (by decide +kernel)

def fresh : World := World.step 10 1 { clock := 0 } (.acquire "a" 0 0)

theorem dedupe_window_fresh : (fresh.state.acquire 10 1 "a" 5 5).1 = none ∧ fresh.state.forget "a" 7 = fresh.state ∧
    (fresh.state.acquire 10 1 "a" 11 11).1.isSome = true := by
  have hnone : EvictsOldest 10 1 fresh.state 5 := fun hops => absurd hops (by decide)
  have hlast : fresh.last "a" = some ⟨"a", 0, 0⟩ := by decide
  obtain ⟨hwindow, hover⟩ := dedupe_window 10 1
  have hreached : ∀ Prunes, Prunes {} 0 → Reached 10 1 Prunes fresh := fun Prunes hprunes =>
    (Reached.start 0).acquire "a" le_rfl le_rfl hprunes
  obtain ⟨hforget, hagain⟩ := hover fresh (hreached _ trivial) "a"
  refine ⟨hwindow fresh (hreached _ fun hops => absurd hops (by decide)) "a" ⟨"a", 0, 0⟩ 5 5 (by decide) le_rfl hnone
    hlast (by decide) (by decide +kernel) (by decide), hforget _ 7 hlast (by decide), hagain 11 11 ?_⟩
  intro grant hgrant
  obtain rfl := Option.mem_unique hlast hgrant
  decide +kernel

end DedupeSample

end Dedupe
end OpenOmni
