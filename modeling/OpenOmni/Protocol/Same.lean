import OpenOmni.Lib.KeySort
import OpenOmni.Protocol.Plain

/-! Values of one canonical form: the same JSON value, up to the order of its objects' keys. -/
namespace OpenOmni
namespace PlainValue
open List

open KeySort

def Same (a b : PlainValue) : Prop := a.canonical = b.canonical

lemma Same.refl (a : PlainValue) : Same a a := rfl

variable {a : PlainValue} {b : Option PlainValue} {f g : List (String × PlainValue)} {d e : Dict String PlainValue}

lemma Same.symm {b : PlainValue} (h : Same a b) : Same b a := Eq.symm h

def SameSlot (a b : Option PlainValue) : Prop := a.map canonical = b.map canonical

lemma SameSlot.eq_or {a : Option PlainValue} (h : SameSlot a b) :
    (a = none ∧ b = none) ∨ ∃ v w, a = some v ∧ b = some w ∧ Same v w := by
  cases a with
  | none =>
    cases b with
    | none => exact Or.inl ⟨rfl, rfl⟩
    | some w => simp [SameSlot] at h
  | some v =>
    cases b with
    | none => simp [SameSlot] at h
    | some w => exact Or.inr ⟨v, w, rfl, rfl, Option.some.inj h⟩

lemma SameSlot.getD {a : Option PlainValue} (h : SameSlot a b) (v : PlainValue) : Same (a.getD v) (b.getD v) := by
  rcases h.eq_or with ⟨rfl, rfl⟩ | ⟨_, _, rfl, rfl, hsame⟩
  · rfl
  · exact hsame

def SameFields (f g : List (String × PlainValue)) : Prop :=
  ∀ key, (ofKey key f).map (fun e => e.2.canonical) = (ofKey key g).map fun e => e.2.canonical

lemma ofKey_map_canonical (key : String) (f : List (String × PlainValue)) :
    ofKey key (f.map fun e => (e.1, e.2.canonical)) = (ofKey key f).map fun e => (key, e.2.canonical) := by
  unfold ofKey
  rw [filter_map]
  apply map_congr_left
  intro e he
  have hkey : e.1 = key := by simpa using (mem_filter.mp he).2
  rw [hkey]

lemma canonical_obj (f : List (String × PlainValue)) :
    canonical (.obj f) = .obj (sorted (f.map fun e => (e.1, e.2.canonical))) := by
  rw [canonical, canonicalFields_eq_map]
  unfold sorted
  congr

lemma same_obj_iff : Same (.obj f) (.obj g) ↔ SameFields f g := by
  have hsort : Same (.obj f) (.obj g) ↔
      sorted (f.map fun e => (e.1, e.2.canonical)) = sorted (g.map fun e => (e.1, e.2.canonical)) := by
    unfold Same
    rw [canonical_obj, canonical_obj, PlainValue.obj.injEq]
  rw [hsort, KeySort.sorted_eq_iff]
  apply forall_congr'
  intro key
  rw [ofKey_map_canonical, ofKey_map_canonical]
  constructor
  · intro h
    have hsnd := congrArg (List.map Prod.snd) h
    simpa [map_map, Function.comp_def] using hsnd
  · intro h
    have hpair := congrArg (List.map (Prod.mk key)) h
    simpa [map_map, Function.comp_def] using hpair

theorem Same.obj_of_obj (h : Same a (.obj g)) : ∃ f, a = .obj f := by
  cases a with
  | obj f => exact ⟨f, rfl⟩
  | _ => simp [Same, canonical] at h

lemma Same.eq_str {s : String} (h : Same a (.str s)) : a = .str s := by
  cases a with
  | str t => simpa [Same] using h
  | _ => simp [Same, canonical] at h

lemma Same.asStr {b : PlainValue} (h : Same a b) : a.asStr = b.asStr := by
  cases b with
  | str s => rw [h.eq_str]
  | _ =>
    cases a with
    | str t =>
      have hstr := (Same.symm h).eq_str
      cases hstr
    | _ => rfl

lemma lookup_eq_ofKey (key : String) (f : List (String × PlainValue)) :
    f.lookup key = (ofKey key f).head?.map (·.2) := by
  induction f with
  | nil => rfl
  | cons e f ih =>
    obtain ⟨k, v⟩ := e
    by_cases hkey : key = k
    · subst hkey
      simp [ofKey]
    · have hbeq : (key == k) = false := by simpa using hkey
      have hne : ¬ k = key := fun heq => hkey heq.symm
      rw [lookup_cons, hbeq]
      simp only [ofKey, filter_cons, hne, decide_false, Bool.false_eq_true, if_false]
      exact ih

lemma SameFields.lookup (h : SameFields f g) (key : String) : SameSlot (f.lookup key) (g.lookup key) := by
  have hhead := congrArg List.head? (h key)
  rw [head?_map, head?_map] at hhead
  unfold SameSlot
  rw [lookup_eq_ofKey, lookup_eq_ofKey, Option.map_map, Option.map_map]
  exact hhead

lemma Same.get? {b : PlainValue} (h : Same a b) (key : String) : SameSlot (a.get? key) (b.get? key) := by
  cases b with
  | obj g =>
    obtain ⟨f, rfl⟩ := h.obj_of_obj
    exact (same_obj_iff.mp h).lookup key
  | _ =>
    cases a with
    | obj f =>
      obtain ⟨_, hobj⟩ := (Same.symm h).obj_of_obj
      cases hobj
    | _ => rfl

lemma SameSlot.bind_get? {a : Option PlainValue} (h : SameSlot a b) (key : String) :
    SameSlot (a.bind (·.get? key)) (b.bind (·.get? key)) := by
  rcases h.eq_or with ⟨rfl, rfl⟩ | ⟨_, _, rfl, rfl, hsame⟩
  · rfl
  · exact hsame.get? key

lemma SameSlot.bind_asStr {a : Option PlainValue} (h : SameSlot a b) : a.bind asStr = b.bind asStr := by
  rcases h.eq_or with ⟨rfl, rfl⟩ | ⟨_, _, rfl, rfl, hsame⟩
  · rfl
  · exact hsame.asStr

def SameDict (d e : Dict String PlainValue) : Prop := SameFields d.entries e.entries

lemma SameFields.contains (h : SameFields f g) (key : String) : (f.any (·.1 = key)) = g.any (·.1 = key) := by
  have hempty : ∀ l : List (String × PlainValue), l.any (·.1 = key) = !((ofKey key l).map fun e => e.2.canonical).isEmpty := by
    intro l
    rw [isEmpty_map, Bool.eq_iff_iff, Bool.not_eq_true', isEmpty_eq_false_iff_exists_mem, any_eq_true]
    constructor
    · rintro ⟨e, he, hkey⟩
      exact ⟨e, mem_ofKey.mpr ⟨he, by simpa using hkey⟩⟩
    · rintro ⟨e, he⟩
      obtain ⟨hmem, hkey⟩ := mem_ofKey.mp he
      exact ⟨e, hmem, by simpa using hkey⟩
  rw [hempty f, hempty g, h key]

lemma SameDict.erase (h : SameDict d e) (key : String) : SameDict (d.erase key) (e.erase key) := by
  intro other
  have hfilter : ∀ l : List (String × PlainValue), ofKey other (l.filter fun e => e.1 ≠ key) =
      if other = key then [] else ofKey other l := by
    intro l
    unfold ofKey
    rw [filter_filter]
    split
    · rename_i heq
      subst heq
      rw [filter_eq_nil_iff]
      intro e _
      simp
    · rename_i hne
      apply filter_congr
      intro e _
      by_cases hkey : e.1 = other
      · simp [hkey, hne]
      · simp [hkey]
  change (ofKey other (d.entries.filter _)).map _ = (ofKey other (e.entries.filter _)).map _
  rw [hfilter, hfilter]
  split
  · rfl
  · exact h other

lemma SameDict.set (h : SameDict d e) (key : String) {v w : PlainValue} (hv : Same v w) :
    SameDict (d.set key v) (e.set key w) := by
  have hcontains : d.contains key = e.contains key := SameFields.contains h key
  intro other
  by_cases hin : e.contains key = true
  · have hreplace : ∀ (l : List (String × PlainValue)) (u : PlainValue),
        (ofKey other (l.map fun e => if e.1 = key then (key, u) else e)).map (fun e => e.2.canonical) =
          (ofKey other l).map fun e => if other = key then u.canonical else e.2.canonical := by
      intro l u
      unfold ofKey
      rw [filter_map, map_map]
      have hkeys : ((fun e : String × PlainValue => decide (e.1 = other)) ∘ fun e => if e.1 = key then (key, u) else e) =
          fun e => decide (e.1 = other) := by
        funext e
        by_cases hkey : e.1 = key
        · simp [hkey]
        · simp [hkey]
      rw [hkeys]
      apply map_congr_left
      intro e he
      have hother : e.1 = other := by simpa using (mem_filter.mp he).2
      by_cases hkey : other = key
      · simp [hother, hkey]
      · simp [hother, hkey]
    unfold Dict.set
    rw [hcontains, if_pos hin, if_pos hin]
    change (ofKey other _).map _ = (ofKey other _).map _
    rw [hreplace, hreplace]
    split
    · have hlength := congrArg List.length (h other)
      rw [length_map, length_map] at hlength
      rw [map_const', map_const', hlength, hv]
    · exact h other
  · unfold Dict.set
    rw [hcontains, if_neg hin, if_neg hin]
    change (ofKey other (d.entries ++ [(key, v)])).map _ = (ofKey other (e.entries ++ [(key, w)])).map _
    have hsplit : ∀ (l : List (String × PlainValue)) (u : PlainValue),
        (ofKey other (l ++ [(key, u)])).map (fun e => e.2.canonical) =
          (ofKey other l).map (fun e => e.2.canonical) ++ if key = other then [u.canonical] else [] := by
      intro l u
      unfold ofKey
      rw [filter_append, map_append]
      congr 1
      by_cases hkey : key = other
      · simp [hkey]
      · simp [hkey]
    rw [hsplit, hsplit, h other, hv]

end PlainValue
end OpenOmni
