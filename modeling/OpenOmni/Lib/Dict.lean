import Mathlib.Data.List.Basic
import Mathlib.Data.List.Nodup
import Mathlib.Data.List.Perm.Basic

/-! Finite maps that list their entries in the order of insertion: a key set again keeps its place. -/

structure Dict (κ ν : Type*) where
  entries : List (κ × ν) := []
deriving DecidableEq

namespace Dict
open List

variable {κ ν : Type*} [DecidableEq κ]

def empty : Dict κ ν := ⟨[]⟩

def get? (d : Dict κ ν) (k : κ) : Option ν := (d.entries.find? (·.1 = k)).map (·.2)

def contains (d : Dict κ ν) (k : κ) : Bool := d.entries.any (·.1 = k)

def set (d : Dict κ ν) (k : κ) (v : ν) : Dict κ ν :=
  if d.contains k then ⟨d.entries.map fun e => if e.1 = k then (k, v) else e⟩
  else ⟨d.entries ++ [(k, v)]⟩

def erase (d : Dict κ ν) (k : κ) : Dict κ ν := ⟨d.entries.filter (·.1 ≠ k)⟩

def values (d : Dict κ ν) : List ν := d.entries.map (·.2)

@[simp] theorem get?_empty (k : κ) : (empty : Dict κ ν).get? k = none := rfl

lemma contains_iff (d : Dict κ ν) (k : κ) : d.contains k = (d.get? k).isSome := by
  rw [Bool.eq_iff_iff, get?, Option.isSome_map, find?_isSome, contains, any_eq_true]

lemma get?_set (d : Dict κ ν) (k k' : κ) (v : ν) :
    (d.set k v).get? k' = if k' = k then some v else d.get? k' := by
  have hkey : ∀ e : κ × ν, (if e.1 = k then (k, v) else e).1 = e.1 := by
    intro e
    split
    · rename_i h
      exact h.symm
    · rfl
  unfold set
  split
  · rename_i hcontains
    simp only [get?, find?_map, Function.comp_def, hkey, Option.map_map]
    by_cases h : k' = k
    · subst h
      rw [contains_iff, get?, Option.isSome_map] at hcontains
      obtain ⟨e, he⟩ := Option.isSome_iff_exists.mp hcontains
      have hid : e.1 = k' := by simpa using find?_some he
      simp [he, hid]
    · rw [if_neg h]
      cases he : d.entries.find? (·.1 = k') with
      | none => rfl
      | some e =>
        have hid : e.1 = k' := by simpa using find?_some he
        have hne : e.1 ≠ k := by
          rw [hid]
          exact h
        simp [hne]
  · rename_i hcontains
    simp only [get?, find?_append]
    by_cases h : k' = k
    · subst h
      rw [contains_iff, get?, Option.isSome_map, Bool.not_eq_true, Option.isSome_eq_false_iff,
        Option.isNone_iff_eq_none] at hcontains
      simp [hcontains]
    · have hne : ¬ k = k' := fun heq => h heq.symm
      simp [h, hne]

@[simp] theorem get?_set_self (d : Dict κ ν) (k : κ) (v : ν) : (d.set k v).get? k = some v := by
  simp [get?_set]

variable {k : κ} {d : Dict κ ν} {v w : ν} {entries : List (κ × ν)}

lemma get?_set_of_ne (d : Dict κ ν) {k' : κ} (v : ν) (h : k' ≠ k) : (d.set k v).get? k' = d.get? k' := by
  simp [get?_set, h]

lemma get?_erase (d : Dict κ ν) (k k' : κ) : (d.erase k).get? k' = if k' = k then none else d.get? k' := by
  unfold erase get?
  rw [find?_filter]
  split
  · rename_i h
    subst h
    simp
  · rename_i h
    have hsame : (fun e : κ × ν => decide (decide (e.1 ≠ k) = true ∧ decide (e.1 = k') = true)) = fun e => decide (e.1 = k') := by
      funext e
      by_cases he : e.1 = k'
      · simp [he, h]
      · simp [he]
    rw [hsame]

lemma contains_set (d : Dict κ ν) (k k' : κ) (v : ν) :
    (d.set k v).contains k' = if k' = k then true else d.contains k' := by
  rw [contains_iff, get?_set, contains_iff]
  split <;> rfl

lemma contains_erase (d : Dict κ ν) (k k' : κ) :
    (d.erase k).contains k' = if k' = k then false else d.contains k' := by
  rw [contains_iff, get?_erase, contains_iff]
  split <;> rfl

lemma values_eq_nil_iff (d : Dict κ ν) : d.values = [] ↔ ∀ k, d.get? k = none := by
  unfold values
  rw [map_eq_nil_iff]
  constructor
  · intro h k
    simp [get?, h]
  · intro h
    cases hd : d.entries with
    | nil => rfl
    | cons e entries =>
      have hnone := h e.1
      simp [get?, hd] at hnone

theorem mem_values_set (h : w ∈ (d.set k v).values) : w = v ∨ w ∈ d.values := by
  obtain ⟨e, he, rfl⟩ := mem_map.mp h
  unfold set at he
  split at he
  · obtain ⟨old, hold, rfl⟩ := mem_map.mp he
    split
    · exact Or.inl rfl
    · exact Or.inr (mem_map_of_mem hold)
  · rcases mem_append.mp he with he | he
    · exact Or.inr (mem_map_of_mem he)
    · obtain rfl := mem_singleton.mp he
      exact Or.inl rfl

lemma mem_values_erase (h : w ∈ (d.erase k).values) : w ∈ d.values := by
  obtain ⟨e, he, rfl⟩ := mem_map.mp h
  exact mem_map_of_mem (mem_of_mem_filter he)

def filter (d : Dict κ ν) (p : κ × ν → Bool) : Dict κ ν := ⟨d.entries.filter p⟩

def ofEntries (entries : List (κ × ν)) : Dict κ ν := entries.foldl (fun d e => d.set e.1 e.2) empty

def Unique (d : Dict κ ν) : Prop := (d.entries.map Prod.fst).Nodup

omit [DecidableEq κ] in
lemma unique_empty : (empty : Dict κ ν).Unique := nodup_nil

lemma Unique.set (h : d.Unique) (k : κ) (v : ν) : (d.set k v).Unique := by
  unfold Unique Dict.set
  split
  · have hkeys : (d.entries.map fun e => if e.1 = k then (k, v) else e).map Prod.fst = d.entries.map Prod.fst := by
      rw [map_map]
      apply map_congr_left
      intro e _
      by_cases he : e.1 = k
      · simp [he]
      · simp [he]
    rw [hkeys]
    exact h
  · rename_i hcontains
    rw [map_append, map_singleton]
    apply nodup_append.mpr
    refine ⟨h, nodup_singleton k, ?_⟩
    intro a ha b hb heq
    obtain rfl := mem_singleton.mp hb
    obtain ⟨e, he, rfl⟩ := mem_map.mp ha
    apply hcontains
    unfold contains
    rw [any_eq_true]
    exact ⟨e, he, by simpa using heq⟩

omit [DecidableEq κ] in
lemma Unique.filter (h : d.Unique) (p : κ × ν → Bool) : (d.filter p).Unique :=
  List.Nodup.sublist (filter_sublist.map _) h

lemma Unique.erase (h : d.Unique) (k : κ) : (d.erase k).Unique :=
  List.Nodup.sublist (filter_sublist.map _) h

lemma get?_eq_some_iff (h : d.Unique) : d.get? k = some v ↔ (k, v) ∈ d.entries := by
  unfold get?
  rw [Option.map_eq_some_iff]
  constructor
  · rintro ⟨e, he, rfl⟩
    have hkey : e.1 = k := by simpa using find?_some he
    rw [← hkey]
    exact mem_of_find?_eq_some he
  · intro hmem
    cases hfind : d.entries.find? (·.1 = k) with
    | none =>
      have hne := find?_eq_none.mp hfind (k, v) hmem
      simp at hne
    | some e =>
      have hkey : e.1 = k := by simpa using find?_some hfind
      have heq : e = (k, v) := inj_on_of_nodup_map h (mem_of_find?_eq_some hfind) hmem hkey
      exact ⟨e, rfl, by rw [heq]⟩

lemma get?_filter (h : d.Unique) (p : κ × ν → Bool) (k : κ) :
    (d.filter p).get? k = (d.get? k).filter fun v => p (k, v) := by
  apply Option.ext
  intro v
  rw [get?_eq_some_iff (h.filter p), Option.filter_eq_some_iff, get?_eq_some_iff h]
  exact mem_filter

structure Same (d d' : Dict κ ν) : Prop where
  left : d.Unique
  right : d'.Unique
  get? : ∀ k, d.get? k = d'.get? k

namespace Same

variable {d d' : Dict κ ν}

lemma refl (h : d.Unique) : Same d d := ⟨h, h, fun _ => rfl⟩

lemma symm (h : Same d d') : Same d' d := ⟨h.right, h.left, fun k => (h.get? k).symm⟩

lemma trans {d'' : Dict κ ν} (h : Same d d') (h' : Same d' d'') : Same d d'' :=
  ⟨h.left, h'.right, fun k => (h.get? k).trans (h'.get? k)⟩

lemma contains (h : Same d d') (k : κ) : d.contains k = d'.contains k := by
  rw [contains_iff, contains_iff, h.get?]

lemma set (h : Same d d') (k : κ) (v : ν) : Same (d.set k v) (d'.set k v) := by
  refine ⟨h.left.set k v, h.right.set k v, fun k' => ?_⟩
  rw [get?_set, get?_set, h.get?]

lemma erase (h : Same d d') (k : κ) : Same (d.erase k) (d'.erase k) := by
  refine ⟨h.left.erase k, h.right.erase k, fun k' => ?_⟩
  rw [get?_erase, get?_erase, h.get?]

lemma filter (h : Same d d') {p p' : κ × ν → Bool} (hp : ∀ e, p e = p' e) : Same (d.filter p) (d'.filter p') := by
  refine ⟨h.left.filter p, h.right.filter p', fun k => ?_⟩
  rw [get?_filter h.left, get?_filter h.right, h.get?]
  congr 1
  funext v
  exact hp (k, v)

lemma perm (h : Same d d') : d.entries.Perm d'.entries := by
  apply (perm_ext_iff_of_nodup (List.Nodup.of_map _ h.left) (List.Nodup.of_map _ h.right)).mpr
  rintro ⟨k, v⟩
  rw [← get?_eq_some_iff h.left, ← get?_eq_some_iff h.right, h.get?]

lemma of_perm (hd : d.Unique) (h : d.entries.Perm d'.entries) : Same d d' := by
  have hd' : d'.Unique := (h.map Prod.fst).nodup_iff.mp hd
  refine ⟨hd, hd', fun k => Option.ext fun v => ?_⟩
  rw [get?_eq_some_iff hd, get?_eq_some_iff hd', h.mem_iff]

end Same

lemma foldl_set_entries (h : ((d.entries ++ entries).map Prod.fst).Nodup) :
    (entries.foldl (fun d e => d.set e.1 e.2) d).entries = d.entries ++ entries := by
  induction entries generalizing d with
  | nil => simp
  | cons e entries ih =>
    have hnot : d.contains e.1 = false := by
      unfold Dict.contains
      rw [any_eq_false]
      intro a ha heq
      have hkey : a.1 = e.1 := by simpa using heq
      rw [map_append, nodup_append] at h
      exact h.2.2 a.1 (mem_map_of_mem ha) e.1 (by simp) hkey
    have hset : (d.set e.1 e.2).entries = d.entries ++ [e] := by simp [Dict.set, hnot]
    have hnodup : (((d.set e.1 e.2).entries ++ entries).map Prod.fst).Nodup := by
      rw [hset, append_assoc, singleton_append]
      exact h
    rw [foldl_cons, ih hnodup, hset, append_assoc, singleton_append]

theorem ofEntries_entries (h : (entries.map Prod.fst).Nodup) : (ofEntries entries).entries = entries := by
  have hset := foldl_set_entries (d := empty) (by simpa [empty] using h)
  exact hset

lemma unique_ofEntries (entries : List (κ × ν)) : (ofEntries entries).Unique := by
  unfold ofEntries
  have hset : ∀ (entries : List (κ × ν)) (d : Dict κ ν), d.Unique →
      (entries.foldl (fun d e => d.set e.1 e.2) d).Unique := by
    intro entries
    induction entries with
    | nil => exact fun _ hd => hd
    | cons e entries ih => exact fun d hd => ih _ (hd.set e.1 e.2)
  exact hset entries empty unique_empty

omit [DecidableEq κ] in
theorem lookup_eq_some_iff [BEq κ] [LawfulBEq κ] (h : (entries.map Prod.fst).Nodup) :
    entries.lookup k = some v ↔ (k, v) ∈ entries := by
  induction entries with
  | nil => simp
  | cons e entries ih =>
    obtain ⟨k', w⟩ := e
    obtain ⟨hk, hrest⟩ := nodup_cons.mp h
    by_cases hkey : k = k'
    · subst hkey
      have hnot : (k, v) ∉ entries := fun hmem => hk (mem_map.mpr ⟨_, hmem, rfl⟩)
      simp [hnot, eq_comm]
    · have hbeq : (k == k') = false := by simpa using hkey
      simp [lookup_cons, hbeq, hkey, ih hrest]

end Dict
