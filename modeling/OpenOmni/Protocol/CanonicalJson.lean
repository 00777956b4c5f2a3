import OpenOmni.Lib.KeySort
import OpenOmni.Lib.Results
import OpenOmni.Protocol.JsonRead
import Mathlib.Data.List.Lex

/-! `canonicalJson`: the text of a plain value, its keys sorted, and what two texts say of their values. -/
namespace OpenOmni
open List

open Json (Plain PlainItems PlainFields quote numberText write writeItems writeFields unsigned unsignedItems unsignedFields)

/-- `CanonicalJsonError`, by the site of its refusal. -/
inductive CanonicalJsonError where
  | notFinite
  | notPlainObject
  | undefinedAt (key : JsString)
  | inexpressible (type : JsString)

def CanonicalJsonError.message : CanonicalJsonError → JsString
  | .notFinite => ascii "canonical JSON accepts finite numbers only"
  | .notPlainObject => ascii "canonical JSON accepts plain objects only"
  | .undefinedAt key => ascii "canonical JSON cannot express undefined at " ++ key
  | .inexpressible type => ascii "canonical JSON cannot express a " ++ type

def renderField (field : JsString × Except CanonicalJsonError JsString) : Except CanonicalJsonError JsString :=
  field.2.map fun text => quote field.1 ++ 58 :: text

/-- `texts.join(",")`. -/
def joinTexts (texts : List JsString) : JsString := List.intercalate [44] texts

mutual
def renderCanonical : JsValue → Except CanonicalJsonError JsString
  | .null => .ok (ascii "null")
  | .bool b => .ok (if b then ascii "true" else ascii "false")
  | .num (.infinity _) | .num .nan => .error .notFinite
  | .num .negZero => .ok (ascii "0")
  | .num (.finite value h) => .ok (numberText (.finite value h))
  | .str s => .ok (quote s)
  | .arr items => (renderItems items).map fun entries => 91 :: (joinTexts entries ++ [93])
  | .exotic => .error .notPlainObject
  | .obj fields =>
    ((KeySort.sorted (renderFields fields)).mapM renderField).map fun fields => 123 :: (joinTexts fields ++ [125])
  | .undefined => .error (.inexpressible (ascii "undefined"))
  | .other type => .error (.inexpressible type)
def renderItems : List JsValue → Except CanonicalJsonError (List JsString)
  | [] => .ok []
  | v :: items => do
    let entry ← renderCanonical v
    let entries ← renderItems items
    return entry :: entries
/-- The fields as they come; the loop over the sorted keys stops at the first that fails. -/
def renderFields : List (JsString × JsValue) → List (JsString × Except CanonicalJsonError JsString)
  | [] => []
  | (key, .undefined) :: fields => (key, .error (.undefinedAt key)) :: renderFields fields
  | (key, v) :: fields => (key, renderCanonical v) :: renderFields fields
end

def canonicalJson (value : JsValue) : Except CanonicalJsonError JsString := renderCanonical value

def JsNumber.rational : JsNumber → Option ℚ
  | .finite value _ => some value
  | .negZero => some 0
  | .infinity _ | .nan => none

mutual
def Same : JsValue → JsValue → Prop
  | .null, .null => True
  | .bool a, .bool b => a = b
  | .num x, .num y => x.rational = y.rational
  | .str s, .str t => s = t
  | .arr items, .arr items' => SameItems items items'
  | .obj fields, .obj fields' => fields.length = fields'.length ∧ SameFields fields fields'
  | _, _ => False
def SameItems : List JsValue → List JsValue → Prop
  | [], [] => True
  | v :: items, w :: items' => Same v w ∧ SameItems items items'
  | _, _ => False
def SameFields : List (JsString × JsValue) → List (JsString × JsValue) → Prop
  | [], _ => True
  | (key, v) :: fields, fields' => (∃ w, fields'.lookup key = some w ∧ Same v w) ∧ SameFields fields fields'
end

mutual
def sortedKeys : JsValue → JsValue
  | .arr items => .arr (sortedItems items)
  | .obj fields => .obj (KeySort.sorted (sortedFields fields))
  | .null => .null
  | .bool b => .bool b
  | .num x => .num x
  | .str s => .str s
  | .undefined => .undefined
  | .exotic => .exotic
  | .other type => .other type
def sortedItems : List JsValue → List JsValue
  | [] => []
  | v :: items => sortedKeys v :: sortedItems items
def sortedFields : List (JsString × JsValue) → List (JsString × JsValue)
  | [] => []
  | (key, v) :: fields => (key, sortedKeys v) :: sortedFields fields
end

def normal (v : JsValue) : JsValue := unsigned (sortedKeys v)

variable {fields fields' : List (JsString × JsValue)} {α β : Type*} {v : JsValue}

lemma plainFields_iff : PlainFields fields ↔ ∀ field ∈ fields, Plain field.2 := by
  induction fields with
  | nil => simp [PlainFields]
  | cons field fields ih => rw [PlainFields, ih, forall_mem_cons]

lemma sortedItems_eq (items : List JsValue) : sortedItems items = items.map sortedKeys := by
  induction items with
  | nil => rfl
  | cons v items ih => rw [sortedItems, ih, map_cons]

lemma sortedFields_eq (fields : List (JsString × JsValue)) :
    sortedFields fields = fields.map fun field => (field.1, sortedKeys field.2) := by
  induction fields with
  | nil => rfl
  | cons field fields ih => rw [sortedFields, ih, map_cons]

lemma unsignedItems_eq (items : List JsValue) : unsignedItems items = items.map unsigned := by
  induction items with
  | nil => rfl
  | cons v items ih => rw [unsignedItems, ih, map_cons]

lemma unsignedFields_eq (fields : List (JsString × JsValue)) :
    unsignedFields fields = fields.map fun field => (field.1, unsigned field.2) := by
  induction fields with
  | nil => rfl
  | cons field fields ih => rw [unsignedFields, ih, map_cons]

lemma writeItems_eq (items : List JsValue) : writeItems items = joinTexts (items.map write) := by
  induction items with
  | nil => rfl
  | cons v items ih =>
    cases items with
    | nil => simp [writeItems, joinTexts, List.intercalate]
    | cons w items =>
      rw [writeItems, ih]
      simp [joinTexts, List.intercalate]

lemma writeFields_eq (fields : List (JsString × JsValue)) :
    writeFields fields = joinTexts (fields.map fun field => quote field.1 ++ 58 :: write field.2) := by
  induction fields with
  | nil => rfl
  | cons field fields ih =>
    cases fields with
    | nil => simp [writeFields, joinTexts, List.intercalate]
    | cons next fields =>
      rw [writeFields, ih]
      simp [joinTexts, List.intercalate]

theorem sorted_map (f : α → β) (fields : List (JsString × α)) :
    KeySort.sorted (fields.map fun field => (field.1, f field.2)) =
      (KeySort.sorted fields).map fun field => (field.1, f field.2) := by
  have horder : ∀ a ∈ fields, ∀ b ∈ fields,
      a.1 ≤ b.1 ↔ (fun (x y : JsString × β) => x.1 ≤ y.1) (a.1, f a.2) (b.1, f b.2) := fun _ _ _ _ => Iff.rfl
  exact (map_insertionSort (r := fun x y => x.1 ≤ y.1) (s := fun x y => x.1 ≤ y.1) (f := fun field => (field.1, f field.2)) (l := fields) horder).symm

lemma sorted_perm (fields : List (JsString × α)) : (KeySort.sorted fields).Perm fields :=
  perm_insertionSort _ _

theorem sorted_eq_iff {fields fields' : List (JsString × α)} (hkeys : (fields.map Prod.fst).Nodup) :
    KeySort.sorted fields = KeySort.sorted fields' ↔ fields.Perm fields' := by
  constructor
  · intro h
    exact (sorted_perm fields).symm.trans (h ▸ sorted_perm fields')
  · intro h
    apply KeySort.insertionSort_eq_of_perm h
    intro a ha b hb hab hba
    exact inj_on_of_nodup_map hkeys ha hb (le_antisymm hab hba)

lemma mapM_ok {ε : Type*} (f : α → β) (l : List α) :
    l.mapM (fun a => (Except.ok (f a) : Except ε β)) = .ok (l.map f) := by
  induction l with
  | nil => rfl
  | cons a l ih =>
    rw [mapM_cons, ih]
    rfl

mutual
lemma renderCanonical_write : ∀ v : JsValue, Plain v → renderCanonical v = .ok (write (sortedKeys v))
  | .null, _ | .bool true, _ | .bool false, _ | .str _, _ | .num (.finite _ _), _ | .num .negZero, _ => rfl
  | .arr items, h => by
    rw [renderCanonical, renderItems_write items h, sortedKeys, write, writeItems_eq]
    rfl
  | .obj fields, h => by
    have hfields : (KeySort.sorted (renderFields fields)).mapM renderField =
        .ok ((KeySort.sorted (sortedFields fields)).map fun field => quote field.1 ++ 58 :: write field.2) := by
      rw [renderFields_write fields h.2, sorted_map (fun v => Except.ok (write v)), List.mapM_map]
      exact mapM_ok _ _
    rw [renderCanonical, hfields, sortedKeys, write, writeFields_eq]
    rfl
lemma renderItems_write : ∀ items : List JsValue, PlainItems items →
    renderItems items = .ok ((sortedItems items).map write)
  | [], _ => rfl
  | v :: items, h => by
    rw [renderItems, renderCanonical_write v h.1, renderItems_write items h.2]
    rfl
lemma renderFields_write : ∀ fields : List (JsString × JsValue), PlainFields fields →
    renderFields fields = (sortedFields fields).map fun field => (field.1, .ok (write field.2))
  | [], _ => rfl
  | (key, v) :: fields, h => by
    have hrest := renderFields_write fields h.2
    have hv := renderCanonical_write v h.1
    cases v with
    | undefined => exact h.1.elim
    | _ => rw [renderFields, hrest, hv, sortedFields, map_cons]; simp
end

mutual
lemma plain_sortedKeys : ∀ {v : JsValue}, Plain v → Plain (sortedKeys v)
  | .null, _ | .bool _, _ | .str _, _ | .num (.finite _ _), _ | .num .negZero, _ => trivial
  | .arr _, h => plainItems_sorted h
  | .obj fields, h => by
    obtain ⟨hkeys, hfields⟩ := h
    have hperm := sorted_perm (sortedFields fields)
    refine ⟨(hperm.map Prod.fst).nodup_iff.mpr ?_, plainFields_iff.mpr ?_⟩
    · rw [sortedFields_eq, map_map]
      exact hkeys
    · intro field hfield
      exact plainFields_iff.mp (plainFields_sorted hfields) field (hperm.mem_iff.mp hfield)
lemma plainItems_sorted : ∀ {items : List JsValue}, PlainItems items → PlainItems (sortedItems items)
  | [], _ => trivial
  | _ :: _, h => ⟨plain_sortedKeys h.1, plainItems_sorted h.2⟩
lemma plainFields_sorted : ∀ {fields : List (JsString × JsValue)}, PlainFields fields →
    PlainFields (sortedFields fields)
  | [], _ => trivial
  | (_, _) :: _, h => ⟨plain_sortedKeys h.1, plainFields_sorted h.2⟩
end

mutual
theorem write_unsigned : ∀ v : JsValue, write (unsigned v) = write v
  | .null | .bool _ | .str _ | .undefined | .exotic | .other _ => rfl
  | .num (.finite _ _) | .num (.infinity _) | .num .nan => rfl
  | .num .negZero => by simp [unsigned, write, numberText]
  | .arr items => by rw [unsigned, write, write, writeItems_eq, writeItems_eq, unsignedItems_eq, write_unsignedItems items]
  | .obj fields => by
    rw [unsigned, write, write, writeFields_eq, writeFields_eq, unsignedFields_eq, write_unsignedFields fields]
lemma write_unsignedItems : ∀ items : List JsValue, (items.map unsigned).map write = items.map write
  | [] => rfl
  | v :: items => by simp [write_unsigned v, write_unsignedItems items]
lemma write_unsignedFields : ∀ fields : List (JsString × JsValue),
    (fields.map fun field => (field.1, unsigned field.2)).map (fun field => quote field.1 ++ 58 :: write field.2) =
      fields.map fun field => quote field.1 ++ 58 :: write field.2
  | [] => rfl
  | (_, v) :: fields => by
    rw [map_cons, map_cons, map_cons, write_unsigned v, write_unsignedFields fields]
end

theorem parse_canonicalJson (h : Plain v) :
    canonicalJson v = .ok (write (sortedKeys v)) ∧ Json.parse (write (sortedKeys v)) = some (normal v) :=
  ⟨renderCanonical_write v h, Json.parse_write (plain_sortedKeys h)⟩

lemma normal_arr (items : List JsValue) : normal (.arr items) = .arr (items.map normal) := by
  rw [normal, sortedKeys, unsigned, sortedItems_eq, unsignedItems_eq, map_map]
  rfl

def normalFields (fields : List (JsString × JsValue)) : List (JsString × JsValue) :=
  fields.map fun field => (field.1, normal field.2)

lemma normal_obj (fields : List (JsString × JsValue)) :
    normal (.obj fields) = .obj (KeySort.sorted (normalFields fields)) := by
  have hfields : normalFields fields = (fields.map fun field => (field.1, sortedKeys field.2)).map
      fun field => (field.1, unsigned field.2) := by
    rw [map_map]
    rfl
  rw [normal, sortedKeys, unsigned, sortedFields_eq, unsignedFields_eq, ← sorted_map, ← hfields]

lemma mem_normalFields {key : JsString} {n : JsValue} :
    (key, n) ∈ normalFields fields ↔ ∃ v, (key, v) ∈ fields ∧ normal v = n := by
  constructor
  · intro h
    obtain ⟨⟨key', v⟩, hv, heq⟩ := mem_map.mp h
    obtain ⟨rfl, rfl⟩ := Prod.mk.injEq .. ▸ heq
    exact ⟨v, hv, rfl⟩
  · rintro ⟨v, hv, rfl⟩
    exact mem_map.mpr ⟨(key, v), hv, rfl⟩

lemma normalFields_keys (fields : List (JsString × JsValue)) :
    (normalFields fields).map Prod.fst = fields.map Prod.fst := by
  rw [normalFields, map_map]
  rfl

theorem normal_obj_eq_iff (hkeys : (fields.map Prod.fst).Nodup) : normal (.obj fields) = normal (.obj fields') ↔
      fields.length = fields'.length ∧ normalFields fields ⊆ normalFields fields' := by
  have hkeys' : ((normalFields fields).map Prod.fst).Nodup := by rwa [normalFields_keys]
  rw [normal_obj, normal_obj, JsValue.obj.injEq, sorted_eq_iff hkeys']
  constructor
  · intro h
    refine ⟨?_, h.subset⟩
    simpa [normalFields] using h.length_eq
  · rintro ⟨hlength, hsubset⟩
    apply (subperm_of_subset hkeys'.of_map hsubset).perm_of_length_le
    simp [normalFields, hlength]

lemma normal_num (x : JsNumber) (hx : Plain (.num x)) (y : JsNumber) (hy : Plain (.num y)) :
    normal (.num x) = normal (.num y) ↔ x.rational = y.rational := by
  cases x <;> cases y <;> first | exact hx.elim | exact hy.elim | simp [normal, sortedKeys, unsigned, JsNumber.rational]

lemma normal_ne_num (hv : ∀ x, v ≠ .num x) (y : JsNumber) : normal v ≠ normal (.num y) := by
  cases v with
  | num x => exact absurd rfl (hv x)
  | _ => cases y <;> simp [normal, sortedKeys, unsigned]

mutual
theorem same_iff_normal : ∀ v w : JsValue, Plain v → Plain w → (Same v w ↔ normal v = normal w)
  | .null, w, _, _ => by
    cases w with
    | num y => simp [Same, normal_ne_num]
    | _ => simp [Same, normal, sortedKeys, unsigned]
  | .bool _, w, _, _ => by
    cases w with
    | num y => simp [Same, normal_ne_num]
    | _ => simp [Same, normal, sortedKeys, unsigned]
  | .str _, w, _, _ => by
    cases w with
    | num y => simp [Same, normal_ne_num]
    | _ => simp [Same, normal, sortedKeys, unsigned]
  | .num x, w, hx, hw => by
    cases w with
    | num y => exact (normal_num x hx y hw).symm
    | _ => simp [Same, (normal_ne_num _ x).symm]
  | .arr items, w, h, h' => by
    cases w with
    | arr items' =>
      rw [normal_arr, normal_arr, JsValue.arr.injEq, Same]
      exact sameItems_iff items items' h h'
    | num y => simp [Same, normal_ne_num]
    | _ => simp [Same, normal, sortedKeys, unsigned]
  | .obj fields, w, h, h' => by
    cases w with
    | obj fields' =>
      rw [normal_obj_eq_iff h.1, Same]
      apply and_congr_right
      intro _
      exact sameFields_iff fields fields' h.2 h'.1 h'.2
    | num y => simp [Same, normal_ne_num]
    | _ => simp [Same, normal, sortedKeys, unsigned]
lemma sameItems_iff : ∀ items items' : List JsValue, PlainItems items → PlainItems items' →
    (SameItems items items' ↔ items.map normal = items'.map normal)
  | [], [], _, _ => iff_of_true trivial rfl
  | [], _ :: _, _, _ => iff_of_false id (cons_ne_nil _ _).symm
  | _ :: _, [], _, _ => iff_of_false id (cons_ne_nil _ _)
  | v :: items, w :: items', h, h' => by
    rw [SameItems, map_cons, map_cons, List.cons.injEq, same_iff_normal v w h.1 h'.1,
      sameItems_iff items items' h.2 h'.2]
lemma sameFields_iff : ∀ fields fields' : List (JsString × JsValue), PlainFields fields →
    (fields'.map Prod.fst).Nodup → PlainFields fields' →
    (SameFields fields fields' ↔ normalFields fields ⊆ normalFields fields')
  | [], _, _, _, _ => iff_of_true trivial (nil_subset _)
  | (key, v) :: fields, fields', h, hkeys, h' => by
    have hfield : (∃ w, fields'.lookup key = some w ∧ Same v w) ↔ (key, normal v) ∈ normalFields fields' := by
      rw [mem_normalFields]
      apply exists_congr
      intro w
      rw [Dict.lookup_eq_some_iff hkeys]
      apply and_congr_right
      intro hw
      rw [same_iff_normal v w h.1 (plainFields_iff.mp h' (key, w) hw)]
      exact eq_comm
    rw [SameFields, hfield, sameFields_iff fields fields' h.2 hkeys h']
    exact cons_subset.symm
end

lemma sameFields_forall :
    SameFields fields fields' ↔ ∀ field ∈ fields, ∃ w, fields'.lookup field.1 = some w ∧ Same field.2 w := by
  induction fields with
  | nil => simp [SameFields]
  | cons field fields ih => rw [SameFields, ih, forall_mem_cons]

mutual
theorem same_normal : ∀ v : JsValue, Plain v → Same (normal v) v
  | .null, _ => trivial
  | .bool _, _ | .str _, _ | .num (.finite _ _), _ | .num .negZero, _ => rfl
  | .arr items, h => by
    rw [normal_arr, Same]
    exact sameItems_normal items h
  | .obj fields, h => by
    have hperm := sorted_perm (normalFields fields)
    rw [normal_obj, Same, sameFields_forall]
    constructor
    · rw [hperm.length_eq, normalFields, length_map]
    · rintro ⟨key, n⟩ hn
      obtain ⟨v, hv, rfl⟩ := mem_normalFields.mp (hperm.mem_iff.mp hn)
      exact ⟨v, (Dict.lookup_eq_some_iff h.1).mpr hv, same_normal_of_mem fields h.2 (key, v) hv⟩
lemma sameItems_normal : ∀ items : List JsValue, PlainItems items → SameItems (items.map normal) items
  | [], _ => trivial
  | v :: items, h => ⟨same_normal v h.1, sameItems_normal items h.2⟩
lemma same_normal_of_mem : ∀ fields : List (JsString × JsValue), PlainFields fields →
    ∀ field ∈ fields, Same (normal field.2) field.2
  | [], _ => fun _ h => nomatch h
  | (_, v) :: fields, h => forall_mem_cons.mpr ⟨same_normal v h.1, same_normal_of_mem fields h.2⟩
end

abbrev PlainJson := { v : JsValue // Plain v }

/-- Two plain values have one canonical text exactly when they are equal up to key order, and the text of a value
reads back as that value. -/
theorem canonicalJson_faithful (a b : PlainJson) :
    (canonicalJson a.1 = canonicalJson b.1 ↔ Same a.1 b.1) ∧
      ∃ text v, canonicalJson a.1 = .ok text ∧ Json.parse text = some v ∧ Same v a.1 := by
  obtain ⟨hwrite, hparse⟩ := parse_canonicalJson a.2
  obtain ⟨hwrite', hparse'⟩ := parse_canonicalJson b.2
  constructor
  · rw [same_iff_normal a.1 b.1 a.2 b.2]
    constructor
    · intro h
      have htext : write (sortedKeys a.1) = write (sortedKeys b.1) := by
        rw [hwrite, hwrite'] at h
        exact Except.ok.inj h
      rw [htext, hparse'] at hparse
      exact (Option.some.inj hparse).symm
    · intro h
      rw [hwrite, hwrite', ← write_unsigned (sortedKeys a.1), ← write_unsigned (sortedKeys b.1)]
      exact congrArg (fun v => Except.ok (write v)) h
  · exact ⟨_, _, hwrite, hparse, same_normal a.1 a.2⟩

end OpenOmni
