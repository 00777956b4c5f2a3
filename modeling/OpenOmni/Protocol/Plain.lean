import OpenOmni.Lib.Dict
import Mathlib.Algebra.Order.Field.Rat
import Mathlib.Data.List.Sort
import Mathlib.Data.String.Basic
import Mathlib.Data.Rat.Floor

/-! Plain JSON values, their canonical form and the records built from them. -/
namespace OpenOmni
open List

/-- A finite JSON tree. Objects keep their keys in insertion order. -/
inductive PlainValue where
  | null
  | bool (b : Bool)
  | num (q : ℚ)
  | str (s : String)
  | arr (items : List PlainValue)
  | obj (fields : List (String × PlainValue))
deriving Inhabited

namespace PlainValue

mutual
def beq : PlainValue → PlainValue → Bool
  | .null, .null => true
  | .bool a, .bool b => a == b
  | .num a, .num b => a == b
  | .str a, .str b => a == b
  | .arr a, .arr b => beqList a b
  | .obj a, .obj b => beqFields a b
  | _, _ => false
def beqList : List PlainValue → List PlainValue → Bool
  | [], [] => true
  | a :: as, b :: bs => beq a b && beqList as bs
  | _, _ => false
def beqFields : List (String × PlainValue) → List (String × PlainValue) → Bool
  | [], [] => true
  | (k, a) :: as, (l, b) :: bs => k == l && beq a b && beqFields as bs
  | _, _ => false
end

mutual
lemma beq_iff : ∀ a b : PlainValue, beq a b = true ↔ a = b
  | .null, b => by cases b <;> simp [beq]
  | .bool a, b => by cases b <;> simp [beq]
  | .num a, b => by cases b <;> simp [beq]
  | .str a, b => by cases b <;> simp [beq]
  | .arr a, b => by cases b <;> simp [beq, beqList_iff a]
  | .obj a, b => by cases b <;> simp [beq, beqFields_iff a]
lemma beqList_iff : ∀ a b : List PlainValue, beqList a b = true ↔ a = b
  | [], b => by cases b <;> simp [beqList]
  | a :: as, b => by cases b <;> simp [beqList, beq_iff a, beqList_iff as]
lemma beqFields_iff : ∀ a b : List (String × PlainValue), beqFields a b = true ↔ a = b
  | [], b => by cases b <;> simp [beqFields]
  | (k, a) :: as, b => by
    rcases b with _ | ⟨⟨l, b⟩, bs⟩ <;> simp [beqFields, beq_iff a, beqFields_iff as, and_assoc]
end

instance : DecidableEq PlainValue := fun a b => decidable_of_iff (beq a b = true) (beq_iff a b)

mutual
/-- `renderCanonical` up to the text itself: every object lists its keys in order. -/
def canonical : PlainValue → PlainValue
  | .arr items => .arr (canonicalList items)
  | .obj fields => .obj ((canonicalFields fields).insertionSort (fun a b => a.1 ≤ b.1))
  | v => v
def canonicalList : List PlainValue → List PlainValue
  | [] => []
  | v :: vs => canonical v :: canonicalList vs
def canonicalFields : List (String × PlainValue) → List (String × PlainValue)
  | [] => []
  | (k, v) :: fs => (k, canonical v) :: canonicalFields fs
end

/-- The property `key` of an object; every other value has none. -/
def get? : PlainValue → String → Option PlainValue
  | .obj fields, key => fields.lookup key
  | _, _ => none

/-- `objectValue`: the value itself when it is an object. -/
def objectValue : PlainValue → Option PlainValue
  | .obj fields => some (.obj fields)
  | _ => none

def asStr : PlainValue → Option String
  | .str s => some s
  | _ => none

def asNum : PlainValue → Option ℚ
  | .num q => some q
  | _ => none

def asBool : PlainValue → Option Bool
  | .bool b => some b
  | _ => none

def asArr : PlainValue → Option (List PlainValue)
  | .arr items => some items
  | _ => none

def asObj : PlainValue → Option (List (String × PlainValue))
  | .obj fields => some fields
  | _ => none

@[simp] theorem asStr_str (s : String) : asStr (.str s) = some s := rfl
@[simp] theorem asNum_num (q : ℚ) : asNum (.num q) = some q := rfl
@[simp] theorem asBool_bool (b : Bool) : asBool (.bool b) = some b := rfl
@[simp] theorem asArr_arr (items : List PlainValue) : asArr (.arr items) = some items := rfl
@[simp] theorem asObj_obj (fields : List (String × PlainValue)) : asObj (.obj fields) = some fields :=
  rfl

/-- `Number.MAX_SAFE_INTEGER`. -/
def maxSafeInteger : ℕ := 2 ^ 53 - 1

/-- `z.number().int()`: an integer no larger than the safe bound. -/
def asInt (v : PlainValue) : Option ℤ :=
  match v with
  | .num q => if q.den = 1 ∧ q.num.natAbs ≤ maxSafeInteger then some q.num else none
  | _ => none

/-- `z.number().int().nonnegative()`. -/
def asCount (v : PlainValue) : Option ℕ :=
  (asInt v).bind fun i => if 0 ≤ i then some i.toNat else none

@[simp] theorem asInt_num (i : ℤ) :
    asInt (.num i) = if i.natAbs ≤ maxSafeInteger then some i else none := by
  simp [asInt]

@[simp] theorem asCount_num (n : ℕ) :
    asCount (.num n) = if n ≤ maxSafeInteger then some n else none := by
  have h := asInt_num (n : ℤ)
  simp only [Int.cast_natCast, Int.natAbs_natCast] at h
  unfold asCount
  rw [h]
  split <;> simp

/-- An object literal whose `none` slots are left out. -/
def record (slots : List (String × Option PlainValue)) : PlainValue :=
  .obj (slots.filterMap fun slot => slot.2.map (slot.1, ·))

@[simp] theorem get?_null (key : String) : get? .null key = none := rfl
@[simp] theorem get?_bool (b : Bool) (key : String) : get? (.bool b) key = none := rfl
@[simp] theorem get?_num (q : ℚ) (key : String) : get? (.num q) key = none := rfl
@[simp] theorem get?_str (s key : String) : get? (.str s) key = none := rfl
@[simp] theorem get?_arr (items : List PlainValue) (key : String) : get? (.arr items) key = none :=
  rfl

@[simp] theorem get?_obj (fields : List (String × PlainValue)) (key : String) :
    get? (.obj fields) key = fields.lookup key := rfl

lemma lookup_filterMap_slots (key : String) :
    ∀ {slots : List (String × Option PlainValue)}, (slots.map Prod.fst).Nodup →
      (slots.filterMap fun slot => slot.2.map (slot.1, ·)).lookup key = (slots.lookup key).join
  | [], _ => rfl
  | (k, none) :: slots, h => by
    obtain ⟨hk, hs⟩ := nodup_cons.mp h
    have ih := lookup_filterMap_slots key hs
    by_cases hkey : key = k
    · subst hkey
      have hnone : slots.lookup key = none := by
        rw [lookup_eq_none_iff]
        intro p hp
        simp only [bne_iff_ne, ne_eq]
        rintro rfl
        exact hk (mem_map.mpr ⟨p, hp, rfl⟩)
      simp [ih, hnone]
    · have hbeq : (key == k) = false := by simpa using hkey
      simpa [lookup_cons, hbeq] using ih
  | (k, some v) :: slots, h => by
    have ih := lookup_filterMap_slots key (nodup_cons.mp h).2
    by_cases hkey : key = k
    · subst hkey
      simp
    · have hbeq : (key == k) = false := by simpa using hkey
      simpa [lookup_cons, hbeq] using ih

variable {slots : List (String × Option PlainValue)} {α : Type} {read : PlainValue → Option α}
  {write : α → PlainValue} {l : List α}

theorem get?_record (h : (slots.map Prod.fst).Nodup) (key : String) :
    get? (record slots) key = (slots.lookup key).join :=
  lookup_filterMap_slots key h

@[simp] theorem objectValue_record (slots : List (String × Option PlainValue)) :
    objectValue (record slots) = some (record slots) := rfl

@[simp] theorem asObj_record (slots : List (String × Option PlainValue)) :
    asObj (record slots) = some (slots.filterMap fun slot => slot.2.map (slot.1, ·)) := rfl

def strict (keys : List String) (v : PlainValue) : Bool :=
  match v with
  | .obj fields => fields.all fun field => keys.contains field.1
  | _ => false

lemma strict_record {keys : List String} (h : ∀ slot ∈ slots, slot.1 ∈ keys) : strict keys (record slots) = true := by
  simp only [strict, record, all_eq_true, mem_filterMap, Option.map_eq_some_iff]
  rintro field ⟨slot, hslot, v, -, rfl⟩
  simpa using h slot hslot

def optional {α : Type} (read : PlainValue → Option α) : Option PlainValue → Option (Option α)
  | none => some none
  | some v => (read v).map some

/-- A slot that may hold `null`. -/
def nullable {α : Type} (read : PlainValue → Option α) : PlainValue → Option (Option α)
  | .null => some none
  | v => (read v).map some

def ofNullable {α : Type} (write : α → PlainValue) : Option α → PlainValue
  | none => .null
  | some a => write a

@[simp] theorem optional_none (read : PlainValue → Option α) : optional read none = some none := rfl
@[simp] theorem optional_some (read : PlainValue → Option α) (v : PlainValue) :
    optional read (some v) = (read v).map some := rfl

@[simp] theorem nullable_null (read : PlainValue → Option α) : nullable read .null = some none := rfl

@[simp] theorem nullable_str (s : Option String) :
    nullable asStr (ofNullable .str s) = some s := by
  cases s <;> rfl

/-- `z.array(item)`. -/
def asList {α : Type} (read : PlainValue → Option α) (v : PlainValue) : Option (List α) :=
  (asArr v).bind (·.mapM read)

lemma mapM_map {β : Type} {read : β → Option α} {write : α → β} (h : ∀ a ∈ l, read (write a) = some a) :
    (l.map write).mapM read = some l := by
  induction l with
  | nil => rfl
  | cons a l ih =>
    have ha := h a mem_cons_self
    have hl := ih fun b hb => h b (mem_cons_of_mem a hb)
    simp [ha, hl]

lemma asList_map (h : ∀ a ∈ l, read (write a) = some a) : asList read (.arr (l.map write)) = some l := by
  simp [asList, mapM_map h]

@[simp] theorem asList_str (l : List String) : asList asStr (.arr (l.map .str)) = some l :=
  asList_map fun _ _ => rfl

lemma canonicalFields_eq_map : ∀ fields : List (String × PlainValue),
    canonicalFields fields = fields.map fun field => (field.1, canonical field.2)
  | [] => rfl
  | (k, v) :: fields => by rw [canonicalFields, canonicalFields_eq_map fields, map_cons]

theorem lookup_perm {fields fields' : List (String × PlainValue)} (h : fields.Perm fields')
    (hkeys : (fields.map Prod.fst).Nodup) (key : String) :
    fields.lookup key = fields'.lookup key := by
  have hkeys' : (fields'.map Prod.fst).Nodup := (h.map Prod.fst).nodup_iff.mp hkeys
  refine Option.ext fun v => ?_
  rw [Dict.lookup_eq_some_iff hkeys, Dict.lookup_eq_some_iff hkeys', h.mem_iff]

lemma lookup_map_snd (f : PlainValue → PlainValue) (key : String) :
    ∀ fields : List (String × PlainValue),
      (fields.map fun field => (field.1, f field.2)).lookup key = (fields.lookup key).map f
  | [] => rfl
  | (k, v) :: fields => by
    by_cases hkey : key = k
    · simp [hkey]
    · have hbeq : (key == k) = false := by simpa using hkey
      simp [lookup_cons, hbeq, lookup_map_snd f key fields]

lemma nodup_keys_record (h : (slots.map Prod.fst).Nodup) :
    ((slots.filterMap fun slot => slot.2.map (slot.1, ·)).map Prod.fst).Nodup := by
  refine List.Nodup.sublist ?_ h
  induction slots with
  | nil => exact List.Sublist.slnil
  | cons slot slots ih =>
    obtain ⟨k, v⟩ := slot
    have ih' := ih (nodup_cons.mp h).2
    cases v with
    | none => exact ih'.cons k
    | some v => exact ih'.cons_cons k

theorem get?_canonical_record (h : (slots.map Prod.fst).Nodup) (key : String) :
    (canonical (record slots)).get? key = (slots.lookup key).join.map canonical := by
  have hkeys := nodup_keys_record h
  rw [record, canonical, canonicalFields_eq_map, get?_obj,
    ← lookup_perm (perm_insertionSort _ _).symm, lookup_map_snd, lookup_filterMap_slots key h]
  simpa [map_map, Function.comp_def] using hkeys

@[simp] theorem canonical_str (s : String) : canonical (.str s) = .str s := rfl
@[simp] theorem canonical_null : canonical .null = .null := rfl
@[simp] theorem canonical_num (q : ℚ) : canonical (.num q) = .num q := rfl

end PlainValue

/-- The JSON text of a value and the sha256 of a text, both used only as functions of their
argument. The text of a canonical value is `renderCanonical`'s. -/
class PlainCoding where
  jsonText : PlainValue → String
  sha256Hex : String → String

variable [PlainCoding]

/-- The digest of a value's canonical text under the `sha256:` prefix. -/
def canonicalDigest (v : PlainValue) : String :=
  "sha256:" ++ PlainCoding.sha256Hex (PlainCoding.jsonText v.canonical)

/-- No two of the listed values of different canonical form share a digest. -/
def CollisionFree (vs : List PlainValue) : Prop :=
  ∀ v ∈ vs, ∀ w ∈ vs, canonicalDigest v = canonicalDigest w → v.canonical = w.canonical

variable {v w : PlainValue}

lemma canonicalDigest_congr (h : v.canonical = w.canonical) : canonicalDigest v = canonicalDigest w := by
  rw [canonicalDigest, canonicalDigest, h]

lemma canonicalDigest_eq_iff {vs : List PlainValue} (hvs : CollisionFree vs) (hv : v ∈ vs) (hw : w ∈ vs) :
    canonicalDigest v = canonicalDigest w ↔ v.canonical = w.canonical :=
  ⟨hvs v hv w hw, canonicalDigest_congr⟩

namespace PlainValue

mutual
def text : PlainValue → String
  | .null => "null"
  | .bool b => if b then "true" else "false"
  | .num q => if q.den = 1 then toString q.num else toString q.num ++ "/" ++ toString q.den
  | .str s => "\"" ++ s ++ "\""
  | .arr items => "[" ++ textList items ++ "]"
  | .obj fields => "\x7b" ++ textFields fields ++ "\x7d"
def textList : List PlainValue → String
  | [] => ""
  | [v] => text v
  | v :: vs => text v ++ "," ++ textList vs
def textFields : List (String × PlainValue) → String
  | [] => ""
  | [(k, v)] => "\"" ++ k ++ "\":" ++ text v
  | (k, v) :: fs => "\"" ++ k ++ "\":" ++ text v ++ "," ++ textFields fs
end

end PlainValue

/-- The coding whose digests are the texts themselves, to evaluate the model on given values. -/
@[reducible] def textCoding : PlainCoding := ⟨PlainValue.text, id⟩

def byteLength (v : PlainValue) : ℕ := (PlainCoding.jsonText v).utf8ByteSize

end OpenOmni
