import OpenOmni.Protocol.JsonText
import Mathlib.Data.Nat.Digits.Lemmas

/-! What is written is read back: digits, numbers, strings and whole values. -/
namespace OpenOmni.Json
open List

open Binary64 (IsNumber Decimal shortest nearest)

lemma foldl_digits (n : ℕ) (digits : JsString) :
    digits.foldl (fun n u => n * 10 + (u - 48)) n = n * 10 ^ digits.length + ofDigits digits := by
  induction digits generalizing n with
  | nil => simp [ofDigits]
  | cons u digits ih =>
    have hrest : ofDigits (u :: digits) = (u - 48) * 10 ^ digits.length + ofDigits digits := by
      unfold ofDigits
      rw [foldl_cons, ih]
      simp [ofDigits]
    rw [foldl_cons, ih, hrest, length_cons, pow_succ]
    ring

lemma ofDigits_append (a b : JsString) : ofDigits (a ++ b) = ofDigits a * 10 ^ b.length + ofDigits b := by
  unfold ofDigits
  rw [foldl_append, foldl_digits]
  rfl

lemma ofDigits_zeros (n : ℕ) : ofDigits (List.replicate n 48) = 0 := by
  induction n with
  | zero => rfl
  | succ n ih => rw [replicate_succ', ofDigits_append, ih]; rfl

lemma ofDigits_digitsText (n : ℕ) : ofDigits (digitsText n) = n := by
  have hreverse : ∀ l : List ℕ, ofDigits (l.reverse.map (48 + ·)) = Nat.ofDigits 10 l := by
    intro l
    induction l with
    | nil => rfl
    | cons d l ih =>
      have hlast : ofDigits [48 + d] = d := by simp [ofDigits]
      rw [reverse_cons, map_append, ofDigits_append, ih, map_singleton, hlast, Nat.ofDigits_cons]
      simp
      ring
  unfold digitsText
  rw [hreverse, Nat.ofDigits_digits]

variable {u : ℕ} {text : JsString} {read : JsNumber × JsString} {r : ℚ} {v : JsValue}

lemma isDigit_of_mem_digitsText {n : ℕ} (h : u ∈ digitsText n) : isDigit u = true := by
  unfold digitsText at h
  obtain ⟨d, hd, rfl⟩ := mem_map.mp h
  have hlt := Nat.digits_lt_base (by norm_num : 1 < 10) (mem_reverse.mp hd)
  unfold isDigit
  simp
  omega

lemma digitsText_ne_nil {n : ℕ} (h : 0 < n) : digitsText n ≠ [] := by
  unfold digitsText
  rw [Ne, map_eq_nil_iff, reverse_eq_nil_iff]
  exact Nat.digits_ne_nil_iff_ne_zero.mpr h.ne'

theorem head_digitsText {n : ℕ} (h : 0 < n) : (digitsText n).head? ≠ some 48 := by
  unfold digitsText
  rw [head?_map, head?_reverse]
  have hne : Nat.digits 10 n ≠ [] := Nat.digits_ne_nil_iff_ne_zero.mpr h.ne'
  rw [getLast?_eq_some_getLast hne, Option.map_some]
  have hlast := Nat.getLast_digit_ne_zero 10 h.ne'
  simpa using hlast

def EndsNumber (rest : JsString) : Prop := ∀ u ∈ rest.head?, isDigit u = false ∧ u ≠ 46 ∧ u ≠ 101 ∧ u ≠ 69

def EndsDigits (rest : JsString) : Prop := ∀ u ∈ rest.head?, isDigit u = false

lemma EndsNumber.digits {rest : JsString} (h : EndsNumber rest) : EndsDigits rest := fun u hu => (h u hu).1

lemma endsDigits_cons (h : isDigit u = false) (rest : JsString) : EndsDigits (u :: rest) := by
  intro v hv
  cases hv
  exact h

section
variable {digits rest : JsString} (hdigits : ∀ u ∈ digits, isDigit u = true) (hrest : EndsDigits rest)
include hdigits hrest

lemma takeWhile_digits : (digits ++ rest).takeWhile isDigit = digits := by
  rw [takeWhile_append_of_pos hdigits]
  cases rest with
  | nil => simp
  | cons u rest => simp [hrest u rfl]

lemma dropWhile_digits : (digits ++ rest).dropWhile isDigit = rest := by
  rw [dropWhile_append_of_pos hdigits]
  cases rest with
  | nil => rfl
  | cons u rest => simp [hrest u rfl]

end

lemma readFraction_none {rest : JsString} (h : EndsNumber rest) : readFraction rest = some ([], rest) := by
  unfold readFraction
  split
  · rename_i rest
    exact absurd rfl (h 46 rfl).2.1
  · rfl

lemma readFraction_some {digits rest : JsString} (hne : digits ≠ []) (hdigits : ∀ u ∈ digits, isDigit u = true)
    (hrest : EndsDigits rest) : readFraction (46 :: (digits ++ rest)) = some (digits, rest) := by
  change (if (digits ++ rest).takeWhile isDigit = [] then none
    else some ((digits ++ rest).takeWhile isDigit, (digits ++ rest).dropWhile isDigit)) = _
  rw [takeWhile_digits hdigits hrest, dropWhile_digits hdigits hrest, if_neg hne]

lemma readExponent_none {rest : JsString} (h : EndsNumber rest) : readExponent rest = some (0, rest) := by
  unfold readExponent
  cases rest with
  | nil => rfl
  | cons u rest =>
    have hu := h u rfl
    dsimp only
    rw [if_neg]
    rintro (rfl | rfl)
    · exact hu.2.2.1 rfl
    · exact hu.2.2.2 rfl

lemma readExponent_some {e : ℤ} (hne : e ≠ 0) {rest : JsString} (hrest : EndsDigits rest) :
    readExponent (101 :: (if e < 0 then 45 else 43) :: (digitsText e.natAbs ++ rest)) = some (e, rest) := by
  have hpos : 0 < e.natAbs := Int.natAbs_pos.mpr hne
  have hdigits : ∀ u ∈ digitsText e.natAbs, isDigit u = true := fun u => isDigit_of_mem_digitsText
  have hread : ∀ negative, readExponentDigits negative (digitsText e.natAbs ++ rest) =
      some (if negative then -(e.natAbs : ℤ) else e.natAbs, rest) := by
    intro negative
    unfold readExponentDigits
    dsimp only
    rw [takeWhile_digits hdigits hrest, dropWhile_digits hdigits hrest, if_neg (digitsText_ne_nil hpos),
      ofDigits_digitsText]
  unfold readExponent
  by_cases hneg : e < 0
  · simp only [if_pos hneg, true_or, if_true]
    rw [hread, if_pos rfl]
    congr 2
    omega
  · simp only [if_neg hneg, true_or, if_true]
    rw [hread, if_neg (by decide)]
    congr 2
    omega

theorem readUnsigned_eq {whole fraction text' rest : JsString} {exponent : ℤ} {value : ℚ} (negative : Bool)
    (hne : whole ≠ []) (hwhole : ∀ u ∈ whole, isDigit u = true) (hzero : whole.head? = some 48 → whole.length = 1)
    (hends : EndsDigits text) (hfraction : readFraction text = some (fraction, text'))
    (hexponent : readExponent text' = some (exponent, rest))
    (hvalue : ofDigits (whole ++ fraction) * 10 ^ (exponent - fraction.length) = value) :
    readUnsigned negative (whole ++ text) = some (toNumber negative value, rest) := by
  have hguard : (guard (whole ≠ [] ∧ (whole.head? = some 48 → whole.length = 1)) : Option Unit) = some () :=
    if_pos ⟨hne, hzero⟩
  unfold readUnsigned
  simp only [takeWhile_digits hwhole hends, dropWhile_digits hwhole hends, hguard, hfraction, hexponent,
    Option.bind_eq_bind, Option.bind_some, Option.pure_def, hvalue]

lemma isDigit_zeros (n : ℕ) : ∀ u ∈ List.replicate n 48, isDigit u = true := by
  intro u hu
  rw [(mem_replicate.mp hu).2]
  rfl

section Decimal
variable {digits : JsString} {exponent : ℤ} {rest : JsString} (negative : Bool) (hne : digits ≠ [])
  (hall : ∀ u ∈ digits, isDigit u = true) (hhead : digits.head? ≠ some 48) (hrest : EndsNumber rest)
include hne hall hhead hrest

theorem readUnsigned_whole {n : ℕ} (hn : exponent = n) :
    readUnsigned negative (digits ++ List.replicate n 48 ++ rest) =
      some (toNumber negative (ofDigits digits * 10 ^ exponent), rest) := by
  have hwhole : ∀ u ∈ digits ++ List.replicate n 48, isDigit u = true :=
    fun u hu => (mem_append.mp hu).elim (hall u) (isDigit_zeros n u)
  have hheadWhole : (digits ++ List.replicate n 48).head? ≠ some 48 := by rwa [head?_append_of_ne_nil _ hne]
  apply readUnsigned_eq negative (append_ne_nil_of_left_ne_nil hne _) hwhole (fun h => absurd h hheadWhole)
    hrest.digits (readFraction_none hrest) (readExponent_none hrest)
  rw [append_nil, ofDigits_append, ofDigits_zeros, length_replicate, length_nil, hn]
  simp

theorem readUnsigned_point {n : ℕ} (hpos : 0 < n) (hn : n < digits.length) (hexponent : exponent = n - digits.length) :
    readUnsigned negative (digits.take n ++ 46 :: digits.drop n ++ rest) =
      some (toNumber negative (ofDigits digits * 10 ^ exponent), rest) := by
  have htake : digits.take n ≠ [] := by
    intro hnil
    rcases take_eq_nil_iff.mp hnil with h | h
    · omega
    · exact hne h
  have hdrop : digits.drop n ≠ [] := by
    intro hnil
    have hle := drop_eq_nil_iff.mp hnil
    omega
  have hheadTake : (digits.take n).head? ≠ some 48 := by
    rw [head?_take, if_neg (by omega)]
    exact hhead
  rw [append_assoc, cons_append]
  apply readUnsigned_eq negative htake (fun u hu => hall u (mem_of_mem_take hu)) (fun h => absurd h hheadTake)
    (endsDigits_cons rfl _) (readFraction_some hdrop (fun u hu => hall u (mem_of_mem_drop hu)) hrest.digits)
    (readExponent_none hrest)
  rw [take_append_drop, length_drop, hexponent]
  congr 2
  omega

omit hhead in
theorem readUnsigned_small {n : ℕ} (hexponent : exponent = -(n : ℤ) - digits.length) :
    readUnsigned negative (48 :: 46 :: (List.replicate n 48 ++ digits) ++ rest) =
      some (toNumber negative (ofDigits digits * 10 ^ exponent), rest) := by
  have hfraction : ∀ u ∈ List.replicate n 48 ++ digits, isDigit u = true :=
    fun u hu => (mem_append.mp hu).elim (isDigit_zeros n u) (hall u)
  have hshape : 48 :: 46 :: (List.replicate n 48 ++ digits) ++ rest =
      [48] ++ 46 :: (List.replicate n 48 ++ digits ++ rest) := rfl
  have hone : ofDigits [48] = 0 := rfl
  rw [hshape]
  apply readUnsigned_eq negative (cons_ne_nil 48 []) (by decide) (fun _ => rfl) (endsDigits_cons rfl _)
    (readFraction_some (append_ne_nil_of_right_ne_nil _ hne) hfraction hrest.digits) (readExponent_none hrest)
  rw [ofDigits_append, ofDigits_append, ofDigits_zeros, hone, length_append, length_replicate, hexponent]
  congr 2
  · simp
  · push_cast
    omega

theorem readUnsigned_exponent {e : ℤ} (he : e ≠ 0) (hexponent : exponent = e + 1 - digits.length) :
    readUnsigned negative (digits.take 1 ++ (if digits.length = 1 then [] else 46 :: digits.drop 1) ++
        101 :: (if e < 0 then 45 else 43) :: digitsText e.natAbs ++ rest) =
      some (toNumber negative (ofDigits digits * 10 ^ exponent), rest) := by
  have hlength : 0 < digits.length := length_pos_iff.mpr hne
  have htake : digits.take 1 ≠ [] := by
    intro hnil
    rcases take_eq_nil_iff.mp hnil with h | h
    · cases h
    · exact hne h
  have hheadTake : (digits.take 1).head? ≠ some 48 := by
    rw [head?_take, if_neg (by decide)]
    exact hhead
  have hwhole : ∀ u ∈ digits.take 1, isDigit u = true := fun u hu => hall u (mem_of_mem_take hu)
  have htail : 101 :: (if e < 0 then 45 else 43) :: digitsText e.natAbs ++ rest =
      101 :: (if e < 0 then 45 else 43) :: (digitsText e.natAbs ++ rest) := rfl
  have hread := readExponent_some he hrest.digits
  rw [append_assoc, append_assoc, htail]
  by_cases hone : digits.length = 1
  · rw [if_pos hone, nil_append]
    have hfraction : readFraction (101 :: (if e < 0 then 45 else 43) :: (digitsText e.natAbs ++ rest)) =
        some ([], 101 :: (if e < 0 then 45 else 43) :: (digitsText e.natAbs ++ rest)) := rfl
    apply readUnsigned_eq negative htake hwhole (fun h => absurd h hheadTake) (endsDigits_cons rfl _) hfraction hread
    rw [append_nil, take_of_length_le hone.le, length_nil, hexponent, hone]
    congr 2
    push_cast
    omega
  · rw [if_neg hone, cons_append]
    have hdrop : digits.drop 1 ≠ [] := by
      intro hnil
      have hle := drop_eq_nil_iff.mp hnil
      omega
    apply readUnsigned_eq negative htake hwhole (fun h => absurd h hheadTake) (endsDigits_cons rfl _)
      (readFraction_some hdrop (fun u hu => hall u (mem_of_mem_drop hu)) (endsDigits_cons rfl _)) hread
    rw [take_append_drop, length_drop, hexponent]
    congr 2
    omega

end Decimal

theorem readUnsigned_decimalText {d : Decimal} (hpos : 0 < d.digits) (negative : Bool) {rest : JsString}
    (hrest : EndsNumber rest) : readUnsigned negative (decimalText d ++ rest) = some (toNumber negative d.value, rest) := by
  have hne := digitsText_ne_nil hpos
  have hall : ∀ u ∈ digitsText d.digits, isDigit u = true := fun u => isDigit_of_mem_digitsText
  have hhead := head_digitsText hpos
  have hvalue : d.value = ofDigits (digitsText d.digits) * 10 ^ d.exponent := by
    rw [ofDigits_digitsText]
    rfl
  rw [hvalue]
  unfold decimalText
  generalize digitsText d.digits = digits at hne hall hhead
  dsimp only
  split
  · exact readUnsigned_whole negative hne hall hhead hrest (by omega)
  · split
    · exact readUnsigned_point negative hne hall hhead hrest (by omega) (by omega) (by omega)
    · split
      · exact readUnsigned_small negative hne hall hrest (by omega)
      · exact readUnsigned_exponent negative hne hall hhead hrest (by omega) (by omega)

lemma readUnsigned_head {negative : Bool} (h : readUnsigned negative text = some read) :
    ∃ u rest, text = u :: rest ∧ isDigit u = true := by
  cases text with
  | nil => cases h
  | cons u rest =>
    refine ⟨u, rest, rfl, ?_⟩
    by_contra hdigit
    unfold readUnsigned at h
    rw [takeWhile_cons_of_neg hdigit] at h
    cases h

lemma readNumber_of_unsigned (h : readUnsigned false text = some read) : readNumber text = some read := by
  obtain ⟨u, rest, rfl, hdigit⟩ := readUnsigned_head h
  unfold readNumber
  split
  · rename_i heq
    obtain ⟨rfl, -⟩ := List.cons.inj heq
    cases hdigit
  · exact h

lemma toNumber_false {value : ℚ} (h : nearest value = some r) (hr : IsNumber r) :
    toNumber false value = .finite r hr := by
  unfold toNumber
  split
  · rename_i hnone
    rw [h] at hnone
    cases hnone
  · rename_i other hother
    obtain rfl := Option.mem_unique h hother
    rfl

lemma toNumber_true {value : ℚ} (h : nearest value = some r) (hne : r ≠ 0) (hr : IsNumber (-r)) :
    toNumber true value = .finite (-r) hr := by
  unfold toNumber
  split
  · rename_i hnone
    rw [h] at hnone
    cases hnone
  · rename_i other hother
    obtain rfl := Option.mem_unique h hother
    rw [if_pos rfl, if_neg hne]

theorem readNumber_numberText (value : ℚ) (h : IsNumber value) {rest : JsString} (hrest : EndsNumber rest) :
    readNumber (numberText (.finite value h) ++ rest) = some (.finite value h, rest) := by
  unfold numberText
  dsimp only
  split
  · rename_i hpos
    apply readNumber_of_unsigned
    rw [readUnsigned_decimalText (Binary64.shortest_pos h hpos) false hrest,
      toNumber_false (Binary64.nearest_shortest h hpos) h]
  · split
    · rename_i _ hneg
      have hpos : 0 < -value := neg_pos.mpr hneg
      have hback : IsNumber (- -value) := by rwa [neg_neg]
      have hsame : JsNumber.finite (- -value) hback = .finite value h := by simp
      change readUnsigned true (decimalText (shortest (-value) h.neg hpos) ++ rest) = _
      rw [readUnsigned_decimalText (Binary64.shortest_pos h.neg hpos) true hrest,
        toNumber_true (Binary64.nearest_shortest h.neg hpos) hpos.ne' hback, hsame]
    · rename_i hpos hneg
      obtain rfl : value = 0 := le_antisymm (not_lt.mp hpos) (not_lt.mp hneg)
      apply readNumber_of_unsigned
      have hzero : toNumber false 0 = .finite 0 h := toNumber_false Binary64.isNumber_zero.nearest_eq h
      have hread : readUnsigned false ([48] ++ rest) = some (toNumber false 0, rest) := by
        apply readUnsigned_eq false (cons_ne_nil 48 []) (by decide) (fun _ => rfl) hrest.digits
          (readFraction_none hrest) (readExponent_none hrest)
        simp [ofDigits]
      rw [hread, hzero]

lemma hexValue_hexDigit {d : ℕ} (h : d < 16) : hexValue (hexDigit d) = some d := by
  have hall : ∀ d : Fin 16, hexValue (hexDigit d) = some d.val := by decide
  exact hall ⟨d, h⟩

lemma readHex_unicodeEscape (h : u < 65536) :
    readHex (hexDigit (u / 4096 % 16)) (hexDigit (u / 256 % 16)) (hexDigit (u / 16 % 16)) (hexDigit (u % 16)) = some u := by
  unfold readHex
  rw [hexValue_hexDigit (by omega), hexValue_hexDigit (by omega), hexValue_hexDigit (by omega),
    hexValue_hexDigit (by omega)]
  simp only [Option.bind_eq_bind, Option.bind_some, Option.pure_def]
  congr 1
  omega

lemma readUnits_raw (hspace : 32 ≤ u) (hquote : u ≠ 34) (hslash : u ≠ 92) (rest : JsString) :
    readUnits (u :: rest) = consUnit (some u) (readUnits rest) := by
  conv_lhs => unfold readUnits
  split
  · rename_i heq
    cases heq
  · rename_i heq
    exact absurd (List.cons.inj heq).1 hquote
  · rename_i heq
    exact absurd (List.cons.inj heq).1 hslash
  · rename_i heq
    exact absurd (List.cons.inj heq).1 hslash
  · rename_i heq
    cases heq
    rw [if_neg (by omega)]

theorem readUnits_quoteUnit (u : ℕ) (rest : JsString) :
    readUnits (quoteUnit u ++ rest) = consUnit (some u) (readUnits rest) := by
  unfold quoteUnit
  split_ifs with h8 h9 h10 h12 h13 h34 h92 hescape
  · subst h8; rfl
  · subst h9; rfl
  · subst h10; rfl
  · subst h12; rfl
  · subst h13; rfl
  · subst h34; rfl
  · subst h92; rfl
  · have hlt : u < 65536 := by
      unfold isLead isTrail at hescape
      simp at hescape
      omega
    have hread : readUnits (unicodeEscape u ++ rest) = consUnit (readHex (hexDigit (u / 4096 % 16))
      (hexDigit (u / 256 % 16)) (hexDigit (u / 16 % 16)) (hexDigit (u % 16))) (readUnits rest) := rfl
    rw [hread, readHex_unicodeEscape hlt]
  · have hspace : 32 ≤ u := by
      simp at hescape
      omega
    exact readUnits_raw hspace h34 h92 rest

theorem readUnits_quoteUnits (s rest : JsString) : readUnits (quoteUnits s ++ 34 :: rest) = some (s, rest) := by
  fun_induction quoteUnits s with
  | case1 => rfl
  | case2 u =>
    rw [readUnits_quoteUnit]
    rfl
  | case3 u v s hpair ih =>
    obtain ⟨hlead, htrail⟩ := (Bool.and_eq_true _ _).mp hpair
    unfold isLead at hlead
    unfold isTrail at htrail
    simp at hlead htrail
    rw [cons_append, cons_append, readUnits_raw (by omega) (by omega) (by omega),
      readUnits_raw (by omega) (by omega) (by omega), ih]
    rfl
  | case4 u v s hpair ih =>
    rw [append_assoc, readUnits_quoteUnit, ih]
    rfl

mutual
/-- A plain JSON value: finite numbers, no key twice, and nothing that JSON has no text for. -/
def Plain : JsValue → Prop
  | .null | .bool _ | .str _ | .num (.finite _ _) | .num .negZero => True
  | .arr items => PlainItems items
  | .obj fields => (fields.map Prod.fst).Nodup ∧ PlainFields fields
  | .num (.infinity _) | .num .nan | .undefined | .exotic | .other _ => False
def PlainItems : List JsValue → Prop
  | [] => True
  | v :: items => Plain v ∧ PlainItems items
def PlainFields : List (JsString × JsValue) → Prop
  | [] => True
  | (_, v) :: fields => Plain v ∧ PlainFields fields
end

mutual
def write : JsValue → JsString
  | .null => [110, 117, 108, 108]
  | .bool true => [116, 114, 117, 101]
  | .bool false => [102, 97, 108, 115, 101]
  | .num x => numberText x
  | .str s => quote s
  | .arr items => 91 :: (writeItems items ++ [93])
  | .obj fields => 123 :: (writeFields fields ++ [125])
  | .undefined | .exotic | .other _ => []
def writeItems : List JsValue → JsString
  | [] => []
  | [v] => write v
  | v :: w :: items => write v ++ 44 :: writeItems (w :: items)
def writeFields : List (JsString × JsValue) → JsString
  | [] => []
  | [(key, v)] => quote key ++ 58 :: write v
  | (key, v) :: field :: fields => quote key ++ 58 :: (write v ++ 44 :: writeFields (field :: fields))
end

mutual
def unsigned : JsValue → JsValue
  | .num .negZero => .num (.finite 0 Binary64.isNumber_zero)
  | .arr items => .arr (unsignedItems items)
  | .obj fields => .obj (unsignedFields fields)
  | .null => .null
  | .bool b => .bool b
  | .str s => .str s
  | .num (.finite q h) => .num (.finite q h)
  | .num (.infinity negative) => .num (.infinity negative)
  | .num .nan => .num .nan
  | .undefined => .undefined
  | .exotic => .exotic
  | .other type => .other type
def unsignedItems : List JsValue → List JsValue
  | [] => []
  | v :: items => unsigned v :: unsignedItems items
def unsignedFields : List (JsString × JsValue) → List (JsString × JsValue)
  | [] => []
  | (key, v) :: fields => (key, unsigned v) :: unsignedFields fields
end

lemma unsignedFields_keys (fields : List (JsString × JsValue)) :
    (unsignedFields fields).map Prod.fst = fields.map Prod.fst := by
  induction fields with
  | nil => rfl
  | cons field fields ih =>
    obtain ⟨key, v⟩ := field
    rw [unsignedFields, map_cons, map_cons, ih]

lemma readNumber_head (h : readNumber text = some read) :
    ∃ u rest, text = u :: rest ∧ (isDigit u = true ∨ u = 45) := by
  unfold readNumber at h
  split at h
  · exact ⟨45, _, rfl, Or.inr rfl⟩
  · obtain ⟨u, rest, rfl, hdigit⟩ := readUnsigned_head h
    exact ⟨u, rest, rfl, Or.inl hdigit⟩

lemma isNumberHead_bounds (h : isDigit u = true ∨ u = 45) : u = 45 ∨ 48 ≤ u ∧ u ≤ 57 := by
  rcases h with h | h
  · unfold isDigit at h
    simp at h
    exact Or.inr h
  · exact Or.inl h

theorem readValue_number (h : readNumber text = some read) (fuel : ℕ) :
    readValue (fuel + 1) text = some (.num read.1, read.2) := by
  obtain ⟨u, rest, rfl, hu⟩ := readNumber_head h
  have hbounds := isNumberHead_bounds hu
  have hspace : isSpace u = false := by
    unfold isSpace
    simp
    omega
  have hskip : skipSpace (u :: rest) = u :: rest := dropWhile_cons_of_neg (by simp [hspace])
  unfold readValue
  rw [hskip]
  have hhead : ∀ v, u = v → v = 45 ∨ 48 ≤ v ∧ v ≤ 57 := by
    rintro v rfl
    exact hbounds
  split
  · rename_i heq
    exact absurd (hhead _ (List.cons.inj heq).1) (by decide)
  · rename_i heq
    exact absurd (hhead _ (List.cons.inj heq).1) (by decide)
  · rename_i heq
    exact absurd (hhead _ (List.cons.inj heq).1) (by decide)
  · rename_i heq
    exact absurd (hhead _ (List.cons.inj heq).1) (by decide)
  · rename_i heq
    exact absurd (hhead _ (List.cons.inj heq).1) (by decide)
  · rename_i heq
    exact absurd (hhead _ (List.cons.inj heq).1) (by decide)
  · rw [h]
    rfl

def Opens (text : JsString) : Prop := ∃ u rest, text = u :: rest ∧ isSpace u = false ∧ u ≠ 93 ∧ u ≠ 125

lemma Opens.append (h : Opens text) (rest : JsString) : Opens (text ++ rest) := by
  obtain ⟨u, tail, rfl, hu⟩ := h
  exact ⟨u, tail ++ rest, rfl, hu⟩

lemma Opens.skipSpace (h : Opens text) : skipSpace text = text := by
  obtain ⟨u, tail, rfl, hspace, -⟩ := h
  exact dropWhile_cons_of_neg (by simp [hspace])

lemma opens_number (h : readNumber text = some read) : Opens text := by
  obtain ⟨u, rest, rfl, hu⟩ := readNumber_head h
  have hbounds := isNumberHead_bounds hu
  refine ⟨u, rest, rfl, ?_, by omega, by omega⟩
  unfold isSpace
  simp
  omega

lemma endsNumber_nil : EndsNumber [] := fun _ h => nomatch h

lemma endsNumber_cons (hdigit : isDigit u = false) (hu : u ≠ 46 ∧ u ≠ 101 ∧ u ≠ 69) (rest : JsString) :
    EndsNumber (u :: rest) := by
  intro v hv
  cases hv
  exact ⟨hdigit, hu⟩

theorem readNumber_write {x : JsNumber} (h : Plain (.num x)) {rest : JsString} (hrest : EndsNumber rest) :
    ∃ y, unsigned (.num x) = .num y ∧ readNumber (numberText x ++ rest) = some (y, rest) := by
  cases x with
  | finite value hvalue => exact ⟨_, by rw [unsigned], readNumber_numberText value hvalue hrest⟩
  | negZero =>
    have hzero : numberText .negZero = numberText (.finite 0 Binary64.isNumber_zero) := by
      simp [numberText]
    refine ⟨_, by rw [unsigned], ?_⟩
    rw [hzero]
    exact readNumber_numberText 0 Binary64.isNumber_zero hrest
  | infinity negative | nan => rw [Plain] at h; exact h.elim

lemma opens_write (h : Plain v) : Opens (write v) := by
  cases v with
  | null => exact ⟨110, [117, 108, 108], by rw [write], rfl, by decide, by decide⟩
  | bool b =>
    cases b with
    | true => exact ⟨116, [114, 117, 101], by rw [write], rfl, by decide, by decide⟩
    | false => exact ⟨102, [97, 108, 115, 101], by rw [write], rfl, by decide, by decide⟩
  | num x =>
    obtain ⟨y, -, hread⟩ := readNumber_write h endsNumber_nil
    rw [append_nil] at hread
    rw [write]
    exact opens_number hread
  | str s => exact ⟨34, quoteUnits s ++ [34], by rw [write]; rfl, rfl, by decide, by decide⟩
  | arr items => exact ⟨91, writeItems items ++ [93], by rw [write], rfl, by decide, by decide⟩
  | obj fields => exact ⟨123, writeFields fields ++ [125], by rw [write], rfl, by decide, by decide⟩
  | undefined | exotic | other type => rw [Plain] at h; exact h.elim

lemma opens_writeItems {items : List JsValue} (h : Plain v) : Opens (writeItems (v :: items)) := by
  cases items with
  | nil =>
    rw [writeItems]
    exact opens_write h
  | cons w items =>
    rw [writeItems]
    exact (opens_write h).append _

lemma opens_writeFields (field : JsString × JsValue) (fields : List (JsString × JsValue)) :
    Opens (writeFields (field :: fields)) := by
  obtain ⟨key, v⟩ := field
  cases fields with
  | nil | cons next fields =>
    rw [writeFields]
    exact ⟨34, _, rfl, rfl, by decide, by decide⟩

lemma readValue_array (h : Opens text) (fuel : ℕ) : readValue (fuel + 1) (91 :: text) =
    (readItems fuel text).map fun read => (.arr read.1, read.2) := by
  have hskip : skipSpace (91 :: text) = 91 :: text := rfl
  have hopens := h.skipSpace
  obtain ⟨u, tail, rfl, -, hbracket, -⟩ := h
  conv_lhs => unfold readValue
  simp only [hskip, hopens]
  split
  · rename_i heq
    exact absurd (List.cons.inj heq).1 hbracket
  · rfl

lemma readValue_object (h : Opens text) (fuel : ℕ) : readValue (fuel + 1) (123 :: text) =
    (readMembers fuel text).map fun read => (.obj (Dict.ofEntries read.1).entries, read.2) := by
  have hskip : skipSpace (123 :: text) = 123 :: text := rfl
  have hopens := h.skipSpace
  obtain ⟨u, tail, rfl, -, -, hbrace⟩ := h
  conv_lhs => unfold readValue
  simp only [hskip, hopens]
  split
  · rename_i heq
    exact absurd (List.cons.inj heq).1 hbrace
  · rfl

lemma readUnits_quote (s rest : JsString) : readUnits (quoteUnits s ++ [34] ++ rest) = some (s, rest) := by
  rw [append_assoc]
  exact readUnits_quoteUnits s rest

lemma readMembers_key (key text : JsString) (fuel : ℕ) : readMembers (fuel + 1) (quote key ++ 58 :: text) =
    (readValue fuel text).bind fun read =>
      match skipSpace read.2 with
      | 44 :: rest => (readMembers fuel rest).map fun more => ((key, read.1) :: more.1, more.2)
      | 125 :: rest => some ([(key, read.1)], rest)
      | _ => none := by
  conv_lhs => unfold readMembers
  change (readUnits (quoteUnits key ++ [34] ++ 58 :: text) >>= _) = _
  rw [readUnits_quote]
  rfl

mutual
theorem readValue_write : ∀ (v : JsValue), Plain v → ∀ (fuel : ℕ) (rest : JsString), (write v).length < fuel →
    EndsNumber rest → readValue fuel (write v ++ rest) = some (unsigned v, rest)
  | _, _, 0, _, hfuel, _ => absurd hfuel (Nat.not_lt_zero _)
  | .null, _, fuel + 1, rest, _, _ => by
    rw [write, unsigned, readValue]
    rfl
  | .bool true, _, fuel + 1, rest, _, _ => by
    rw [write, unsigned, readValue]
    rfl
  | .bool false, _, fuel + 1, rest, _, _ => by
    rw [write, unsigned, readValue]
    rfl
  | .num x, h, fuel + 1, rest, _, hrest => by
    obtain ⟨y, hy, hread⟩ := readNumber_write h hrest
    rw [write, hy, readValue_number hread]
  | .str s, _, fuel + 1, rest, _, _ => by
    rw [write, unsigned, readValue]
    change (readUnits (quoteUnits s ++ [34] ++ rest)).map _ = _
    rw [readUnits_quote]
    rfl
  | .arr [], _, fuel + 1, rest, _, _ => by
    rw [write, unsigned, readValue]
    rfl
  | .arr (v :: items), h, fuel + 1, rest, hfuel, _ => by
    rw [Plain] at h
    rw [write, length_cons, length_append, length_singleton] at hfuel
    have hopens : Opens (writeItems (v :: items) ++ 93 :: rest) := (opens_writeItems h.1).append _
    rw [write, unsigned, cons_append, append_assoc, singleton_append, readValue_array hopens,
      readItems_write (v :: items) (cons_ne_nil v items) h fuel rest (by omega)]
    rfl
  | .obj [], _, fuel + 1, rest, _, _ => by
    rw [write, unsigned, readValue]
    rfl
  | .obj (field :: fields), h, fuel + 1, rest, hfuel, _ => by
    rw [Plain] at h
    rw [write, length_cons, length_append, length_singleton] at hfuel
    have hopens : Opens (writeFields (field :: fields) ++ 125 :: rest) := (opens_writeFields field fields).append _
    have hkeys : ((unsignedFields (field :: fields)).map Prod.fst).Nodup := by
      rw [unsignedFields_keys]
      exact h.1
    rw [write, unsigned, cons_append, append_assoc, singleton_append, readValue_object hopens,
      readMembers_write (field :: fields) (cons_ne_nil field fields) h.2 fuel rest (by omega), Option.map_some,
      Dict.ofEntries_entries hkeys]
  | .undefined, h, _, _, _, _ => by rw [Plain] at h; exact h.elim
  | .exotic, h, _, _, _, _ => by rw [Plain] at h; exact h.elim
  | .other _, h, _, _, _, _ => by rw [Plain] at h; exact h.elim
lemma readItems_write : ∀ (items : List JsValue), items ≠ [] → PlainItems items → ∀ (fuel : ℕ) (rest : JsString),
    (writeItems items).length + 1 < fuel → readItems fuel (writeItems items ++ 93 :: rest) = some (unsignedItems items, rest)
  | _, _, _, 0, _, hfuel => absurd hfuel (Nat.not_lt_zero _)
  | [], hne, _, _, _, _ => absurd rfl hne
  | [v], _, h, fuel + 1, rest, hfuel => by
    rw [writeItems] at hfuel
    rw [writeItems, readItems, readValue_write v h.1 fuel (93 :: rest) (by omega) (endsNumber_cons rfl (by decide) rest)]
    rfl
  | v :: w :: items, _, h, fuel + 1, rest, hfuel => by
    rw [writeItems, length_append, length_cons] at hfuel
    have hmore := readItems_write (w :: items) (cons_ne_nil w items) h.2 fuel rest (by omega)
    rw [writeItems, readItems, append_assoc, cons_append,
      readValue_write v h.1 fuel _ (by omega) (endsNumber_cons rfl (by decide) _)]
    change (readItems fuel (writeItems (w :: items) ++ 93 :: rest)).map _ = _
    rw [hmore]
    rfl
lemma readMembers_write : ∀ (fields : List (JsString × JsValue)), fields ≠ [] → PlainFields fields →
    ∀ (fuel : ℕ) (rest : JsString), (writeFields fields).length + 1 < fuel →
      readMembers fuel (writeFields fields ++ 125 :: rest) = some (unsignedFields fields, rest)
  | _, _, _, 0, _, hfuel => absurd hfuel (Nat.not_lt_zero _)
  | [], hne, _, _, _, _ => absurd rfl hne
  | [(key, v)], _, h, fuel + 1, rest, hfuel => by
    rw [writeFields, length_append, length_cons] at hfuel
    rw [writeFields, append_assoc, cons_append, readMembers_key,
      readValue_write v h.1 fuel (125 :: rest) (by omega) (endsNumber_cons rfl (by decide) rest)]
    rfl
  | (key, v) :: field :: fields, _, h, fuel + 1, rest, hfuel => by
    rw [writeFields, length_append, length_cons, length_append, length_cons] at hfuel
    have hmore := readMembers_write (field :: fields) (cons_ne_nil field fields) h.2 fuel rest (by omega)
    rw [writeFields, append_assoc, cons_append, readMembers_key, append_assoc, cons_append,
      readValue_write v h.1 fuel _ (by omega) (endsNumber_cons rfl (by decide) _)]
    change (readMembers fuel (writeFields (field :: fields) ++ 125 :: rest)).map _ = _
    rw [hmore]
    rfl
end

theorem parse_write (h : Plain v) : parse (write v) = some (unsigned v) := by
  have hread := readValue_write v h ((write v).length + 1) [] (Nat.lt_succ_self _) endsNumber_nil
  rw [append_nil] at hread
  unfold parse
  rw [hread]
  rfl

end OpenOmni.Json
