import OpenOmni.Lib.LossyUtf8
import OpenOmni.Lib.Utf16
import OpenOmni.Protocol.JsonRead

/-! Strings as bytes: `TextEncoder` and `TextDecoder`, and the bytes of a JSON text. -/
namespace OpenOmni
namespace Json
open List LossyUtf8

def codeUnits (text : List Char) : JsString := text.flatMap Utf16.codeUnitsOf

def charOf (u : ℕ) : Char := if isLead u || isTrail u then replacement else Char.ofNat u

def toChars : JsString → List Char
  | [] => []
  | [u] => [charOf u]
  | u :: v :: rest =>
    if isLead u && isTrail v then Char.ofNat (0x10000 + (u - 0xD800) * 0x400 + (v - 0xDC00)) :: toChars rest
    else charOf u :: toChars (v :: rest)

/-- `TextEncoder.encode`. -/
def textEncode (s : JsString) : List UInt8 := encode (toChars s)

def dropMark (text : List Char) : List Char := if text.head? = some '\uFEFF' then text.tail else text

/-- `TextDecoder.decode`, for the whole of the bytes. -/
def textDecode (bytes : List UInt8) : JsString := codeUnits (dropMark (decode bytes))

def WellFormed (s : JsString) : Prop := ∃ text, codeUnits text = s ∧ '\n' ∉ text

variable {s t : JsString} {u : ℕ}

lemma codeUnits_append (a b : List Char) : codeUnits (a ++ b) = codeUnits a ++ codeUnits b := flatMap_append

lemma toChars_unit (hlead : isLead u = false) (rest : JsString) : toChars (u :: rest) = charOf u :: toChars rest := by
  cases rest with
  | nil => rfl
  | cons v rest =>
    rw [toChars, hlead, Bool.false_and]
    exact if_neg Bool.false_ne_true

lemma toChars_pair {v : ℕ} (hlead : isLead u = true) (htrail : isTrail v = true) (rest : JsString) :
    toChars (u :: v :: rest) = Char.ofNat (0x10000 + (u - 0xD800) * 0x400 + (v - 0xDC00)) :: toChars rest := by
  rw [toChars, hlead, htrail]
  rfl

theorem toChars_append (text : List Char) (rest : JsString) : toChars (codeUnits text ++ rest) = text ++ toChars rest := by
  induction text with
  | nil => rfl
  | cons c text ih =>
    have hc := toNat_lt c
    change toChars (Utf16.codeUnitsOf c ++ codeUnits text ++ rest) = _
    unfold Utf16.codeUnitsOf
    split_ifs with hplane
    · have hlead : isLead c.toNat = false := by
        simp only [isLead, Bool.and_eq_false_iff, decide_eq_false_iff_not]
        omega
      have htrail : isTrail c.toNat = false := by
        simp only [isTrail, Bool.and_eq_false_iff, decide_eq_false_iff_not]
        omega
      rw [singleton_append, cons_append, toChars_unit hlead, ih, charOf, hlead, htrail]
      simp [Char.ofNat_toNat]
    · have hpair : isLead (0xD800 + (c.toNat - 0x10000) / 0x400) = true ∧
          isTrail (0xDC00 + (c.toNat - 0x10000) % 0x400) = true := by
        simp only [isLead, isTrail, Bool.and_eq_true, decide_eq_true_eq]
        omega
      rw [cons_append, singleton_append, cons_append, cons_append, toChars_pair hpair.1 hpair.2, ih]
      have hpoint : 0x10000 + (0xD800 + (c.toNat - 0x10000) / 0x400 - 0xD800) * 0x400 +
          (0xDC00 + (c.toNat - 0x10000) % 0x400 - 0xDC00) = c.toNat := by omega
      rw [hpoint, Char.ofNat_toNat, cons_append]

theorem toChars_codeUnits (text : List Char) : toChars (codeUnits text) = text := by
  have h := toChars_append text []
  rwa [append_nil, toChars, append_nil] at h

lemma textEncode_append (text : List Char) (rest : JsString) :
    textEncode (codeUnits text ++ rest) = encode text ++ textEncode rest := by
  rw [textEncode, toChars_append, encode_append]
  rfl

lemma textEncode_codeUnits (text : List Char) : textEncode (codeUnits text) = encode text :=
  congrArg encode (toChars_codeUnits text)

lemma dropMark_of_ne {text : List Char} (h : text.head? ≠ some '\uFEFF') : dropMark text = text := if_neg h

lemma WellFormed.append (hs : WellFormed s) (ht : WellFormed t) : WellFormed (s ++ t) := by
  obtain ⟨a, rfl, ha⟩ := hs
  obtain ⟨b, rfl, hb⟩ := ht
  exact ⟨a ++ b, codeUnits_append a b, not_mem_append ha hb⟩

lemma newline_notMem (h : u ≠ 10) (hu : (Char.ofNat u).toNat = u) : '\n' ∉ [Char.ofNat u] := by
  rw [mem_singleton]
  intro heq
  rw [← heq] at hu
  exact h hu.symm

lemma wellFormed_unit (h : u < 0xD800 ∨ 0xDFFF < u ∧ u < 0x10000) (hline : u ≠ 10) : WellFormed [u] := by
  have hu : (Char.ofNat u).toNat = u := toNat_ofNat (by omega)
  refine ⟨[Char.ofNat u], ?_, newline_notMem hline hu⟩
  change Utf16.codeUnitsOf (Char.ofNat u) ++ [] = [u]
  rw [append_nil, Utf16.codeUnitsOf, hu, if_pos (by omega)]

lemma wellFormed_ascii (h : ∀ u ∈ s, 32 < u ∧ u < 128) : WellFormed s := by
  induction s with
  | nil => exact ⟨[], rfl, not_mem_nil⟩
  | cons u s ih =>
    rw [forall_mem_cons] at h
    exact (wellFormed_unit (.inl (by omega)) (by omega)).append (ih h.2)

lemma hexDigit_lt (d : ℕ) (h : d < 16) : 32 < hexDigit d ∧ hexDigit d < 128 := by
  unfold hexDigit
  split_ifs <;> omega

lemma wellFormed_quoteUnit (h : u < 0x10000) : WellFormed (quoteUnit u) := by
  unfold quoteUnit
  split_ifs with h8 h9 h10 h12 h13 h34 h92 hescape
  iterate 7 exact wellFormed_ascii (by decide)
  · refine wellFormed_ascii ?_
    have hdigit : ∀ n, 32 < hexDigit (n % 16) ∧ hexDigit (n % 16) < 128 := fun n => hexDigit_lt _ (Nat.mod_lt _ (by decide))
    simp [unicodeEscape, hdigit]
  · simp [isLead, isTrail] at hescape
    exact wellFormed_unit (by omega) h10

lemma wellFormed_pair {v : ℕ} (hlead : isLead u = true) (htrail : isTrail v = true) : WellFormed [u, v] := by
  simp [isLead, isTrail] at hlead htrail
  obtain ⟨n, hn⟩ : ∃ n, n = 0x10000 + (u - 0xD800) * 0x400 + (v - 0xDC00) := ⟨_, rfl⟩
  have hc : (Char.ofNat n).toNat = n := toNat_ofNat (by omega)
  have hu : 0xD800 + (n - 0x10000) / 0x400 = u := by omega
  have hv : 0xDC00 + (n - 0x10000) % 0x400 = v := by omega
  refine ⟨[Char.ofNat n], ?_, newline_notMem (by omega) hc⟩
  change Utf16.codeUnitsOf (Char.ofNat n) ++ [] = [u, v]
  rw [append_nil, Utf16.codeUnitsOf, hc, if_neg (by omega), hu, hv]

lemma wellFormed_quoteUnits (s : JsString) (h : ∀ u ∈ s, u < 0x10000) : WellFormed (quoteUnits s) := by
  fun_induction quoteUnits s with
  | case1 => exact ⟨[], rfl, not_mem_nil⟩
  | case2 u => exact wellFormed_quoteUnit (h u mem_cons_self)
  | case3 u v rest hpair ih =>
    obtain ⟨hlead, htrail⟩ := (Bool.and_eq_true _ _).mp hpair
    exact (wellFormed_pair hlead htrail).append
      (ih fun u hu => h u (mem_cons_of_mem _ (mem_cons_of_mem _ hu)))
  | case4 u v rest hpair ih =>
    exact (wellFormed_quoteUnit (h u mem_cons_self)).append (ih fun u hu => h u (mem_cons_of_mem _ hu))

lemma wellFormed_quote (h : ∀ u ∈ s, u < 0x10000) : WellFormed (quote s) :=
  (wellFormed_ascii (s := [34]) (by decide)).append
    ((wellFormed_quoteUnits s h).append (wellFormed_ascii (by decide)))

lemma digitsText_lt {n : ℕ} (h : u ∈ digitsText n) : 32 < u ∧ u < 128 := by
  have hdigit := isDigit_of_mem_digitsText h
  simp [isDigit] at hdigit
  omega

lemma decimalText_lt (d : Binary64.Decimal) : ∀ u ∈ decimalText d, 32 < u ∧ u < 128 := by
  intro u hu
  have hdigits : ∀ n, ∀ v ∈ digitsText n, 32 < v ∧ v < 128 := fun n v => digitsText_lt
  unfold decimalText at hu
  dsimp only at hu
  split_ifs at hu <;> simp only [mem_append, mem_cons, mem_replicate, not_mem_nil, or_false] at hu <;>
    grind [mem_of_mem_take, mem_of_mem_drop]

lemma numberText_lt (x : JsNumber) : ∀ u ∈ numberText x, 32 < u ∧ u < 128 := by
  cases x with
  | finite value h =>
    unfold numberText
    dsimp only
    split_ifs
    · exact decimalText_lt _
    · exact forall_mem_cons.mpr ⟨by decide, decimalText_lt _⟩
    · decide
  | negZero | nan => decide
  | infinity negative => cases negative <;> decide

mutual
def Texts : JsValue → Prop
  | .str s => ∀ u ∈ s, u < 0x10000
  | .arr items => TextsItems items
  | .obj fields => TextsFields fields
  | .undefined | .null | .bool _ | .num _ | .exotic | .other _ => True
def TextsItems : List JsValue → Prop
  | [] => True
  | v :: items => Texts v ∧ TextsItems items
def TextsFields : List (JsString × JsValue) → Prop
  | [] => True
  | (key, v) :: fields => (∀ u ∈ key, u < 0x10000) ∧ Texts v ∧ TextsFields fields
end

mutual
theorem wellFormed_write : ∀ v : JsValue, Texts v → WellFormed (write v)
  | .null, _ | .bool true, _ | .bool false, _ => wellFormed_ascii (by decide)
  | .undefined, _ | .exotic, _ | .other _, _ => ⟨[], rfl, not_mem_nil⟩
  | .num x, _ => wellFormed_ascii (numberText_lt x)
  | .str s, h => wellFormed_quote h
  | .arr items, h => (wellFormed_ascii (s := [91]) (by decide)).append
      ((wellFormed_writeItems items h).append (wellFormed_ascii (by decide)))
  | .obj fields, h => (wellFormed_ascii (s := [123]) (by decide)).append
      ((wellFormed_writeFields fields h).append (wellFormed_ascii (by decide)))
lemma wellFormed_writeItems : ∀ items : List JsValue, TextsItems items → WellFormed (writeItems items)
  | [], _ => ⟨[], rfl, not_mem_nil⟩
  | [v], h => wellFormed_write v h.1
  | v :: w :: items, h => (wellFormed_write v h.1).append
      ((wellFormed_ascii (s := [44]) (by decide)).append (wellFormed_writeItems (w :: items) h.2))
lemma wellFormed_writeFields : ∀ fields : List (JsString × JsValue), TextsFields fields → WellFormed (writeFields fields)
  | [], _ => ⟨[], rfl, not_mem_nil⟩
  | [(key, v)], h => (wellFormed_quote h.1).append
      ((wellFormed_ascii (s := [58]) (by decide)).append (wellFormed_write v h.2.1))
  | (key, v) :: field :: fields, h => (wellFormed_quote h.1).append
      ((wellFormed_ascii (s := [58]) (by decide)).append ((wellFormed_write v h.2.1).append
        ((wellFormed_ascii (s := [44]) (by decide)).append (wellFormed_writeFields (field :: fields) h.2.2))))
end

lemma head_of_write {v : JsValue} (h : Plain v) {text : List Char} (htext : codeUnits text = write v) :
    ∃ c rest, text = c :: rest ∧ 32 < c.toNat ∧ c.toNat < 128 := by
  obtain ⟨u, rest, hwrite, -⟩ := opens_write h
  have hfirst : 32 < u ∧ u < 128 := by
    cases v with
    | num x => exact numberText_lt x u (by rw [show numberText x = _ from hwrite]; exact mem_cons_self)
    | bool b => cases b <;> cases hwrite <;> decide
    | undefined | exotic | other => exact h.elim
    | null | str | arr | obj => cases hwrite; decide
  have hu : (Char.ofNat u).toNat = u := toNat_ofNat (by omega)
  refine ⟨Char.ofNat u, toChars rest, ?_, by omega⟩
  rw [← toChars_codeUnits text, htext, hwrite, toChars_unit (by simp [isLead]; omega), charOf, if_neg]
  simp [isLead, isTrail]
  omega

lemma head_ne_mark {text rest : List Char} {c : Char} (h : text = c :: rest) (hc : c.toNat < 128) :
    text.head? ≠ some '\uFEFF' := by
  rw [h]
  rintro ⟨⟩
  exact absurd hc (by decide)

end Json
end OpenOmni
