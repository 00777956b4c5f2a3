import Mathlib.Tactic

/-! UTF-8 with replacement: a decoder that never refuses, as text converters decode. -/
namespace OpenOmni
namespace LossyUtf8
open List

def encode (text : List Char) : List UInt8 := text.flatMap String.utf8EncodeChar

/-- A byte sequence is UTF-8 when some text has it as its bytes. -/
def Valid (bytes : List UInt8) : Prop := ∃ text, encode text = bytes

def replacement : Char := '\uFFFD'

/-- A character under way: how many bytes it still needs, the bounds of the next one and the
bits read so far. -/
structure Pending where
  need : ℕ
  low : ℕ
  high : ℕ
  point : ℕ

def start : Pending := ⟨0, 0x80, 0xBF, 0⟩

/-- The first byte of a character: what it yields at once and what it leaves under way. -/
def lead (b : ℕ) : List Char × Pending :=
  if b < 0x80 then ([Char.ofNat b], start)
  else if 0xC2 ≤ b ∧ b ≤ 0xDF then ([], ⟨1, 0x80, 0xBF, b - 0xC0⟩)
  else if 0xE0 ≤ b ∧ b ≤ 0xEF then
    ([], ⟨2, if b = 0xE0 then 0xA0 else 0x80, if b = 0xED then 0x9F else 0xBF, b - 0xE0⟩)
  else if 0xF0 ≤ b ∧ b ≤ 0xF4 then
    ([], ⟨3, if b = 0xF0 then 0x90 else 0x80, if b = 0xF4 then 0x8F else 0xBF, b - 0xF0⟩)
  else ([replacement], start)

/-- One byte. A byte out of bounds ends the character under way with a replacement and is read
again as a first byte. -/
def step (p : Pending) (b : ℕ) : List Char × Pending :=
  if p.need = 0 then lead b
  else if b < p.low ∨ p.high < b then (replacement :: (lead b).1, (lead b).2)
  else if p.need = 1 then ([Char.ofNat (p.point * 64 + (b - 0x80))], start)
  else ([], ⟨p.need - 1, 0x80, 0xBF, p.point * 64 + (b - 0x80)⟩)

def decodeFrom : Pending → List UInt8 → List Char
  | p, [] => if p.need = 0 then [] else [replacement]
  | p, b :: rest => (step p b.toNat).1 ++ decodeFrom (step p b.toNat).2 rest

/-- The text of a byte sequence, with a replacement for every part that is no character. -/
def decode (bytes : List UInt8) : List Char := decodeFrom start bytes

@[simp] lemma encode_nil : encode [] = [] := rfl
@[simp] lemma encode_cons (c : Char) (text : List Char) :
    encode (c :: text) = String.utf8EncodeChar c ++ encode text := rfl
@[simp] lemma encode_append (s t : List Char) : encode (s ++ t) = encode s ++ encode t := by
  simp [encode]

lemma decodeFrom_cons (p : Pending) (b : UInt8) (rest : List UInt8) :
    decodeFrom p (b :: rest) = (step p b.toNat).1 ++ decodeFrom (step p b.toNat).2 rest := rfl

lemma step_start (b : ℕ) : step start b = lead b := rfl

variable {b low high point n seen : ℕ} {p : Pending} {c : Char}

lemma lead_one (h : b < 0x80) : lead b = ([Char.ofNat b], start) := if_pos h

lemma lead_two (h : 0xC2 ≤ b ∧ b ≤ 0xDF) : lead b = ([], ⟨1, 0x80, 0xBF, b - 0xC0⟩) := by
  rw [lead, if_neg (by omega), if_pos h]

lemma lead_three (h : 0xE0 ≤ b ∧ b ≤ 0xEF) :
    lead b = ([], ⟨2, if b = 0xE0 then 0xA0 else 0x80, if b = 0xED then 0x9F else 0xBF, b - 0xE0⟩) := by
  rw [lead, if_neg (by omega), if_neg (by omega), if_pos h]

lemma lead_four (h : 0xF0 ≤ b ∧ b ≤ 0xF4) :
    lead b = ([], ⟨3, if b = 0xF0 then 0x90 else 0x80, if b = 0xF4 then 0x8F else 0xBF, b - 0xF0⟩) := by
  rw [lead, if_neg (by omega), if_neg (by omega), if_neg (by omega), if_pos h]

lemma step_last (h : low ≤ b ∧ b ≤ high) :
    step ⟨1, low, high, point⟩ b = ([Char.ofNat (point * 64 + (b - 0x80))], start) := by
  rw [step, if_neg (by simp), if_neg (by simp only [not_or, not_lt]; exact h), if_pos rfl]

lemma step_more {need : ℕ} (h : low ≤ b ∧ b ≤ high) :
    step ⟨need + 2, low, high, point⟩ b = ([], ⟨need + 1, 0x80, 0xBF, point * 64 + (b - 0x80)⟩) := by
  rw [step, if_neg (by simp), if_neg (by simp only [not_or, not_lt]; exact h), if_neg (by simp)]
  rfl

lemma toNat_lt (c : Char) : c.toNat < 0xD800 ∨ 0xDFFF < c.toNat ∧ c.toNat < 0x110000 := by
  have h : c.toNat.isValidChar := c.valid
  simpa [Nat.isValidChar] using h

lemma toNat_ofNat_of_lt (h : n < 256) : (UInt8.ofNat n).toNat = n := by
  rw [UInt8.toNat_ofNat', Nat.mod_eq_of_lt h]

lemma decodeFrom_encodeChar (c : Char) (rest : List UInt8) :
    decodeFrom start (String.utf8EncodeChar c ++ rest) = c :: decodeFrom start rest := by
  have hc := toNat_lt c
  have hof : Char.ofNat c.toNat = c := Char.ofNat_toNat c
  generalize hn : c.toNat = n at hc hof
  have hv : c.val.toNat = n := hn
  unfold String.utf8EncodeChar
  simp only [hv]
  split_ifs with h1 h2 h3
  · rw [singleton_append, decodeFrom_cons, toNat_ofNat_of_lt (by omega), step_start,
      lead_one (by omega), hof]
    rfl
  · simp only [cons_append, nil_append, decodeFrom_cons]
    rw [toNat_ofNat_of_lt (by omega), step_start, lead_two (by omega), toNat_ofNat_of_lt (by omega),
      step_last (by omega)]
    have he : (n / 64 % 32 + 192 - 192) * 64 + (n % 64 + 128 - 128) = n := by omega
    simp only [he, hof, nil_append, singleton_append]
  · simp only [cons_append, nil_append, decodeFrom_cons]
    rw [toNat_ofNat_of_lt (by omega), step_start, lead_three (by omega), toNat_ofNat_of_lt (by omega),
      step_more (by split_ifs <;> omega), toNat_ofNat_of_lt (by omega), step_last (by omega)]
    have he : ((n / 4096 % 16 + 224 - 224) * 64 + (n / 64 % 64 + 128 - 128)) * 64 +
        (n % 64 + 128 - 128) = n := by omega
    simp only [he, hof, nil_append, singleton_append]
  · simp only [cons_append, nil_append, decodeFrom_cons]
    rw [toNat_ofNat_of_lt (by omega), step_start, lead_four (by omega), toNat_ofNat_of_lt (by omega),
      step_more (by split_ifs <;> omega), toNat_ofNat_of_lt (by omega), step_more (by omega),
      toNat_ofNat_of_lt (by omega), step_last (by omega)]
    have he : (((n / 262144 % 8 + 240 - 240) * 64 + (n / 4096 % 64 + 128 - 128)) * 64 +
        (n / 64 % 64 + 128 - 128)) * 64 + (n % 64 + 128 - 128) = n := by omega
    simp only [he, hof, nil_append, singleton_append]

theorem decode_encode (text : List Char) : decode (encode text) = text := by
  induction text with
  | nil => rfl
  | cons c text ih =>
    rw [encode_cons, decode, decodeFrom_encodeChar]
    exact congrArg (c :: ·) ih

theorem encode_decode_iff (bytes : List UInt8) : encode (decode bytes) = bytes ↔ Valid bytes := by
  constructor
  · intro h
    exact ⟨_, h⟩
  · rintro ⟨text, rfl⟩
    rw [decode_encode]

/-- What the bytes read so far of the character under way, `seen` of them, allow. -/
inductive Pending.Held : Pending → ℕ → Prop
  | start : Held start 0
  | two {point : ℕ} (h : 2 ≤ point ∧ point < 32) : Held ⟨1, 0x80, 0xBF, point⟩ 1
  | three {low high point : ℕ} (h : point < 16) (hlow : 0x80 ≤ low ∧ (point = 0 → 0xA0 ≤ low))
      (hhigh : high ≤ 0xBF ∧ (point = 13 → high ≤ 0x9F)) : Held ⟨2, low, high, point⟩ 1
  | threeLast {point : ℕ} (h : 32 ≤ point ∧ point < 1024) (hs : point < 864 ∨ 896 ≤ point) :
      Held ⟨1, 0x80, 0xBF, point⟩ 2
  | four {low high point : ℕ} (h : point < 5) (hlow : 0x80 ≤ low ∧ (point = 0 → 0x90 ≤ low))
      (hhigh : high ≤ 0xBF ∧ (point = 4 → high ≤ 0x8F)) : Held ⟨3, low, high, point⟩ 1
  | fourNext {point : ℕ} (h : 16 ≤ point ∧ point < 272) : Held ⟨2, 0x80, 0xBF, point⟩ 2
  | fourLast {point : ℕ} (h : 1024 ≤ point ∧ point < 17408) : Held ⟨1, 0x80, 0xBF, point⟩ 3

lemma toNat_ofNat (h : n < 0xD800 ∨ 0xDFFF < n ∧ n < 0x110000) : (Char.ofNat n).toNat = n := by
  have hn : n.isValidChar := by simpa [Nat.isValidChar] using h
  rw [Char.toNat, Char.ofNat, dif_pos hn]
  rfl

lemma length_encodeChar_ofNat (h : n < 0xD800 ∨ 0xDFFF < n ∧ n < 0x110000) :
    (String.utf8EncodeChar (Char.ofNat n)).length =
      if n < 0x80 then 1 else if n < 0x800 then 2 else if n < 0x10000 then 3 else 4 := by
  have hv : (Char.ofNat n).val.toNat = n := toNat_ofNat h
  unfold String.utf8EncodeChar
  simp only [hv]
  split_ifs <;> first | rfl | omega

lemma length_encode_replacement : (encode [replacement]).length = 3 := rfl

lemma lead_held (hb : b < 256) : ∃ seen, (lead b).2.Held seen ∧ 1 ≤ (encode (lead b).1).length + seen := by
  by_cases h1 : b < 0x80
  · rw [lead_one h1]
    refine ⟨0, .start, ?_⟩
    rw [encode_cons, encode_nil, append_nil, length_encodeChar_ofNat (by omega), if_pos h1]
  by_cases h2 : 0xC2 ≤ b ∧ b ≤ 0xDF
  · rw [lead_two h2]
    exact ⟨1, .two (by omega), by simp⟩
  by_cases h3 : 0xE0 ≤ b ∧ b ≤ 0xEF
  · rw [lead_three h3]
    exact ⟨1, .three (by omega) (by split_ifs <;> omega) (by split_ifs <;> omega), by simp⟩
  by_cases h4 : 0xF0 ≤ b ∧ b ≤ 0xF4
  · rw [lead_four h4]
    exact ⟨1, .four (by omega) (by split_ifs <;> omega) (by split_ifs <;> omega), by simp⟩
  · rw [lead, if_neg h1, if_neg h2, if_neg h3, if_neg h4]
    exact ⟨0, .start, by rw [length_encode_replacement]; omega⟩

lemma Pending.Held.le_three (h : p.Held seen) : seen ≤ 3 := by
  cases h <;> omega

lemma step_held_of_out (h : p.Held seen) (hb : b < 256) (hneed : p.need ≠ 0) (hout : b < p.low ∨ p.high < b) :
    ∃ seen', (step p b).2.Held seen' ∧ seen + 1 ≤ (encode (step p b).1).length + seen' := by
  obtain ⟨seen', hheld, hlen⟩ := lead_held hb
  have hle := h.le_three
  rw [step, if_neg hneed, if_pos hout]
  refine ⟨seen', hheld, ?_⟩
  change seen + 1 ≤ (encode ([replacement] ++ (lead b).1)).length + seen'
  rw [encode_append, length_append, length_encode_replacement]
  omega

lemma step_held (h : p.Held seen) (hb : b < 256) :
    ∃ seen', (step p b).2.Held seen' ∧ seen + 1 ≤ (encode (step p b).1).length + seen' := by
  by_cases hneed : p.need = 0
  · cases h with
    | start =>
      rw [step_start, Nat.zero_add]
      exact lead_held hb
    | _ => exact absurd hneed (by simp)
  by_cases hout : b < p.low ∨ p.high < b
  · exact step_held_of_out h hb hneed hout
  simp only [not_or, not_lt] at hout
  cases h with
  | start => exact absurd rfl hneed
  | two hp | threeLast hp hs | fourLast hp =>
    dsimp only at hout
    rw [step_last hout]
    refine ⟨0, .start, ?_⟩
    rw [encode_cons, encode_nil, append_nil, length_encodeChar_ofNat (by omega)]
    split_ifs <;> omega
  | three hp hlow hhigh =>
    dsimp only at hout
    rw [step_more hout]
    exact ⟨2, .threeLast (by omega) (by omega), by simp⟩
  | four hp hlow hhigh =>
    dsimp only at hout
    rw [step_more hout]
    exact ⟨2, .fourNext (by omega), by simp⟩
  | fourNext hp =>
    dsimp only at hout
    rw [step_more hout]
    exact ⟨3, .fourLast (by omega), by simp⟩

lemma length_decodeFrom (h : p.Held seen) (bytes : List UInt8) :
    seen + bytes.length ≤ (encode (decodeFrom p bytes)).length := by
  induction bytes generalizing p seen with
  | nil =>
    have hle := h.le_three
    by_cases hneed : p.need = 0
    · cases h with
      | start => simp
      | _ => exact absurd hneed (by simp)
    · rw [decodeFrom, if_neg hneed, length_encode_replacement, length_nil]
      omega
  | cons b rest ih =>
    obtain ⟨seen', hheld, hlen⟩ := step_held h b.toNat_lt
    have hrest := ih hheld
    rw [decodeFrom_cons, encode_append, length_append, length_cons]
    omega

theorem length_le_length_encode_decode (bytes : List UInt8) :
    bytes.length ≤ (encode (decode bytes)).length := by
  have h := length_decodeFrom .start bytes
  rwa [Nat.zero_add] at h

lemma encodeChar_of_lt (h : c.toNat < 0x80) : String.utf8EncodeChar c = [UInt8.ofNat c.toNat] := by
  have hv : c.val.toNat ≤ 0x7f := by
    change c.toNat ≤ 0x7f
    omega
  unfold String.utf8EncodeChar
  exact if_pos hv

lemma le_of_mem_encodeChar (h : 0x80 ≤ c.toNat) {b : UInt8} (hb : b ∈ String.utf8EncodeChar c) : 0x80 ≤ b.toNat := by
  have hc := toNat_lt c
  have hv : c.val.toNat = c.toNat := rfl
  unfold String.utf8EncodeChar at hb
  simp only [hv] at hb
  rw [if_neg (by omega)] at hb
  split_ifs at hb <;>
    (simp only [mem_cons, not_mem_nil, or_false] at hb
     rcases hb with rfl | rfl | rfl | rfl | rfl <;> rw [toNat_ofNat_of_lt (by omega)] <;> omega)

lemma step_of_lt (h : p.Held seen) (hb : b < 0x80) :
    step p b = ((if p.need = 0 then [] else [replacement]) ++ [Char.ofNat b], start) := by
  by_cases hneed : p.need = 0
  · rw [step, if_pos hneed, if_pos hneed, lead_one hb]
    rfl
  · have hlow : b < p.low := by
      cases h with
      | start => exact absurd rfl hneed
      | three _ hlow _ | four _ hlow _ => exact lt_of_lt_of_le hb hlow.1
      | _ => exact hb
    rw [step, if_neg hneed, if_pos (.inl hlow), if_neg hneed, lead_one hb]
    rfl

lemma mem_lead (hc : c ∈ (lead b).1) : c.toNat = b ∨ 0x80 ≤ c.toNat := by
  by_cases h1 : b < 0x80
  · rw [lead_one h1, mem_singleton] at hc
    left
    rw [hc, toNat_ofNat (by omega)]
  by_cases h2 : 0xC2 ≤ b ∧ b ≤ 0xDF
  · rw [lead_two h2] at hc
    exact absurd hc not_mem_nil
  by_cases h3 : 0xE0 ≤ b ∧ b ≤ 0xEF
  · rw [lead_three h3] at hc
    exact absurd hc not_mem_nil
  by_cases h4 : 0xF0 ≤ b ∧ b ≤ 0xF4
  · rw [lead_four h4] at hc
    exact absurd hc not_mem_nil
  · rw [lead, if_neg h1, if_neg h2, if_neg h3, if_neg h4, mem_singleton] at hc
    right
    rw [hc]
    decide

lemma mem_step (h : p.Held seen) (hc : c ∈ (step p b).1) : c.toNat = b ∨ 0x80 ≤ c.toNat := by
  by_cases hneed : p.need = 0
  · rw [step, if_pos hneed] at hc
    exact mem_lead hc
  by_cases hout : b < p.low ∨ p.high < b
  · rw [step, if_neg hneed, if_pos hout, mem_cons] at hc
    rcases hc with rfl | hc
    · right
      decide
    · exact mem_lead hc
  simp only [not_or, not_lt] at hout
  right
  cases h with
  | start => exact absurd rfl hneed
  | two hp | threeLast hp hs | fourLast hp =>
    dsimp only at hout
    rw [step_last hout, mem_singleton] at hc
    rw [hc, toNat_ofNat (by omega)]
    omega
  | three hp hlow hhigh | four hp hlow hhigh | fourNext hp =>
    rw [step_more hout] at hc
    exact absurd hc not_mem_nil

lemma decode_encode_append (text : List Char) (rest : List UInt8) :
    decode (encode text ++ rest) = text ++ decode rest := by
  induction text with
  | nil => rfl
  | cons c text ih =>
    rw [encode_cons, append_assoc, decode, decodeFrom_encodeChar]
    exact congrArg (c :: ·) ih

def leadIgnoring (b : ℕ) : List Char × Pending :=
  if b < 0x80 ∨ 0xC2 ≤ b ∧ b ≤ 0xF4 then lead b else ([], start)

/-- One byte. A byte out of bounds drops the character under way and is read again as a first byte. -/
def stepIgnoring (p : Pending) (b : ℕ) : List Char × Pending :=
  if p.need = 0 ∨ b < p.low ∨ p.high < b then leadIgnoring b else step p b

def ignoreFrom : Pending → List UInt8 → List Char
  | _, [] => []
  | p, b :: rest => (stepIgnoring p b.toNat).1 ++ ignoreFrom (stepIgnoring p b.toNat).2 rest

def decodeIgnoring (bytes : List UInt8) : List Char := ignoreFrom start bytes

lemma stepIgnoring_eq (h : replacement ∉ (step p b).1) : stepIgnoring p b = step p b := by
  unfold step at h
  unfold stepIgnoring
  by_cases hneed : p.need = 0
  · rw [if_pos hneed] at h
    rw [if_pos (.inl hneed), step, if_pos hneed, leadIgnoring]
    split_ifs with hb
    · rfl
    · rw [lead, if_neg (by omega), if_neg (by omega), if_neg (by omega), if_neg (by omega)] at h
      exact absurd mem_cons_self h
  · rw [if_neg hneed] at h
    rw [if_neg]
    rintro (hzero | hout)
    · exact hneed hzero
    · rw [if_pos hout] at h
      exact h mem_cons_self

lemma ignoreFrom_append (bytes rest : List UInt8) (h : replacement ∉ decodeFrom p bytes) :
    ignoreFrom p (bytes ++ rest) = decodeFrom p bytes ++ ignoreFrom start rest := by
  induction bytes generalizing p with
  | nil =>
    rw [decodeFrom] at h ⊢
    split_ifs at h ⊢ with hneed
    · cases rest with
      | nil => rfl
      | cons b rest => simp only [nil_append, ignoreFrom, stepIgnoring, hneed, start, true_or, if_true]
    · exact absurd (mem_singleton_self _) h
  | cons b bytes ih =>
    rw [decodeFrom_cons, mem_append, not_or] at h
    rw [cons_append, ignoreFrom, stepIgnoring_eq h.1, ih h.2, decodeFrom_cons, append_assoc]

lemma ignoreFrom_part (bytes rest : List UInt8) (h : p.Held seen) (hrest : rest ≠ [])
    (hone : (decodeFrom p (bytes ++ rest)).length = 1) (hclean : replacement ∉ decodeFrom p (bytes ++ rest)) :
    ignoreFrom p bytes = [] := by
  induction bytes generalizing p seen with
  | nil => rfl
  | cons b bytes ih =>
    obtain ⟨seen', hheld, -⟩ := step_held h b.toNat_lt
    rw [cons_append, decodeFrom_cons] at hone hclean
    rw [mem_append, not_or] at hclean
    have hpos : decodeFrom (step p b.toNat).2 (bytes ++ rest) ≠ [] := by
      intro hnil
      have hlen := length_decodeFrom hheld (bytes ++ rest)
      have hpos := length_pos_of_ne_nil hrest
      rw [hnil, encode_nil, length_nil, length_append] at hlen
      omega
    have hlen := length_pos_of_ne_nil hpos
    rw [length_append] at hone
    have hnone : (step p b.toNat).1 = [] := eq_nil_of_length_eq_zero (by omega)
    rw [ignoreFrom, stepIgnoring_eq hclean.1, hnone, ih hheld (by omega) hclean.2]
    rfl

lemma decodeFrom_encodeChar_nil (c : Char) : decodeFrom start (String.utf8EncodeChar c) = [c] := by
  have h := decodeFrom_encodeChar c []
  rwa [append_nil] at h

lemma encodeChar_replacement : String.utf8EncodeChar replacement = [0xEF, 0xBF, 0xBD] := by decide

lemma decodeIgnoring_cons (c : Char) (rest : List UInt8) :
    decodeIgnoring (String.utf8EncodeChar c ++ rest) = c :: decodeIgnoring rest := by
  by_cases hc : c = replacement
  · rw [hc, encodeChar_replacement]
    rfl
  · rw [decodeIgnoring, ignoreFrom_append, decodeFrom_encodeChar_nil]
    · rfl
    · rw [decodeFrom_encodeChar_nil, mem_singleton]
      exact Ne.symm hc

lemma decodeIgnoring_part (c : Char) (h : n < (String.utf8EncodeChar c).length) :
    decodeIgnoring ((String.utf8EncodeChar c).take n) = [] := by
  by_cases hc : c = replacement
  · rw [hc, encodeChar_replacement] at h ⊢
    have hn : n < 3 := h
    interval_cases n <;> rfl
  · apply ignoreFrom_part _ ((String.utf8EncodeChar c).drop n) .start
    · exact fun hnil => absurd (drop_eq_nil_iff.mp hnil) (by omega)
    · rw [take_append_drop, decodeFrom_encodeChar_nil]
      rfl
    · rw [take_append_drop, decodeFrom_encodeChar_nil, mem_singleton]
      exact Ne.symm hc

def fitting : ℕ → List Char → List Char
  | _, [] => []
  | n, c :: text => if (encode [c]).length ≤ n then c :: fitting (n - (encode [c]).length) text else []

@[simp] theorem fitting_cons (n : ℕ) (c : Char) (text : List Char) : fitting n (c :: text) =
    if (encode [c]).length ≤ n then c :: fitting (n - (encode [c]).length) text else [] := rfl

theorem decodeIgnoring_take (text : List Char) (n : ℕ) : decodeIgnoring ((encode text).take n) = fitting n text := by
  induction text generalizing n with
  | nil => simp [fitting, decodeIgnoring, ignoreFrom]
  | cons c text ih =>
    rw [encode_cons, fitting_cons, take_append]
    have hone : (encode [c]).length = (String.utf8EncodeChar c).length := by simp
    split_ifs with h
    · rw [take_of_length_le (by omega), decodeIgnoring_cons, ih, hone]
    · rw [show n - (String.utf8EncodeChar c).length = 0 by omega, take_zero, append_nil,
        decodeIgnoring_part c (by omega)]

lemma length_encode_cons (c : Char) (text : List Char) :
    (encode (c :: text)).length = (encode [c]).length + (encode text).length := by
  rw [← singleton_append, encode_append, length_append]

lemma fitting_of_le {text : List Char} (h : (encode text).length ≤ n) : fitting n text = text := by
  induction text generalizing n with
  | nil => rfl
  | cons c text ih =>
    rw [length_encode_cons] at h
    rw [fitting_cons, if_pos (by omega), ih (by omega)]

lemma length_fitting_le (n : ℕ) (text : List Char) : (encode (fitting n text)).length ≤ n := by
  induction text generalizing n with
  | nil => exact Nat.zero_le n
  | cons c text ih =>
    rw [fitting_cons]
    split_ifs with h
    · have hrest := ih (n - (encode [c]).length)
      rw [length_encode_cons]
      omega
    · exact Nat.zero_le n

lemma fitting_append_of_le {text : List Char} (h : (encode text).length ≤ n) (rest : List Char) :
    fitting n (text ++ rest) = text ++ fitting (n - (encode text).length) rest := by
  induction text generalizing n with
  | nil => rfl
  | cons c text ih =>
    rw [length_encode_cons] at h ⊢
    rw [cons_append, fitting_cons, if_pos (by omega), ih (by omega), Nat.sub_sub]
    rfl

lemma fitting_append_of_lt {text : List Char} (h : n < (encode text).length) (rest : List Char) :
    fitting n (text ++ rest) = fitting n text := by
  induction text generalizing n with
  | nil => exact absurd h (Nat.not_lt_zero n)
  | cons c text ih =>
    rw [length_encode_cons] at h
    rw [cons_append, fitting_cons, fitting_cons]
    split_ifs with hc
    · rw [ih (by omega)]
    · rfl

lemma fitting_isPrefix (n : ℕ) (text : List Char) : fitting n text <+: text := by
  induction text generalizing n with
  | nil => exact prefix_refl _
  | cons c text ih =>
    rw [fitting_cons]
    split_ifs
    · exact cons_prefix_cons.mpr ⟨rfl, ih _⟩
    · exact nil_prefix

lemma prefix_fitting {text part : List Char} (h : part <+: text) (hle : (encode part).length ≤ n) :
    part <+: fitting n text := by
  obtain ⟨rest, rfl⟩ := h
  rw [fitting_append_of_le hle]
  exact prefix_append _ _

end LossyUtf8
end OpenOmni
