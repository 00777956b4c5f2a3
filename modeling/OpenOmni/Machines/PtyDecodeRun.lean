import OpenOmni.Machines.PtyDecode

/-! The stream a control server writes, and what the decoder makes of it under every division
into chunks. -/

namespace OpenOmni
namespace PtyControl
open List

open LossyUtf8

/-- Control bytes and the backslash are escaped, every other byte is written raw. -/
def escaped (b : ℕ) : Prop := b < 0x20 ∨ b = 0x5c

instance (b : ℕ) : Decidable (escaped b) := inferInstanceAs (Decidable (_ ∨ _))

def escapeByte (b : UInt8) : List UInt8 :=
  if escaped b.toNat then
    [backslash, .ofNat (0x30 + b.toNat / 64), .ofNat (0x30 + b.toNat / 8 % 8), .ofNat (0x30 + b.toNat % 8)]
  else [b]

def escape (data : List UInt8) : List UInt8 := data.flatMap escapeByte

def escapeChar (c : Char) : List Char :=
  if escaped c.toNat then
    ['\\', .ofNat (0x30 + c.toNat / 64), .ofNat (0x30 + c.toNat / 8 % 8), .ofNat (0x30 + c.toNat % 8)]
  else [c]

def escapeText (text : List Char) : List Char := text.flatMap escapeChar

structure Stamp where
  time : UInt64
  number : UInt64
  flags : UInt64

def Stamp.text (s : Stamp) : List Char :=
  Nat.toDigits 10 s.time.toNat ++ ' ' :: (Nat.toDigits 10 s.number.toNat ++ ' ' :: Nat.toDigits 10 s.flags.toNat)

structure BodyLine where
  bytes : List UInt8
  plain : newline ∉ bytes

inductive Item
  | output (pane : ℕ) (data : List UInt8)
  | reply (stamp : Stamp) (body : List BodyLine) (ok : Bool)

def Item.body : Item → List BodyLine
  | .output _ _ => []
  | .reply _ body _ => body

def paneId (pane : ℕ) : List Char := '%' :: Nat.toDigits 10 pane

def outputHead (pane : ℕ) : List Char := ['%', 'o', 'u', 't', 'p', 'u', 't', ' ', '%'] ++ (Nat.toDigits 10 pane ++ [' '])

def outputLine (pane : ℕ) (data : List UInt8) : List UInt8 := encode (outputHead pane) ++ escape data

def edgeLine (edge : ReplyEdge) (stamp : Stamp) : List UInt8 := encode (edge.word ++ stamp.text)

def closing (ok : Bool) : ReplyEdge := if ok then .end else .error

def Item.lines : Item → List (List UInt8)
  | .output pane data => [outputLine pane data]
  | .reply stamp body ok =>
    edgeLine .begin stamp :: (body.map (·.bytes) ++ [edgeLine (closing ok) stamp])

def written (lines : List (List UInt8)) : List UInt8 := lines.flatMap (· ++ [newline])

def overCap (line : List UInt8) : Prop := CONTROL_LINE_MAX_BYTES < line.length

instance (line : List UInt8) : Decidable (overCap line) := inferInstanceAs (Decidable (_ < _))

inductive Framed
  | begin
  | body (bytes : List UInt8)
  | close (ok : Bool)
  | dropped
  | stray (event : PtyControlEvent)

def framed : PtyControlEvent → Option Framed
  | .replyBegin => some .begin
  | .replyBody line => some (.body (encode line))
  | .replyEnd ok => some (.close ok)
  | .output _ _ => none
  | event => some (if event = oversized then .dropped else .stray event)

def paneData (pane : ℕ) (events : List PtyControlEvent) : List UInt8 :=
  events.flatMap fun
    | .output id data => if id = paneId pane then data else []
    | _ => []

/-- The frames that an item stands for: a line over the bound for one dropped line. -/
def Item.framed : Item → List Framed
  | .output pane data => if overCap (outputLine pane data) then [.dropped] else []
  | .reply _ body ok =>
    .begin :: (body.map (fun line => if overCap line.bytes then .dropped else .body line.bytes) ++ [.close ok])

/-- What the pane put out in an item, unless its line is over the bound. -/
def Item.paneBytes (pane : ℕ) : Item → List UInt8
  | .output pane' data => if pane' = pane ∧ ¬ overCap (outputLine pane' data) then data else []
  | .reply _ _ _ => []

/-- The stream of `items`, with an unfinished line behind it, comes through. -/
structure Lossless (items : List Item) (tail : List UInt8) (chunks : List (List UInt8)) : Prop where
  chunked : (createControlDecoder.feedAll chunks).2 = (createControlDecoder.feedAll [chunks.flatten]).2
  output : ∀ pane, paneData pane (createControlDecoder.feedAll chunks).2 = items.flatMap (Item.paneBytes pane)
  framed : (createControlDecoder.feedAll chunks).2.filterMap framed =
    items.flatMap Item.framed ++ if overCap tail then [.dropped] else []

/-- Every record ends with a whole character, every body line is UTF-8 and looks like no edge,
and no line is over the bound. -/
def Item.Plain : Item → Prop
  | .output pane data => Valid data ∧ ¬ overCap (outputLine pane data)
  | .reply _ body _ => ∀ line ∈ body, Valid line.bytes ∧ replyEdge (decode line.bytes) = none ∧ ¬ overCap line.bytes

@[simp] lemma escape_cons (b : UInt8) (data : List UInt8) : escape (b :: data) = escapeByte b ++ escape data := rfl
@[simp] lemma escape_append (a b : List UInt8) : escape (a ++ b) = escape a ++ escape b := by simp [escape]
@[simp] lemma escapeText_append (s t : List Char) : escapeText (s ++ t) = escapeText s ++ escapeText t := by
  simp [escapeText]

variable {n : ℕ} {text : List Char} {c : Char} {item : Item} {tail : List UInt8} {body : List BodyLine}
  {items : List Item} {chunks : List (List UInt8)}

lemma octal_digit (h : n < 8) : octal (.ofNat (0x30 + n)) := by
  have hn : (UInt8.ofNat (0x30 + n)).toNat = 0x30 + n := toNat_ofNat_of_lt (by omega)
  have hlow : (0x30 : UInt8) ≤ .ofNat (0x30 + n) := by
    rw [UInt8.le_iff_toNat_le, hn]
    exact Nat.le_add_right _ _
  have hhigh : UInt8.ofNat (0x30 + n) ≤ 0x37 := by
    rw [UInt8.le_iff_toNat_le, hn]
    change 0x30 + n ≤ 0x37
    omega
  rw [octal, decide_eq_true hlow, decide_eq_true hhigh]
  rfl

lemma unescape_escape (data : List UInt8) : unescape (escape data) = some data := by
  induction data with
  | nil => rfl
  | cons b data ih =>
    have hb := b.toNat_lt
    rw [escape_cons, escapeByte]
    by_cases h : escaped b.toNat
    · have hvalue : (0x30 + b.toNat / 64 - 0x30) * 64 + (0x30 + b.toNat / 8 % 8 - 0x30) * 8 +
          (0x30 + b.toNat % 8 - 0x30) = b.toNat := by omega
      rw [if_pos h]
      simp only [cons_append, nil_append]
      rw [unescape_escape_cons (octal_digit (by omega)) (octal_digit (by omega)) (octal_digit (by omega)), ih,
        toNat_ofNat_of_lt (by omega), toNat_ofNat_of_lt (by omega), toNat_ofNat_of_lt (by omega), hvalue,
        UInt8.ofNat_toNat]
      rfl
    · have hne : b ≠ backslash := by
        rintro rfl
        exact h (.inr rfl)
      rw [if_neg h, singleton_append, unescape_cons hne, ih]
      rfl

lemma encodeChar_ofNat_of_lt (h : n < 0x80) : String.utf8EncodeChar (Char.ofNat n) = [UInt8.ofNat n] := by
  have hn := toNat_ofNat (n := n) (by omega)
  rw [encodeChar_of_lt (by omega), hn]

lemma escape_of_high {bytes : List UInt8} (h : ∀ b ∈ bytes, 0x80 ≤ b.toNat) : escape bytes = bytes := by
  induction bytes with
  | nil => rfl
  | cons b bytes ih =>
    have hb := h b mem_cons_self
    rw [escape_cons, ih fun c hc => h c (mem_cons_of_mem _ hc), escapeByte,
      if_neg (by unfold escaped; omega)]
    rfl

lemma encode_escapeChar (c : Char) : encode (escapeChar c) = escape (String.utf8EncodeChar c) := by
  by_cases hc : c.toNat < 0x80
  · have hn : (UInt8.ofNat c.toNat).toNat = c.toNat := toNat_ofNat_of_lt (by omega)
    rw [encodeChar_of_lt hc, escape, flatMap_singleton, escapeByte, hn, escapeChar]
    by_cases h : escaped c.toNat
    · rw [if_pos h, if_pos h]
      have hslash : String.utf8EncodeChar '\\' = [backslash] := rfl
      simp only [encode_cons, encode_nil, append_nil]
      rw [hslash, encodeChar_ofNat_of_lt (by omega), encodeChar_ofNat_of_lt (by omega),
        encodeChar_ofNat_of_lt (by omega)]
      rfl
    · rw [if_neg h, if_neg h, encode_cons, encodeChar_of_lt hc]
      rfl
  · rw [escape_of_high fun b hb => le_of_mem_encodeChar (by omega) hb, escapeChar,
      if_neg (by unfold escaped; omega)]
    exact append_nil _

lemma encode_escapeText (text : List Char) : encode (escapeText text) = escape (encode text) := by
  induction text with
  | nil => rfl
  | cons c text ih =>
    change encode (escapeChar c ++ escapeText text) = _
    rw [encode_append, encode_escapeChar, ih, encode_cons, escape_append]

lemma escapeText_of_plain (h : ∀ c ∈ text, ¬ escaped c.toNat) : escapeText text = text := by
  induction text with
  | nil => rfl
  | cons c text ih =>
    change escapeChar c ++ escapeText text = _
    rw [ih fun d hd => h d (mem_cons_of_mem _ hd), escapeChar, if_neg (h c mem_cons_self)]
    rfl

lemma escapeText_replacement : escapeText [replacement] = [replacement] := by decide

lemma decodeFrom_digit (h : n < 8) (rest : List UInt8) :
    decodeFrom start (.ofNat (0x30 + n) :: rest) = Char.ofNat (0x30 + n) :: decodeFrom start rest := by
  rw [decodeFrom_cons, toNat_ofNat_of_lt (by omega), step_start, lead_one (by omega)]
  rfl

lemma decodeFrom_escape {p : Pending} {seen : ℕ} (h : p.Held seen) (data : List UInt8) :
    decodeFrom p (escape data) = escapeText (decodeFrom p data) := by
  induction data generalizing p seen with
  | nil =>
    rw [escape, flatMap_nil, decodeFrom]
    split_ifs
    · rfl
    · exact escapeText_replacement.symm
  | cons b data ih =>
    have hb := b.toNat_lt
    obtain ⟨seen', hheld, -⟩ := step_held h hb
    rw [escape_cons, escapeByte, decodeFrom_cons, escapeText_append]
    by_cases hesc : escaped b.toNat
    · -- an escaped byte is below 0x80: it ends what is under way, and so does the backslash
      have hlt : b.toNat < 0x80 := by
        unfold escaped at hesc
        omega
      have hbyte : (if p.need = 0 then [] else [replacement]).flatMap escapeChar =
          if p.need = 0 then [] else [replacement] := by
        split_ifs
        · rfl
        · exact escapeText_replacement
      have hslash : step p backslash.toNat = ((if p.need = 0 then [] else [replacement]) ++ ['\\'], start) :=
        step_of_lt h (by decide)
      have hchar : escapeChar (Char.ofNat b.toNat) = ['\\', .ofNat (0x30 + b.toNat / 64),
          .ofNat (0x30 + b.toNat / 8 % 8), .ofNat (0x30 + b.toNat % 8)] := by
        rw [escapeChar, toNat_ofNat (by omega), if_pos hesc]
      rw [if_pos hesc, step_of_lt h hlt]
      simp only [cons_append, nil_append]
      rw [decodeFrom_cons, hslash, decodeFrom_digit (by omega), decodeFrom_digit (by omega),
        decodeFrom_digit (by omega), ih .start, escapeText_append]
      simp only [escapeText] at hbyte ⊢
      rw [hbyte, flatMap_singleton, hchar]
      simp
    · have hplain : escapeText (step p b.toNat).1 = (step p b.toNat).1 := by
        apply escapeText_of_plain
        intro c hc
        rcases mem_step h hc with hc | hc
        · rw [hc]
          exact hesc
        · unfold escaped
          omega
      rw [if_neg hesc, singleton_append, decodeFrom_cons, ih hheld, hplain]

lemma decode_escape (data : List UInt8) : decode (escape data) = escapeText (decode data) :=
  decodeFrom_escape .start data

lemma decodeOctalEscapes_escape (data : List UInt8) :
    decodeOctalEscapes (decode (escape data)) = some (encode (decode data)) := by
  rw [decodeOctalEscapes, decode_escape, encode_escapeText, unescape_escape]

lemma toNat_of_newline_mem_encodeChar (h : newline ∈ String.utf8EncodeChar c) : c = '\n' := by
  by_cases hc : c.toNat < 0x80
  · rw [encodeChar_of_lt hc, mem_singleton] at h
    have hn : (UInt8.ofNat c.toNat).toNat = c.toNat := toNat_ofNat_of_lt (by omega)
    rw [← h] at hn
    exact Char.ext (UInt32.toNat.inj hn.symm)
  · exact absurd (le_of_mem_encodeChar (by omega) h) (by decide)

lemma newline_notMem_encode (h : '\n' ∉ text) : newline ∉ encode text := by
  intro hmem
  obtain ⟨c, hc, hb⟩ := mem_flatMap.mp hmem
  rw [toNat_of_newline_mem_encodeChar hb] at hc
  exact h hc

lemma newline_notMem_escape (data : List UInt8) : newline ∉ escape data := by
  intro h
  obtain ⟨b, -, hb⟩ := mem_flatMap.mp h
  have hlt := b.toNat_lt
  rw [escapeByte] at hb
  split_ifs at hb with hesc
  · have hdigit : ∀ n < 8, newline ≠ .ofNat (0x30 + n) := by decide
    simp only [mem_cons, not_mem_nil, or_false] at hb
    rcases hb with hb | hb | hb | hb
    · exact absurd hb (by decide)
    · exact hdigit _ (by omega) hb
    · exact hdigit _ (by omega) hb
    · exact hdigit _ (by omega) hb
  · rw [mem_singleton] at hb
    rw [← hb] at hesc
    exact hesc (.inl (by decide))

lemma notMem_toDigits (hc : c.isDigit = false) (n : ℕ) : c ∉ Nat.toDigits 10 n := by
  intro h
  have hd := Nat.isDigit_of_mem_toDigits (by decide) (by decide) h
  rw [hc] at hd
  exact absurd hd (by decide)

lemma newline_notMem_outputLine (pane : ℕ) (data : List UInt8) : newline ∉ outputLine pane data := by
  have hhead : '\n' ∉ outputHead pane := by
    simp [outputHead, notMem_toDigits]
  rw [outputLine, mem_append]
  rintro (h | h)
  · exact newline_notMem_encode hhead h
  · exact newline_notMem_escape data h

lemma newline_notMem_edgeLine (edge : ReplyEdge) (stamp : Stamp) : newline ∉ edgeLine edge stamp := by
  apply newline_notMem_encode
  cases edge <;> simp [ReplyEdge.word, Stamp.text, notMem_toDigits]

lemma newline_notMem_lines {line : List UInt8} (h : line ∈ item.lines) : newline ∉ line := by
  cases item with
  | output pane data =>
    obtain rfl := mem_singleton.mp h
    exact newline_notMem_outputLine pane data
  | reply stamp body ok =>
    rw [Item.lines, mem_cons, mem_append, mem_map, mem_singleton] at h
    rcases h with rfl | ⟨line, -, rfl⟩ | rfl
    · exact newline_notMem_edgeLine _ _
    · exact line.plain
    · exact newline_notMem_edgeLine _ _

lemma frames_written {lines : List (List UInt8)} (h : ∀ line ∈ lines, newline ∉ line) (htail : newline ∉ tail) :
    ControlDecoder.frames (written lines ++ tail) = (lines, tail) := by
  induction lines with
  | nil => exact ControlDecoder.frames_of_notMem htail
  | cons line lines ih =>
    have hline := h line mem_cons_self
    have hrest := ih fun l hl => h l (mem_cons_of_mem _ hl)
    change ControlDecoder.frames ((line ++ [newline]) ++ written lines ++ tail) = _
    rw [append_assoc, append_assoc, singleton_append, ControlDecoder.frames_line hline, hrest]

lemma afterNumber_toDigits (n : ℕ) (rest : List Char) (hr : ∀ c ∈ rest.head?, c.isDigit = false) :
    afterNumber (Nat.toDigits 10 n ++ rest) = some (Nat.toDigits 10 n, rest) :=
  afterNumber_append Nat.toDigits_ne_nil
    (fun _ hc => Nat.isDigit_of_mem_toDigits (by decide) (by decide) hc) hr

lemma threeNumbers_text (stamp : Stamp) : threeNumbers stamp.text := by
  have hlast := afterNumber_toDigits stamp.flags.toNat [] (by simp)
  have hnumber := afterNumber_toDigits stamp.number.toNat (' ' :: Nat.toDigits 10 stamp.flags.toNat) (by simp)
  have htime := afterNumber_toDigits stamp.time.toNat
    (' ' :: (Nat.toDigits 10 stamp.number.toNat ++ ' ' :: Nat.toDigits 10 stamp.flags.toNat)) (by simp)
  rw [append_nil] at hlast
  simp [threeNumbers, Stamp.text, htime, hnumber, hlast, afterWord]

lemma replyEdge_word (edge : ReplyEdge) (stamp : Stamp) : replyEdge (edge.word ++ stamp.text) = some edge := by
  have htext := threeNumbers_text stamp
  cases edge <;> simp [replyEdge, ReplyEdge.word, afterWord, htext]

lemma replyEdge_outputHead (pane : ℕ) (value : List Char) : replyEdge (outputHead pane ++ value) = none := by
  simp [replyEdge, ReplyEdge.word, outputHead, afterWord]

lemma outputRecord_outputHead (pane : ℕ) (value : List Char) :
    outputRecord (outputHead pane ++ value) = some (paneId pane, value) := by
  have hnumber := afterNumber_toDigits pane (' ' :: value) (by simp)
  rw [outputHead, append_assoc, outputRecord, afterWord_append, append_assoc, singleton_append]
  simp [hnumber, afterWord, paneId]

lemma decodeRecord_edge (edge : ReplyEdge) (stamp : Stamp) (inside : Bool) :
    decodeRecord (decode (edgeLine edge stamp)) inside =
      if edge = .begin then .replyBegin else .replyEnd (edge == .end) := by
  rw [edgeLine, decode_encode, decodeRecord, replyEdge_word]
  cases edge <;> rfl

lemma decodeRecord_output (pane : ℕ) (data : List UInt8) :
    decodeRecord (decode (outputLine pane data)) false = .output (paneId pane) (encode (decode data)) := by
  rw [outputLine, decode_encode_append, decodeRecord, replyEdge_outputHead]
  dsimp only
  rw [if_neg (by decide), outputRecord_outputHead]
  dsimp only
  rw [decodeOctalEscapes_escape]

lemma decodeRecord_body {line : List Char} (h : replyEdge line = none) : decodeRecord line true = .replyBody line := by
  rw [decodeRecord, h]
  rfl

lemma decodeRecord_ne_oversized (line : List Char) (inside : Bool) : decodeRecord line inside ≠ oversized := by
  have hreason : "unparseable %output record" ≠ s!"control line exceeds {CONTROL_LINE_MAX_BYTES} bytes" := by
    decide
  unfold decodeRecord oversized
  cases replyEdge line with
  | some edge => cases edge <;> exact PtyControlEvent.noConfusion
  | none =>
    cases inside with
    | true => exact PtyControlEvent.noConfusion
    | false =>
      simp only [Bool.false_eq_true, if_false]
      cases outputRecord line with
      | none =>
        dsimp only
        split_ifs
        · exact PtyControlEvent.noConfusion
        · exact fun h => hreason (PtyControlEvent.malformed.inj h).2.1
        · exact PtyControlEvent.noConfusion
      | some record =>
        dsimp only
        cases decodeOctalEscapes record.2 with
        | none => exact fun h => Option.some_ne_none _ (PtyControlEvent.malformed.inj h).2.2
        | some data => exact PtyControlEvent.noConfusion

def Item.events : Item → List PtyControlEvent
  | .output pane data => [.output (paneId pane) (encode (decode data))]
  | .reply _ body ok => .replyBegin :: (body.map (fun line => .replyBody (decode line.bytes)) ++ [.replyEnd ok])

open ControlDecoder

lemma body_of_framed {more : List (List UInt8)} {rest : List Framed}
    (h : (readLines true (body.map (·.bytes) ++ more)).2.filterMap framed =
      body.map (fun line => .body line.bytes) ++ rest) :
    (∀ line ∈ body, Valid line.bytes ∧ replyEdge (decode line.bytes) = none) ∧
      (readLines true more).2.filterMap framed = rest := by
  induction body with
  | nil => exact ⟨fun line hline => absurd hline not_mem_nil, h⟩
  | cons line body ih =>
    rw [map_cons, cons_append, map_cons, cons_append, readLines] at h
    cases hedge : replyEdge (decode line.bytes) with
    | some edge =>
      rw [decodeRecord, hedge] at h
      cases edge <;> exact absurd (List.cons.inj h).1 Framed.noConfusion
    | none =>
      rw [decodeRecord_body hedge] at h
      obtain ⟨hline, hrest⟩ := List.cons.inj h
      obtain ⟨hbody, hmore⟩ := ih hrest
      refine ⟨forall_mem_cons.mpr ⟨⟨⟨_, Framed.body.inj hline⟩, hedge⟩, hbody⟩, hmore⟩

lemma bodies_of_framed (hcap : ∀ item ∈ items, .dropped ∉ item.framed)
    (h : (readLines false (items.flatMap Item.lines)).2.filterMap framed = items.flatMap Item.framed) :
    ∀ item ∈ items, ∀ line ∈ item.body, Valid line.bytes ∧ replyEdge (decode line.bytes) = none := by
  induction items with
  | nil => exact fun item hitem => absurd hitem not_mem_nil
  | cons item items ih =>
    have hrest := fun i hi => hcap i (mem_cons_of_mem item hi)
    have hitem := hcap item mem_cons_self
    rw [flatMap_cons, flatMap_cons] at h
    rw [forall_mem_cons]
    cases item with
    | output pane data =>
      have hover : Item.framed (.output pane data) = [] := by
        by_cases hc : overCap (outputLine pane data)
        · rw [Item.framed, if_pos hc] at hitem
          exact absurd mem_cons_self hitem
        · rw [Item.framed, if_neg hc]
      rw [hover, Item.lines, singleton_append, readLines, decodeRecord_output] at h
      exact ⟨fun line hline => absurd hline not_mem_nil, ih hrest h⟩
    | reply stamp body ok =>
      have hover : Item.framed (.reply stamp body ok) =
          .begin :: (body.map (fun line => .body line.bytes) ++ [.close ok]) := by
        rw [Item.framed] at hitem ⊢
        congr 2
        apply map_congr_left
        intro line hline
        by_cases hc : overCap line.bytes
        · refine absurd (mem_cons_of_mem _ (mem_append_left _ (mem_map.mpr ⟨line, hline, ?_⟩))) hitem
          exact if_pos hc
        · exact if_neg hc
      rw [hover, Item.lines, cons_append, readLines, decodeRecord_edge, if_pos rfl, append_assoc] at h
      obtain ⟨-, hbodies⟩ := List.cons.inj h
      obtain ⟨hbody, h⟩ := body_of_framed (hbodies.trans (append_assoc _ _ _))
      rw [singleton_append, readLines, decodeRecord_edge,
        if_neg (by cases ok <;> decide)] at h
      obtain ⟨-, h⟩ := List.cons.inj h
      exact ⟨hbody, ih hrest h⟩

lemma readLines_body (h : ∀ line ∈ body, replyEdge (decode line.bytes) = none) (more : List (List UInt8)) :
    readLines true (body.map (·.bytes) ++ more) =
      ((readLines true more).1, body.map (fun line => .replyBody (decode line.bytes)) ++ (readLines true more).2) := by
  induction body with
  | nil => rfl
  | cons line body ih =>
    rw [map_cons, cons_append, readLines, decodeRecord_body (h line mem_cons_self)]
    dsimp only [insideAfter]
    rw [ih fun l hl => h l (mem_cons_of_mem _ hl)]
    rfl

lemma readLines_items (h : ∀ item ∈ items, ∀ line ∈ item.body, replyEdge (decode line.bytes) = none) :
    readLines false (items.flatMap Item.lines) = (false, items.flatMap Item.events) := by
  induction items with
  | nil => rfl
  | cons item items ih =>
    have hrest := ih fun i hi => h i (mem_cons_of_mem item hi)
    have hitem := h item mem_cons_self
    rw [flatMap_cons, flatMap_cons]
    cases item with
    | output pane data =>
      rw [Item.lines, singleton_append, readLines, decodeRecord_output]
      dsimp only [insideAfter]
      rw [hrest]
      rfl
    | reply stamp body ok =>
      have hbody : ∀ line ∈ body, replyEdge (decode line.bytes) = none := hitem
      have hclose : decodeRecord (decode (edgeLine (closing ok) stamp)) true = .replyEnd ok := by
        rw [decodeRecord_edge]
        cases ok <;> rfl
      rw [Item.lines, cons_append, readLines, decodeRecord_edge, if_pos rfl, append_assoc]
      dsimp only [insideAfter]
      rw [readLines_body hbody, singleton_append, readLines, hclose]
      dsimp only [insideAfter]
      rw [hrest, Item.events, cons_append, append_assoc]
      rfl

lemma length_encode_toDigits (n : UInt64) : (encode (Nat.toDigits 10 n.toNat)).length ≤ 20 := by
  have hlen : (Nat.toDigits 10 n.toNat).length ≤ 20 := by
    rw [Nat.length_toDigits_le_iff (by decide) (by decide)]
    have hlt := n.toNat_lt
    omega
  have hone : ∀ text : List Char, (∀ c ∈ text, c.isDigit) → (encode text).length = text.length := by
    intro text h
    induction text with
    | nil => rfl
    | cons c text ih =>
      have hc : c.toNat < 0x80 := by
        have hd := h c mem_cons_self
        simp only [Char.isDigit, Bool.and_eq_true, decide_eq_true_eq] at hd
        exact lt_of_le_of_lt (UInt32.le_iff_toNat_le.mp hd.2) (by decide)
      rw [encode_cons, length_append, ih fun d hd => h d (mem_cons_of_mem _ hd), encodeChar_of_lt hc,
        length_cons]
      exact Nat.add_comm _ _
  rw [hone _ fun c hc => Nat.isDigit_of_mem_toDigits (by decide) (by decide) hc]
  exact hlen

lemma not_overCap_edgeLine (edge : ReplyEdge) (stamp : Stamp) : ¬ overCap (edgeLine edge stamp) := by
  have htime := length_encode_toDigits stamp.time
  have hnumber := length_encode_toDigits stamp.number
  have hflags := length_encode_toDigits stamp.flags
  have hword : (encode edge.word).length ≤ 7 := by cases edge <;> decide
  have hspace : (String.utf8EncodeChar ' ').length = 1 := rfl
  have hbound : CONTROL_LINE_MAX_BYTES = 4194304 := rfl
  unfold overCap
  simp only [edgeLine, Stamp.text, encode_append, encode_cons, length_append]
  omega

lemma length_le_of_plain (h : ∀ item ∈ items, item.Plain) :
    ∀ line ∈ items.flatMap Item.lines, line.length ≤ CONTROL_LINE_MAX_BYTES := by
  intro line hline
  obtain ⟨item, hitem, hmem⟩ := mem_flatMap.mp hline
  have hplain := h item hitem
  apply Nat.not_lt.mp
  cases item with
  | output pane data =>
    obtain rfl := mem_singleton.mp hmem
    exact hplain.2
  | reply stamp body ok =>
    rw [Item.lines, mem_cons, mem_append, mem_map, mem_singleton] at hmem
    rcases hmem with rfl | ⟨l, hl, rfl⟩ | rfl
    · exact not_overCap_edgeLine _ _
    · exact (hplain l hl).2.2
    · exact not_overCap_edgeLine _ _

lemma framed_events_of_plain (h : item.Plain) : item.events.filterMap framed = item.framed := by
  cases item with
  | output pane data =>
    rw [Item.framed, if_neg h.2]
    rfl
  | reply stamp body ok =>
    have hbody : (body.map (fun line => PtyControlEvent.replyBody (decode line.bytes))).filterMap framed =
        body.map fun line => if overCap line.bytes then .dropped else .body line.bytes := by
      rw [filterMap_map, filterMap_eq_map_iff_forall_eq_some.mpr]
      intro line hline
      obtain ⟨hvalid, -, hcap⟩ := h line hline
      rw [if_neg hcap, Function.comp_apply]
      exact congrArg (fun b => some (Framed.body b)) ((encode_decode_iff _).mpr hvalid)
    rw [Item.framed, Item.events, filterMap_cons_some (f := framed) (b := .begin) rfl, filterMap_append, hbody]
    rfl

lemma paneData_append (pane : ℕ) (a b : List PtyControlEvent) :
    paneData pane (a ++ b) = paneData pane a ++ paneData pane b := by
  simp [paneData]

lemma paneId_inj {a b : ℕ} (h : paneId a = paneId b) : a = b := by
  have hdigits : Nat.toDigits 10 a = Nat.toDigits 10 b := (List.cons.inj h).2
  rw [← Nat.ofDigitChars_ten_toDigits (n := a), hdigits, Nat.ofDigitChars_ten_toDigits]

lemma paneData_events (pane : ℕ) (item : Item) : paneData pane item.events =
    match item with
    | .output pane' data => if pane' = pane then encode (decode data) else []
    | .reply _ _ _ => [] := by
  cases item with
  | output pane' data =>
    simp only [Item.events, paneData, flatMap_singleton]
    by_cases hp : pane' = pane
    · rw [if_pos hp, if_pos (congrArg paneId hp)]
    · rw [if_neg hp, if_neg fun h => hp (paneId_inj h)]
  | reply stamp body ok =>
    have hbody : (body.map (fun line => PtyControlEvent.replyBody (decode line.bytes))).flatMap
        (fun
          | .output id data => if id = paneId pane then data else []
          | _ => []) = [] := by
      rw [flatMap_map]
      exact flatMap_eq_nil_iff.mpr fun _ _ => rfl
    rw [Item.events, paneData, flatMap_cons, flatMap_append, hbody]
    rfl

lemma eq_of_flatMap_eq {α β : Type*} {f g : α → List β} {l : List α} (hle : ∀ x ∈ l, (g x).length ≤ (f x).length)
    (h : l.flatMap f = l.flatMap g) : ∀ x ∈ l, f x = g x := by
  induction l with
  | nil => exact fun x hx => absurd hx not_mem_nil
  | cons x l ih =>
    have hx := hle x mem_cons_self
    have hl := fun y hy => hle y (mem_cons_of_mem x hy)
    have hsum : (l.flatMap g).length ≤ (l.flatMap f).length := by
      rw [length_flatMap, length_flatMap]
      exact sum_le_sum hl
    rw [flatMap_cons, flatMap_cons] at h
    have hlen := congrArg List.length h
    rw [length_append, length_append] at hlen
    obtain ⟨hhead, htail⟩ := append_inj h (by omega)
    exact forall_mem_cons.mpr ⟨hhead, ih hl htail⟩

lemma feedAll_stream (items : List Item) (htail : newline ∉ tail) :
    (createControlDecoder.feedAll [written (items.flatMap Item.lines) ++ tail]).2 =
      (readLines false (items.flatMap Item.lines)).2 ++ if overCap tail then [oversized] else [] := by
  have hlines : ∀ line ∈ items.flatMap Item.lines, newline ∉ line := by
    intro line hline
    obtain ⟨item, -, hmem⟩ := mem_flatMap.mp hline
    exact newline_notMem_lines hmem
  rw [feedAll_single, frames_written hlines htail]
  rfl

lemma dropped_notMem (inside : Bool) (lines : List (List UInt8)) :
    .dropped ∉ (readLines inside lines).2.filterMap framed := by
  intro h
  obtain ⟨event, hevent, hframed⟩ := mem_filterMap.mp h
  have hne : event ≠ oversized := by
    clear h hframed
    induction lines generalizing inside with
    | nil => exact absurd hevent not_mem_nil
    | cons line lines ih =>
      rw [readLines, mem_cons] at hevent
      rcases hevent with rfl | hevent
      · exact decodeRecord_ne_oversized _ _
      · exact ih _ hevent
  cases event <;> simp [framed, hne] at hframed

lemma framed_oversized : framed oversized = some .dropped :=
  congrArg some (if_pos rfl)

lemma filterMap_tail (tail : List UInt8) :
    (if overCap tail then [oversized] else []).filterMap framed = if overCap tail then [.dropped] else [] := by
  by_cases h : overCap tail
  · rw [if_pos h, if_pos h, filterMap_cons_some framed_oversized]
    rfl
  · rw [if_neg h, if_neg h]
    rfl

lemma paneData_tail (pane : ℕ) (tail : List UInt8) :
    paneData pane (if overCap tail then [oversized] else []) = [] := by
  by_cases h : overCap tail
  · rw [if_pos h]
    rfl
  · rw [if_neg h]
    rfl

lemma not_overCap_of_framed (h : .dropped ∉ items.flatMap Item.framed) (hitem : item ∈ items) :
    .dropped ∉ item.framed :=
  fun hmem => h (mem_flatMap.mpr ⟨item, hitem, hmem⟩)

lemma paneData_items (pane : ℕ) (items : List Item) :
    paneData pane (items.flatMap Item.events) = items.flatMap fun item => paneData pane item.events := by
  induction items with
  | nil => rfl
  | cons item items ih => rw [flatMap_cons, flatMap_cons, paneData_append, ih]

section
variable (htail : newline ∉ tail) (hchunks : chunks.flatten = written (items.flatMap Item.lines) ++ tail)
include htail hchunks

lemma plain_of_lossless (h : Lossless items tail chunks) :
    ∀ item ∈ items, item.Plain := by
  obtain ⟨hchunked, houtput, hframed⟩ := h
  rw [hchunked, hchunks, feedAll_stream items htail] at houtput hframed
  rw [filterMap_append, filterMap_tail] at hframed
  have hframes := append_cancel_right hframed
  have hdropped := dropped_notMem false (items.flatMap Item.lines)
  rw [hframes] at hdropped
  have hbodies := bodies_of_framed (fun _ hitem => not_overCap_of_framed hdropped hitem) hframes
  rw [readLines_items fun item hitem line hline => (hbodies item hitem line hline).2] at houtput
  intro item hitem
  have hnone := not_overCap_of_framed hdropped hitem
  cases item with
  | output pane data =>
    have hcap : ¬ overCap (outputLine pane data) := by
      intro hc
      rw [Item.framed, if_pos hc] at hnone
      exact hnone mem_cons_self
    refine ⟨?_, hcap⟩
    -- the converter never shortens a record, so the pane's bytes are whole record by record
    have hall : items.flatMap (fun i => paneData pane i.events) = items.flatMap (Item.paneBytes pane) := by
      have hpane := houtput pane
      rw [paneData_append, paneData_tail, append_nil, paneData_items] at hpane
      exact hpane
    have hle : ∀ i ∈ items, (i.paneBytes pane).length ≤ (paneData pane i.events).length := by
      intro i _
      rw [paneData_events]
      cases i with
      | output pane' data' =>
        simp only [Item.paneBytes]
        split_ifs with h1 h2
        · exact length_le_length_encode_decode data'
        · exact absurd h1.1 h2
        · exact Nat.zero_le _
        · exact Nat.zero_le _
      | reply stamp body ok => exact le_refl _
    have heq := eq_of_flatMap_eq hle hall _ hitem
    rw [paneData_events] at heq
    simp only [Item.paneBytes, if_true, hcap, not_false_eq_true, and_self] at heq
    exact ⟨_, heq⟩
  | reply stamp body ok =>
    intro line hline
    obtain ⟨hvalid, hedge⟩ := hbodies _ hitem line hline
    refine ⟨hvalid, hedge, ?_⟩
    intro hc
    apply hnone
    rw [Item.framed]
    exact mem_cons_of_mem _ (mem_append_left _ (mem_map.mpr ⟨line, hline, if_pos hc⟩))

lemma lossless_of_plain (h : ∀ item ∈ items, item.Plain) :
    Lossless items tail chunks := by
  have hlines : ∀ line ∈ items.flatMap Item.lines, newline ∉ line := by
    intro line hline
    obtain ⟨item, -, hmem⟩ := mem_flatMap.mp hline
    exact newline_notMem_lines hmem
  have hstart : createControlDecoder.pending ++ chunks.flatten = written (items.flatMap Item.lines) ++ tail := hchunks
  have hfed : (createControlDecoder.feedAll chunks).2 =
      (createControlDecoder.feedAll [chunks.flatten]).2 := by
    rw [feedAll_of_keeping rfl ?_ (Nat.zero_le _) not_mem_nil, hstart, frames_written hlines htail, hchunks,
      feedAll_stream items htail]
    · rfl
    · rw [hstart, frames_written hlines htail]
      exact length_le_of_plain h
  have hnoedge : ∀ item ∈ items, ∀ line ∈ item.body, replyEdge (decode line.bytes) = none := by
    intro item hitem line hline
    cases item with
    | output pane data => exact absurd hline not_mem_nil
    | reply stamp body ok => exact (h _ hitem line hline).2.1
  have hevents : (createControlDecoder.feedAll chunks).2 =
      items.flatMap Item.events ++ if overCap tail then [oversized] else [] := by
    rw [hfed, hchunks, feedAll_stream items htail, readLines_items hnoedge]
  refine ⟨hfed, ?_, ?_⟩
  · intro pane
    rw [hevents, paneData_append, paneData_tail, append_nil, paneData_items]
    apply flatMap_congr
    intro item hitem
    rw [paneData_events]
    cases item with
    | output pane' data =>
      obtain ⟨hvalid, hcap⟩ := h _ hitem
      simp only [Item.paneBytes, hcap, not_false_eq_true, and_true, (encode_decode_iff data).mpr hvalid]
    | reply stamp body ok => rfl
  · rw [hevents, filterMap_append, filterMap_tail, filterMap_flatMap]
    congr 1
    apply flatMap_congr
    intro item hitem
    exact framed_events_of_plain (h item hitem)

end

/-- A stream comes through under a division into chunks exactly when each of its records ends
with a whole character, each body line is UTF-8 and looks like no edge, and no line is over the
bound. -/
theorem control_stream_lossless (items : List Item) (tail : List UInt8) (chunks : List (List UInt8))
    (htail : newline ∉ tail) (hchunks : chunks.flatten = written (items.flatMap Item.lines) ++ tail) :
    Lossless items tail chunks ↔ ∀ item ∈ items, item.Plain :=
  ⟨plain_of_lossless htail hchunks, lossless_of_plain htail hchunks⟩

/-- A reply between two records, cut in the middle of its first edge. -/
theorem control_stream_lossless_cut :
    Lossless [.output 1 [0x61, 0x0a], .reply ⟨7, 1, 0⟩ [⟨[0x25], by decide⟩] true, .output 1 [0xc3, 0xa9]] [0x25]
      [(written ([Item.output 1 [0x61, 0x0a], .reply ⟨7, 1, 0⟩ [⟨[0x25], by decide⟩] true,
          .output 1 [0xc3, 0xa9]].flatMap Item.lines)).take 25,
        (written ([Item.output 1 [0x61, 0x0a], .reply ⟨7, 1, 0⟩ [⟨[0x25], by decide⟩] true,
          .output 1 [0xc3, 0xa9]].flatMap Item.lines)).drop 25 ++ [0x25]] := by
  refine (control_stream_lossless _ _ _ (by decide) ?_).mpr ?_
  · simp only [flatten_cons, flatten_nil, append_nil]
    rw [← append_assoc, take_append_drop]
  · intro item hitem
    simp only [mem_cons, not_mem_nil, or_false] at hitem
    rcases hitem with rfl | rfl | rfl
    · exact ⟨⟨['a', '\n'], by decide⟩, by decide⟩
    · intro line hline
      rw [mem_singleton] at hline
      subst hline
      exact ⟨⟨['%'], by decide⟩, by decide, by decide⟩
    · exact ⟨⟨['é'], by decide⟩, by decide⟩

/-- The three bytes of a character, written as two records. -/
theorem split_character_lost : ¬ ∀ (items : List Item) (tail : List UInt8) (chunks : List (List UInt8)),
    newline ∉ tail → chunks.flatten = written (items.flatMap Item.lines) ++ tail → Lossless items tail chunks := by
  intro h
  have hlossless := h [.output 0 [0xe2], .output 0 [0x82, 0xac]] []
    [written ([Item.output 0 [0xe2], .output 0 [0x82, 0xac]].flatMap Item.lines)] (by decide) (by simp)
  have hvalid := (plain_of_lossless (by decide) (by simp) hlossless _ mem_cons_self).1
  have hbytes := (encode_decode_iff _).mpr hvalid
  exact absurd hbytes (by decide)

end PtyControl
end OpenOmni
