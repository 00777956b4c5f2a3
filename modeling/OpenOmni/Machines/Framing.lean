import OpenOmni.Protocol.CanonicalJson
import OpenOmni.Protocol.JsonBytes

/-! Frames over a byte stream: a line of JSON each, cut at the newlines of whatever chunks arrive. -/
namespace OpenOmni
namespace Framing
open List Json LossyUtf8

def MAX_FRAME_BYTES : ℕ := 16 * 1024 * 1024
def MALFORMED_REPORT_CHARS : ℕ := 64

mutual
/-- `JsonShapedValue`, whose slots may be undefined. -/
def JsonShaped : JsValue → Prop
  | .null | .bool _ | .num (.finite _ _) => True
  | .str s => ∀ u ∈ s, u < 0x10000
  | .arr items => JsonShapedItems items
  | .obj fields => (fields.map Prod.fst).Nodup ∧ JsonShapedFields fields
  | .num _ | .undefined | .exotic | .other _ => False
def JsonShapedItems : List JsValue → Prop
  | [] => True
  | v :: items => JsonShaped v ∧ JsonShapedItems items
def JsonShapedFields : List (JsString × JsValue) → Prop
  | [] => True
  | (key, v) :: fields => (∀ u ∈ key, u < 0x10000) ∧ (v = .undefined ∨ JsonShaped v) ∧ JsonShapedFields fields
end

def isUndefined : JsValue → Bool
  | .undefined => true
  | _ => false

mutual
/-- What `JSON.stringify` writes of a value: a slot that is undefined is dropped. -/
def wire : JsValue → JsValue
  | .arr items => .arr (wireItems items)
  | .obj fields => .obj (wireFields fields)
  | v => v
def wireItems : List JsValue → List JsValue
  | [] => []
  | v :: items => wire v :: wireItems items
def wireFields : List (JsString × JsValue) → List (JsString × JsValue)
  | [] => []
  | (key, v) :: fields => if isUndefined v then wireFields fields else (key, wire v) :: wireFields fields
end

def encode (msg : JsValue) : List UInt8 := textEncode (write (wire msg) ++ [10])

mutual
/-- `FrameSchema`, on what `JSON.parse` makes. -/
def isFrameValue : JsValue → Bool
  | .null | .str _ | .bool _ | .num (.finite _ _) | .num .negZero | .num (.infinity _) => true
  | .arr items => isFrameItems items
  | .obj fields => isFrameFields fields
  | .num .nan | .undefined | .exotic | .other _ => false
def isFrameItems : List JsValue → Bool
  | [] => true
  | v :: items => isFrameValue v && isFrameItems items
def isFrameFields : List (JsString × JsValue) → Bool
  | [] => true
  | (_, v) :: fields => isFrameValue v && isFrameFields fields
end

/-- `parseJson` of a line. -/
def parseFrame (line : List Char) : Option JsValue := (parse (codeUnits line)).filter isFrameValue

def byteLength (text : List Char) : ℕ := (LossyUtf8.encode text).length

def splitLines : List Char → List (List Char) × List Char
  | [] => ([], [])
  | c :: text =>
    if c = '\n' then ([] :: (splitLines text).1, (splitLines text).2)
    else match (splitLines text).1 with
      | [] => ([], c :: (splitLines text).2)
      | line :: lines => ((c :: line) :: lines, (splitLines text).2)

/-- A streaming `TextDecoder`: the characters that the bytes complete, and the one under way. -/
def stream : Pending → List UInt8 → List Char × Pending
  | p, [] => ([], p)
  | p, b :: rest => ((step p b.toNat).1 ++ (stream (step p b.toNat).2 rest).1, (stream (step p b.toNat).2 rest).2)

/-- `LineSplitter`; a decoder that is `fresh` drops a byte order mark. -/
structure LineSplitter where
  buffer : List Char := []
  pending : Pending := start
  fresh : Bool := true

def emit (fresh : Bool) (text : List Char) : List Char := if fresh then dropMark text else text

def LineSplitter.push (s : LineSplitter) (chunk : List UInt8) : List (List Char) × LineSplitter :=
  let (text, pending) := stream s.pending chunk
  let (lines, buffer) := splitLines (s.buffer ++ emit s.fresh text)
  (lines, ⟨buffer, pending, s.fresh && text.isEmpty⟩)

/-- The frames and the malformed lines of a chunk; one line that is too long throws them away. -/
def decodeLines : List (List Char) → Option (List JsValue × List JsString)
  | [] => some ([], [])
  | line :: lines =>
    if line.all Utf16.isSpace then decodeLines lines
    else if MAX_FRAME_BYTES < byteLength line then none
    else (decodeLines lines).map fun (frames, malformed) => match parseFrame line with
      | none => (frames, (codeUnits line).take MALFORMED_REPORT_CHARS :: malformed)
      | some frame => (frame :: frames, malformed)

/-- `LineDecoder.push`; nothing where it throws. -/
def push (s : LineSplitter) (chunk : List UInt8) : LineSplitter × Option (List JsValue × List JsString) :=
  let (lines, s) := s.push chunk
  if MAX_FRAME_BYTES < byteLength s.buffer then ({}, none)
  else match decodeLines lines with
    | none => ({}, none)
    | some decoded => (s, some decoded)

/-- What a connection received; `closed` when a chunk was refused, which ends it. -/
structure Received where
  frames : List JsValue
  malformed : List JsString
  closed : Bool

/-- The chunks as they arrive; a condemned connection decodes no more. -/
def receive : LineSplitter → List (List UInt8) → Received
  | _, [] => ⟨[], [], false⟩
  | s, chunk :: chunks =>
    match push s chunk with
    | (_, none) => ⟨[], [], true⟩
    | (s, some (frames, malformed)) =>
      ⟨frames ++ (receive s chunks).frames, malformed ++ (receive s chunks).malformed, (receive s chunks).closed⟩

def framesOf (lines : List (List Char)) : List JsValue :=
  (lines.filter fun line => !line.all Utf16.isSpace).filterMap parseFrame

def malformedOf (lines : List (List Char)) : List JsString :=
  (lines.filter fun line => !line.all Utf16.isSpace && (parseFrame line).isNone).map
    fun line => (codeUnits line).take MALFORMED_REPORT_CHARS

def Overlong (line : List Char) : Prop := MAX_FRAME_BYTES < byteLength line

/-- What is received of lines and the text behind them: each line by itself, up to a line that ends the connection. -/
def Heard (lines : List (List Char) × List Char) (received : Received) : Prop :=
  (received.closed = false ∧ received.frames = framesOf lines.1 ∧ received.malformed = malformedOf lines.1) ∨
  (received.closed = true ∧ received.frames <+: framesOf lines.1 ∧ received.malformed <+: malformedOf lines.1 ∧
    ∃ line ∈ lines.1 ++ [lines.2], Overlong line)

def streamText (bytes : List UInt8) : List Char := emit true (stream start bytes).1

/-- The texts of byte lines, each decoded by itself; a mark is dropped from the first. -/
def lineTexts : List (List UInt8) → List (List Char)
  | [] => []
  | line :: lines => dropMark (decode line) :: lines.map decode

section Lines
variable {line text : List Char} {c : Char}

lemma splitLines_cons_of_ne (h : c ≠ '\n') (text : List Char) : splitLines (c :: text) = match (splitLines text).1 with
    | [] => ([], c :: (splitLines text).2)
    | line :: lines => ((c :: line) :: lines, (splitLines text).2) := if_neg h

lemma splitLines_line (h : '\n' ∉ line) (text : List Char) :
    splitLines (line ++ '\n' :: text) = (line :: (splitLines text).1, (splitLines text).2) := by
  induction line with
  | nil => exact if_pos rfl
  | cons c line ih =>
    rw [mem_cons, not_or] at h
    rw [cons_append, splitLines_cons_of_ne (Ne.symm h.1), ih h.2]

lemma splitLines_of_notMem (h : '\n' ∉ text) : splitLines text = ([], text) := by
  induction text with
  | nil => rfl
  | cons c text ih =>
    rw [mem_cons, not_or] at h
    rw [splitLines_cons_of_ne (Ne.symm h.1), ih h.2]

lemma newline_notMem_rest (text : List Char) : '\n' ∉ (splitLines text).2 := by
  induction text with
  | nil => exact not_mem_nil
  | cons c text ih =>
    by_cases hc : c = '\n'
    · rw [splitLines, if_pos hc]
      exact ih
    rw [splitLines_cons_of_ne hc]
    cases (splitLines text).1 with
    | nil => exact not_mem_cons_of_ne_of_not_mem (Ne.symm hc) ih
    | cons line lines => exact ih

lemma splitLines_append (a b : List Char) : splitLines (a ++ b) =
    ((splitLines a).1 ++ (splitLines ((splitLines a).2 ++ b)).1, (splitLines ((splitLines a).2 ++ b)).2) := by
  induction a with
  | nil => rfl
  | cons c a ih =>
    by_cases hc : c = '\n'
    · rw [cons_append, splitLines, splitLines, if_pos hc, if_pos hc, ih]
      rfl
    rw [cons_append, splitLines_cons_of_ne hc, splitLines_cons_of_ne hc, ih]
    cases (splitLines a).1 with
    | nil =>
      dsimp only
      rw [cons_append, splitLines_cons_of_ne hc]
      rfl
    | cons line lines => rfl

lemma exists_line (h : '\n' ∉ line) (text : List Char) :
    ∃ l ls, (splitLines (line ++ text)).1 ++ [(splitLines (line ++ text)).2] = (line ++ l) :: ls := by
  induction line with
  | nil =>
    cases hlines : (splitLines text).1 with
    | nil => exact ⟨(splitLines text).2, [], by rw [nil_append, hlines]; rfl⟩
    | cons l ls => exact ⟨l, _, by rw [nil_append, hlines]; rfl⟩
  | cons c line ih =>
    rw [mem_cons, not_or] at h
    obtain ⟨l, ls, hline⟩ := ih h.2
    rw [cons_append, splitLines_cons_of_ne (Ne.symm h.1)]
    cases hlines : (splitLines (line ++ text)).1 with
    | nil =>
      rw [hlines] at hline
      obtain ⟨hrest, -⟩ := cons.inj hline
      exact ⟨l, [], by rw [hrest]; rfl⟩
    | cons first lines =>
      rw [hlines] at hline
      obtain ⟨rfl, -⟩ := cons.inj hline
      exact ⟨l, _, rfl⟩

end Lines

lemma stream_append (p : Pending) (a b : List UInt8) : stream p (a ++ b) =
    ((stream p a).1 ++ (stream (stream p a).2 b).1, (stream (stream p a).2 b).2) := by
  induction a generalizing p with
  | nil => rfl
  | cons byte a ih => rw [cons_append, stream, stream, ih, append_assoc]

lemma dropMark_append (c : Char) (a b : List Char) : dropMark (c :: a ++ b) = dropMark (c :: a) ++ b := by
  unfold dropMark
  rw [cons_append, head?_cons, head?_cons]
  split_ifs <;> rfl

lemma emit_append (fresh : Bool) (a b : List Char) :
    emit fresh (a ++ b) = emit fresh a ++ emit (fresh && a.isEmpty) b := by
  cases fresh with
  | false => rfl
  | true =>
    cases a with
    | nil => rfl
    | cons c a => exact dropMark_append c a b

lemma decodeLines_none {lines : List (List Char)} (h : decodeLines lines = none) : ∃ line ∈ lines, Overlong line := by
  induction lines with
  | nil => exact nomatch h
  | cons line lines ih =>
    rw [decodeLines] at h
    split_ifs at h with hblank hlong
    · obtain ⟨long, hmem, hlong⟩ := ih h
      exact ⟨long, mem_cons_of_mem _ hmem, hlong⟩
    · exact ⟨line, mem_cons_self, hlong⟩
    · obtain ⟨long, hmem, hlong⟩ := ih (Option.map_eq_none_iff.mp h)
      exact ⟨long, mem_cons_of_mem _ hmem, hlong⟩

lemma decodeLines_some {lines : List (List Char)} {decoded : List JsValue × List JsString}
    (h : decodeLines lines = some decoded) : decoded = (framesOf lines, malformedOf lines) := by
  induction lines generalizing decoded with
  | nil =>
    cases h
    rfl
  | cons line lines ih =>
    rw [decodeLines] at h
    split_ifs at h with hblank hlong
    · rw [ih h]
      simp [framesOf, malformedOf, hblank]
    · obtain ⟨rest, hrest, rfl⟩ := Option.map_eq_some_iff.mp h
      cases ih hrest
      cases hframe : parseFrame line <;> simp [framesOf, malformedOf, hblank, hframe]

lemma framesOf_append (a b : List (List Char)) : framesOf (a ++ b) = framesOf a ++ framesOf b := by
  rw [framesOf, filter_append, filterMap_append]
  rfl

lemma malformedOf_append (a b : List (List Char)) : malformedOf (a ++ b) = malformedOf a ++ malformedOf b := by
  rw [malformedOf, filter_append, map_append]
  rfl

lemma push_cases (s : LineSplitter) (chunk : List UInt8) :
    (push s chunk).2 = none ∧ (∃ line ∈ (s.push chunk).1 ++ [(s.push chunk).2.buffer], Overlong line) ∨
      push s chunk = ((s.push chunk).2, some (framesOf (s.push chunk).1, malformedOf (s.push chunk).1)) := by
  unfold push
  dsimp only
  split_ifs with hlong
  · exact .inl ⟨rfl, _, mem_append_right _ mem_cons_self, hlong⟩
  cases hdecoded : decodeLines (s.push chunk).1 with
  | none =>
    obtain ⟨line, hline, hlong⟩ := decodeLines_none hdecoded
    exact .inl ⟨rfl, line, mem_append_left _ hline, hlong⟩
  | some decoded =>
    rw [decodeLines_some hdecoded]
    exact .inr rfl

lemma Overlong.append {line : List Char} (h : Overlong line) (rest : List Char) : Overlong (line ++ rest) := by
  unfold Overlong byteLength at h ⊢
  rw [encode_append, length_append]
  omega

def linesFrom (s : LineSplitter) (bytes : List UInt8) : List (List Char) × List Char :=
  splitLines (s.buffer ++ emit s.fresh (stream s.pending bytes).1)

lemma linesFrom_append (s : LineSplitter) (chunk rest : List UInt8) : linesFrom s (chunk ++ rest) =
    ((s.push chunk).1 ++ (linesFrom (s.push chunk).2 rest).1, (linesFrom (s.push chunk).2 rest).2) := by
  rw [linesFrom, stream_append, emit_append, ← append_assoc, splitLines_append]
  rfl

theorem receive_heard (s : LineSplitter) (hs : '\n' ∉ s.buffer) (chunks : List (List UInt8)) :
    Heard (linesFrom s chunks.flatten) (receive s chunks) := by
  induction chunks generalizing s with
  | nil =>
    have htext : s.buffer ++ emit s.fresh (stream s.pending ([] : List (List UInt8)).flatten).1 = s.buffer := by
      cases s.fresh <;> exact append_nil _
    rw [linesFrom, htext, splitLines_of_notMem hs]
    exact .inl ⟨rfl, rfl, rfl⟩
  | cons chunk chunks ih =>
    have hrest : '\n' ∉ (s.push chunk).2.buffer := newline_notMem_rest _
    have hih := ih (s.push chunk).2 hrest
    obtain ⟨l, ls, hnext⟩ : ∃ l ls, (linesFrom (s.push chunk).2 chunks.flatten).1 ++
        [(linesFrom (s.push chunk).2 chunks.flatten).2] = ((s.push chunk).2.buffer ++ l) :: ls := exists_line hrest _
    rw [flatten_cons, linesFrom_append]
    rcases push_cases s chunk with ⟨hnone, line, hline, hlong⟩ | hsome
    · refine .inr ?_
      have hreceive : receive s (chunk :: chunks) = ⟨[], [], true⟩ := by
        rw [receive]
        split
        · rfl
        · rename_i hpush
          rw [hpush] at hnone
          exact nomatch hnone
      rw [hreceive]
      refine ⟨rfl, nil_prefix, nil_prefix, ?_⟩
      rw [append_assoc, hnext]
      rcases mem_append.mp hline with hmem | hmem
      · exact ⟨line, mem_append_left _ hmem, hlong⟩
      · cases mem_singleton.mp hmem
        exact ⟨_, mem_append_right _ mem_cons_self, hlong.append l⟩
    · rw [receive, hsome]
      dsimp only
      rcases hih with ⟨hopen, hframes, hmalformed⟩ | ⟨hclosed, hframes, hmalformed, line, hline, hlong⟩
      · refine .inl ⟨hopen, ?_, ?_⟩
        · rw [framesOf_append, ← hframes]
        · rw [malformedOf_append, ← hmalformed]
      · refine .inr ⟨hclosed, ?_, ?_, line, ?_, hlong⟩
        · rw [framesOf_append]
          exact (prefix_append_right_inj _).mpr hframes
        · rw [malformedOf_append]
          exact (prefix_append_right_inj _).mpr hmalformed
        · rw [append_assoc]
          exact mem_append_right _ hline

section Bytes
variable {p : Pending} {seen : ℕ} {line : List UInt8}

lemma stream_isPrefix (p : Pending) (bytes : List UInt8) : (stream p bytes).1 <+: decodeFrom p bytes := by
  induction bytes generalizing p with
  | nil => exact nil_prefix
  | cons b bytes ih => exact (prefix_append_right_inj _).mpr (ih _)

lemma stream_line (h : p.Held seen) (line rest : List UInt8) :
    (stream p (line ++ 10 :: rest)).1 = decodeFrom p line ++ '\n' :: (stream start rest).1 := by
  induction line generalizing p seen with
  | nil =>
    rw [nil_append, stream, decodeFrom, step_of_lt h (by decide)]
    dsimp only
    rw [append_assoc]
    rfl
  | cons b line ih =>
    obtain ⟨seen', hheld, -⟩ := step_held h b.toNat_lt
    rw [cons_append, stream, decodeFrom, ih hheld, append_assoc]

lemma newline_notMem_decode (h : p.Held seen) (hline : 10 ∉ line) : '\n' ∉ decodeFrom p line := by
  induction line generalizing p seen with
  | nil =>
    rw [decodeFrom]
    split_ifs <;> decide
  | cons b line ih =>
    obtain ⟨seen', hheld, -⟩ := step_held h b.toNat_lt
    rw [mem_cons, not_or] at hline
    rw [decodeFrom]
    refine not_mem_append ?_ (ih hheld hline.2)
    intro hmem
    rcases mem_step h hmem with hb | hb
    · exact hline.1 (UInt8.toNat_inj.mp hb)
    · exact absurd hb (by decide)

lemma stream_lines (lines : List (List UInt8)) (rest : List UInt8) :
    (stream start (lines.flatMap (· ++ [10]) ++ rest)).1 =
      (lines.map decode).flatMap (· ++ ['\n']) ++ (stream start rest).1 := by
  induction lines with
  | nil => rfl
  | cons line lines ih =>
    rw [flatMap_cons, append_assoc, append_assoc, singleton_append, stream_line .start, ih, map_cons, flatMap_cons,
      append_assoc, append_assoc]
    rfl

lemma splitLines_lines {lines : List (List Char)} {rest : List Char} (h : ∀ line ∈ lines, '\n' ∉ line)
    (hrest : '\n' ∉ rest) : splitLines (lines.flatMap (· ++ ['\n']) ++ rest) = (lines, rest) := by
  induction lines with
  | nil => exact splitLines_of_notMem hrest
  | cons line lines ih =>
    rw [forall_mem_cons] at h
    rw [flatMap_cons, append_assoc, append_assoc, singleton_append, splitLines_line h.1, ih h.2]

lemma notMem_dropMark {text : List Char} {c : Char} (h : c ∉ text) : c ∉ dropMark text := by
  unfold dropMark
  split_ifs
  · exact fun hmem => h (mem_of_mem_tail hmem)
  · exact h

theorem linesFrom_lines {lines : List (List UInt8)} {rest : List UInt8} (h : ∀ line ∈ lines, 10 ∉ line)
    (hrest : 10 ∉ rest) : ∃ tail,
      linesFrom {} (lines.flatMap (· ++ [10]) ++ rest) = (lineTexts lines, tail) ∧ (rest = [] → tail = []) := by
  have htail : '\n' ∉ (stream start rest).1 := fun hmem =>
    newline_notMem_decode .start hrest ((stream_isPrefix start rest).subset hmem)
  have hlines : ∀ line ∈ lines.map decode, '\n' ∉ line := by
    rw [forall_mem_map]
    exact fun line hline => newline_notMem_decode .start (h line hline)
  change ∃ tail, splitLines ([] ++ dropMark (stream start _).1) = _ ∧ _
  rw [nil_append, stream_lines]
  cases lines with
  | nil =>
    rw [map_nil, flatMap_nil, nil_append, splitLines_of_notMem (notMem_dropMark htail)]
    exact ⟨_, rfl, by rintro rfl; rfl⟩
  | cons line lines =>
    rw [map_cons, forall_mem_cons] at hlines
    have hdrop : ∀ rest, dropMark (decode line ++ ['\n'] ++ rest) = dropMark (decode line) ++ ['\n'] ++ rest := by
      intro rest
      cases decode line with
      | nil => rfl
      | cons c text => rw [append_assoc, dropMark_append, append_assoc]
    rw [map_cons, flatMap_cons, append_assoc, hdrop, append_assoc, singleton_append,
      splitLines_line (notMem_dropMark hlines.1), splitLines_lines hlines.2 htail]
    exact ⟨_, rfl, by rintro rfl; rfl⟩

end Bytes

structure Carried (v : JsValue) : Prop where
  plain : Plain v
  texts : Texts v
  unsigned : unsigned v = v
  frame : isFrameValue v = true

lemma wireFields_keys (fields : List (JsString × JsValue)) :
    (wireFields fields).map Prod.fst <+ fields.map Prod.fst := by
  induction fields with
  | nil => exact .slnil
  | cons field fields ih =>
    rw [wireFields]
    split_ifs
    · exact ih.cons _
    · exact ih.cons_cons _

mutual
lemma wire_carried : ∀ v : JsValue, JsonShaped v → Carried (wire v)
  | .null, _ | .bool _, _ | .num (.finite _ _), _ => ⟨trivial, trivial, rfl, rfl⟩
  | .str _, h => ⟨trivial, h, rfl, rfl⟩
  | .arr items, h => by
    obtain ⟨hplain, htexts, hunsigned, hframe⟩ := wireItems_carried items h
    exact ⟨hplain, htexts, congrArg JsValue.arr hunsigned, hframe⟩
  | .obj fields, h => by
    obtain ⟨hplain, htexts, hunsigned, hframe⟩ := wireFields_carried fields h.2
    exact ⟨⟨h.1.sublist (wireFields_keys fields), hplain⟩, htexts, congrArg JsValue.obj hunsigned, hframe⟩
lemma wireItems_carried : ∀ items : List JsValue, JsonShapedItems items → PlainItems (wireItems items) ∧
    TextsItems (wireItems items) ∧ unsignedItems (wireItems items) = wireItems items ∧
      isFrameItems (wireItems items) = true
  | [], _ => ⟨trivial, trivial, rfl, rfl⟩
  | v :: items, h => by
    obtain ⟨hplain, htexts, hunsigned, hframe⟩ := wire_carried v h.1
    obtain ⟨hplains, htextss, hunsigneds, hframes⟩ := wireItems_carried items h.2
    refine ⟨⟨hplain, hplains⟩, ⟨htexts, htextss⟩, ?_, ?_⟩
    · rw [wireItems, unsignedItems, hunsigned, hunsigneds]
    · rw [wireItems, isFrameItems, hframe, hframes]
      rfl
lemma wireFields_carried : ∀ fields : List (JsString × JsValue), JsonShapedFields fields →
    PlainFields (wireFields fields) ∧ TextsFields (wireFields fields) ∧
      unsignedFields (wireFields fields) = wireFields fields ∧ isFrameFields (wireFields fields) = true
  | [], _ => ⟨trivial, trivial, rfl, rfl⟩
  | (key, v) :: fields, h => by
    obtain ⟨hplains, htextss, hunsigneds, hframes⟩ := wireFields_carried fields h.2.2
    rw [wireFields]
    split_ifs with hv
    · exact ⟨hplains, htextss, hunsigneds, hframes⟩
    · have hshaped := h.2.1.resolve_left fun heq => hv (by rw [heq]; rfl)
      obtain ⟨hplain, htexts, hunsigned, hframe⟩ := wire_carried v hshaped
      refine ⟨⟨hplain, hplains⟩, ⟨h.1, htexts, htextss⟩, ?_, ?_⟩
      · rw [unsignedFields, hunsigned, hunsigneds]
      · rw [isFrameFields, hframe, hframes]
        rfl
end

structure LineOf (msg : JsValue) (text : List Char) : Prop where
  bytes : encode msg = LossyUtf8.encode text ++ [10]
  oneLine : '\n' ∉ text
  unmarked : dropMark text = text
  visible : text.all Utf16.isSpace = false
  frame : parseFrame text = some (wire msg)
  length : byteLength text = (textEncode (write (wire msg))).length

lemma exists_lineOf {msg : JsValue} (h : JsonShaped msg) : ∃ text, LineOf msg text := by
  obtain ⟨hplain, htexts, hunsigned, hframe⟩ := wire_carried msg h
  obtain ⟨text, htext, hline⟩ := wellFormed_write _ htexts
  obtain ⟨c, rest, hhead, hlow, hhigh⟩ := head_of_write hplain htext
  refine ⟨text, ?_, hline, dropMark_of_ne (head_ne_mark hhead hhigh), ?_, ?_, ?_⟩
  · rw [encode, ← htext, textEncode_append]
    rfl
  · have hspace : Utf16.isSpace c = false := by
      have hne : ∀ d : Char, d.toNat ≤ 32 ∨ 128 ≤ d.toNat → c ≠ d := by
        rintro d hd rfl
        omega
      simp [Utf16.isSpace, hne]
      omega
    rw [hhead, all_cons, hspace, Bool.false_and]
  · rw [parseFrame, htext, parse_write hplain, hunsigned, Option.filter_some, if_pos hframe]
  · rw [← htext, textEncode_codeUnits, byteLength]

lemma newline_notMem_encode {text : List Char} (h : '\n' ∉ text) : 10 ∉ LossyUtf8.encode text := by
  intro hmem
  obtain ⟨c, hc, hbyte⟩ := mem_flatMap.mp hmem
  by_cases hlow : c.toNat < 0x80
  · rw [encodeChar_of_lt hlow, mem_singleton] at hbyte
    have hn : 10 = c.toNat := by
      have hnat := congrArg UInt8.toNat hbyte
      rwa [toNat_ofNat_of_lt (by omega)] at hnat
    exact h (by rw [show '\n' = Char.ofNat 10 from rfl, hn, Char.ofNat_toNat]; exact hc)
  · exact absurd (le_of_mem_encodeChar (Nat.not_lt.mp hlow) hbyte) (by decide)

lemma exists_lines {messages : List JsValue} (h : ∀ msg ∈ messages, JsonShaped msg ∧
      (textEncode (write (wire msg))).length ≤ MAX_FRAME_BYTES) :
    ∃ texts : List (List Char), messages.flatMap encode = (texts.map LossyUtf8.encode).flatMap (· ++ [10]) ++ [] ∧
      (∀ text ∈ texts, '\n' ∉ text ∧ dropMark text = text ∧ ¬ Overlong text) ∧
      framesOf texts = messages.map wire ∧ malformedOf texts = [] := by
  induction messages with
  | nil => exact ⟨[], rfl, forall_mem_nil _, rfl, rfl⟩
  | cons msg messages ih =>
    rw [forall_mem_cons] at h
    obtain ⟨text, hline⟩ := exists_lineOf h.1.1
    obtain ⟨texts, hbytes, htexts, hframes, hmalformed⟩ := ih h.2
    refine ⟨text :: texts, ?_, forall_mem_cons.mpr ⟨⟨hline.oneLine, hline.unmarked, ?_⟩, htexts⟩, ?_, ?_⟩
    · rw [flatMap_cons, hbytes, hline.bytes, map_cons, flatMap_cons, append_nil, append_nil]
    · rw [Overlong, hline.length]
      exact Nat.not_lt.mpr h.1.2
    · rw [map_cons, ← hframes]
      simp [framesOf, hline.visible, hline.frame]
    · rw [← hmalformed]
      simp [malformedOf, hline.frame]

lemma lineTexts_encode {texts : List (List Char)} (h : ∀ text ∈ texts, dropMark text = text) :
    lineTexts (texts.map LossyUtf8.encode) = texts := by
  cases texts with
  | nil => rfl
  | cons text texts =>
    rw [map_cons, lineTexts, decode_encode, h text mem_cons_self, map_map]
    congr 1
    exact (map_congr_left fun text _ => decode_encode text).trans (map_id texts)

/-- Messages come back as they were sent, however their bytes are cut. Of any stream every line is taken by itself,
frame or report, as its own bytes decode, up to a line that is too long: that one ends the connection. -/
theorem frames_round_trip :
    (∀ (messages : List JsValue) chunks,
      (∀ msg ∈ messages, JsonShaped msg ∧ (textEncode (write (wire msg))).length ≤ MAX_FRAME_BYTES) →
      chunks.flatten = messages.flatMap encode → receive {} chunks = ⟨messages.map wire, [], false⟩) ∧
    (∀ chunks, Heard (linesFrom {} chunks.flatten) (receive {} chunks)) ∧
    ∀ lines rest, (∀ line ∈ lines, 10 ∉ line) → 10 ∉ rest →
      (linesFrom {} (lines.flatMap (· ++ [10]) ++ rest)).1 = lineTexts lines := by
  refine ⟨?_, receive_heard {} not_mem_nil, ?_⟩
  · intro messages chunks hmessages hchunks
    obtain ⟨texts, hbytes, htexts, hframes, hmalformed⟩ := exists_lines hmessages
    have hlines : ∀ line ∈ texts.map LossyUtf8.encode, 10 ∉ line :=
      forall_mem_map.mpr fun text htext => newline_notMem_encode (htexts text htext).1
    obtain ⟨tail, hfrom, htail⟩ := @linesFrom_lines _ [] hlines not_mem_nil
    have hheard := receive_heard {} not_mem_nil chunks
    rw [hchunks, hbytes, hfrom, lineTexts_encode fun text htext => (htexts text htext).2.1, htail rfl] at hheard
    rcases hheard with ⟨hopen, hframes', hmalformed'⟩ | ⟨-, -, -, line, hline, hlong⟩
    · rw [← hframes, ← hmalformed, ← hframes', ← hmalformed', ← hopen]
    · rcases mem_append.mp hline with hmem | hmem
      · exact absurd hlong (htexts line hmem).2.2
      · cases mem_singleton.mp hmem
        exact nomatch (hlong : MAX_FRAME_BYTES < 0)
  · intro lines rest hlines hrest
    obtain ⟨tail, hfrom, -⟩ := linesFrom_lines hlines hrest
    rw [hfrom]

theorem frames_round_trip_notice : receive {} [encode (.obj [])] = ⟨[.obj []], [], false⟩ :=
  frames_round_trip.1 [.obj []] [encode (.obj [])]
    (forall_mem_cons.mpr ⟨⟨⟨.nil, trivial⟩, by decide⟩, forall_mem_nil _⟩) rfl

end Framing
end OpenOmni
