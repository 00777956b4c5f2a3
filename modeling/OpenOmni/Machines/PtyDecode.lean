import OpenOmni.Lib.LossyUtf8

/-! The decoder of the control stream: octal escapes, one record, and the splitter that buffers
partial lines and tracks the reply framing. A text is the list of its characters. -/

namespace OpenOmni
namespace PtyControl
open List

inductive PtyControlEvent
  | replyBegin
  | replyBody (line : List Char)
  | replyEnd (ok : Bool)
  | output (paneId : List Char) (data : List UInt8)
  | exit
  | notice (line : List Char)
  | malformed (line : List Char) (reason : String) (paneId : Option (List Char))
  deriving DecidableEq

def backslash : UInt8 := 0x5c
def newline : UInt8 := 0x0a

def octal (byte : UInt8) : Bool := 0x30 ≤ byte && byte ≤ 0x37

/-- The escapes of a value's bytes undone; the sum is stored into one byte. -/
def unescape : List UInt8 → Option (List UInt8)
  | [] => some []
  | byte :: rest =>
    if byte ≠ backslash then (unescape rest).map (byte :: ·)
    else
      match rest with
      | a :: b :: c :: rest' =>
        if octal a && octal b && octal c then
          (unescape rest').map
            (UInt8.ofNat ((a.toNat - 0x30) * 64 + (b.toNat - 0x30) * 8 + (c.toNat - 0x30)) :: ·)
        else none
      | _ => none

def decodeOctalEscapes (value : List Char) : Option (List UInt8) := unescape (LossyUtf8.encode value)

def afterWord : List Char → List Char → Option (List Char)
  | [], line => some line
  | _ :: _, [] => none
  | c :: word, d :: line => if c = d then afterWord word line else none

/-- `\d+` before a character that is no digit, or at the end. -/
def afterNumber (line : List Char) : Option (List Char × List Char) :=
  match line.takeWhile Char.isDigit with
  | [] => none
  | digits => some (digits, line.dropWhile Char.isDigit)

/-- `\d+ \d+ \d+$` -/
def threeNumbers (line : List Char) : Bool :=
  let rest := do
    let (_, line) ← afterNumber line
    let line ← afterWord [' '] line
    let (_, line) ← afterNumber line
    let line ← afterWord [' '] line
    let (_, line) ← afterNumber line
    some line
  rest = some []

inductive ReplyEdge
  | begin
  | «end»
  | error
  deriving DecidableEq

def ReplyEdge.word : ReplyEdge → List Char
  | .begin => ['%', 'b', 'e', 'g', 'i', 'n', ' ']
  | .end => ['%', 'e', 'n', 'd', ' ']
  | .error => ['%', 'e', 'r', 'r', 'o', 'r', ' ']

/-- `/^%(begin|end|error) \d+ \d+ \d+$/` -/
def replyEdge (line : List Char) : Option ReplyEdge :=
  [ReplyEdge.begin, .end, .error].find? fun edge =>
    match afterWord edge.word line with
    | some rest => threeNumbers rest
    | none => false

/-- `/^%output (%\d+) (.*)$/s`: the pane's id and the value. -/
def outputRecord (line : List Char) : Option (List Char × List Char) := do
  let rest ← afterWord ['%', 'o', 'u', 't', 'p', 'u', 't', ' ', '%'] line
  let (digits, rest) ← afterNumber rest
  let value ← afterWord [' '] rest
  some ('%' :: digits, value)

def startsWith (line word : List Char) : Bool := (afterWord word line).isSome

def decodeRecord (line : List Char) (insideReply : Bool) : PtyControlEvent :=
  match replyEdge line with
  | some .begin => .replyBegin
  | some edge => .replyEnd (edge == .end)
  | none =>
    -- inside a reply every line that is no edge is the command's body
    if insideReply then .replyBody line
    else
      match outputRecord line with
      | some (paneId, value) =>
        match decodeOctalEscapes value with
        | none => .malformed line "invalid octal escape in %output" (some paneId)
        | some data => .output paneId data
      | none =>
        if line = ['%', 'e', 'x', 'i', 't'] ∨ startsWith line ['%', 'e', 'x', 'i', 't', ' '] then .exit
        else if startsWith line ['%', 'o', 'u', 't', 'p', 'u', 't'] then .malformed line "unparseable %output record" none
        else .notice line

def PTY_READ_MAX_BYTES : ℕ := 262144

def CONTROL_LINE_MAX_BYTES : ℕ := 16 * PTY_READ_MAX_BYTES

def oversized : PtyControlEvent :=
  .malformed [] s!"control line exceeds {CONTROL_LINE_MAX_BYTES} bytes" none

structure ControlDecoder where
  pending : List UInt8
  insideReply : Bool
  discarding : Bool

def createControlDecoder : ControlDecoder := ⟨[], false, false⟩

def insideAfter : PtyControlEvent → Bool → Bool
  | .replyBegin, _ => true
  | .replyEnd _, _ => false
  | _, insideReply => insideReply

namespace ControlDecoder

/-- The complete lines at the head of the buffer, cut at each newline, and what stays behind. -/
def frames : List UInt8 → List (List UInt8) × List UInt8
  | [] => ([], [])
  | byte :: rest =>
    if byte = newline then ([] :: (frames rest).1, (frames rest).2)
    else
      match (frames rest).1 with
      | [] => ([], byte :: (frames rest).2)
      | line :: lines => ((byte :: line) :: lines, (frames rest).2)

def takeLine (d : ControlDecoder) (raw : List UInt8) : ControlDecoder × List PtyControlEvent :=
  if d.discarding then ({ d with discarding := false }, [])
  else
    let event := decodeRecord (LossyUtf8.decode raw) d.insideReply
    ({ d with insideReply := insideAfter event d.insideReply }, [event])

def takeLines (d : ControlDecoder) : List (List UInt8) → ControlDecoder × List PtyControlEvent
  | [] => (d, [])
  | raw :: lines =>
    let (d, events) := d.takeLine raw
    let (d, more) := d.takeLines lines
    (d, events ++ more)

/-- The bound on a buffer without a newline: it is dropped, and reported once. -/
def overflowed (d : ControlDecoder) : ControlDecoder × List PtyControlEvent :=
  if CONTROL_LINE_MAX_BYTES < d.pending.length then
    if d.discarding then ({ d with pending := [] }, [])
    else ({ d with pending := [], discarding := true }, [oversized])
  else (d, [])

def feed (d : ControlDecoder) (chunk : List UInt8) : ControlDecoder × List PtyControlEvent :=
  let (lines, rest) := frames (d.pending ++ chunk)
  let (d, events) := { d with pending := rest }.takeLines lines
  let (d, more) := d.overflowed
  (d, events ++ more)

def feedAll (d : ControlDecoder) : List (List UInt8) → ControlDecoder × List PtyControlEvent
  | [] => (d, [])
  | chunk :: chunks =>
    let (d, events) := d.feed chunk
    let (d, more) := d.feedAll chunks
    (d, events ++ more)

variable {line rest raw a b : List UInt8} {lines : List (List UInt8)}

lemma frames_of_notMem (h : newline ∉ rest) : frames rest = ([], rest) := by
  induction rest with
  | nil => rfl
  | cons byte rest ih =>
    obtain ⟨hbyte, hrest⟩ := ne_and_not_mem_of_not_mem_cons h
    rw [frames, if_neg hbyte.symm, ih hrest]

lemma frames_line (h : newline ∉ line) (rest : List UInt8) :
    frames (line ++ newline :: rest) = (line :: (frames rest).1, (frames rest).2) := by
  induction line with
  | nil => rw [nil_append, frames, if_pos rfl]
  | cons byte line ih =>
    obtain ⟨hbyte, hline⟩ := ne_and_not_mem_of_not_mem_cons h
    rw [cons_append, frames, if_neg hbyte.symm, ih hline]

lemma frames_append (a b : List UInt8) :
    frames (a ++ b) = ((frames a).1 ++ (frames ((frames a).2 ++ b)).1, (frames ((frames a).2 ++ b)).2) := by
  induction a with
  | nil => rfl
  | cons byte a ih =>
    rw [cons_append, frames, frames, ih]
    by_cases hbyte : byte = newline
    · rw [if_pos hbyte, if_pos hbyte]
      rfl
    · rw [if_neg hbyte, if_neg hbyte]
      cases (frames a).1 with
      | nil =>
        change _ = ([] ++ (frames (byte :: ((frames a).2 ++ b))).1, (frames (byte :: ((frames a).2 ++ b))).2)
        rw [nil_append, nil_append, frames, if_neg hbyte]
      | cons line lines => rfl

lemma newline_notMem_rest (a : List UInt8) : newline ∉ (frames a).2 := by
  induction a with
  | nil => exact not_mem_nil
  | cons byte a ih =>
    rw [frames]
    by_cases hbyte : byte = newline
    · rw [if_pos hbyte]
      exact ih
    · rw [if_neg hbyte]
      cases (frames a).1 with
      | nil => exact not_mem_cons_of_ne_of_not_mem (Ne.symm hbyte) ih
      | cons line lines => exact ih

lemma exists_line_of_newline (ha : newline ∉ a) (hb : newline ∈ b) :
    ∃ line ∈ (frames (a ++ b)).1, a.length ≤ line.length := by
  obtain ⟨more, rest, rfl, hmore⟩ := eq_append_cons_of_mem hb
  have hline : newline ∉ a ++ more := by
    rw [mem_append]
    exact fun h => h.elim ha hmore
  refine ⟨a ++ more, ?_, by simp⟩
  rw [← append_assoc, frames_line hline]
  exact mem_cons_self

def readLines : Bool → List (List UInt8) → Bool × List PtyControlEvent
  | inside, [] => (inside, [])
  | inside, raw :: lines =>
    let event := decodeRecord (LossyUtf8.decode raw) inside
    ((readLines (insideAfter event inside) lines).1, event :: (readLines (insideAfter event inside) lines).2)

lemma readLines_append (inside : Bool) (l m : List (List UInt8)) :
    (readLines inside (l ++ m)).2 = (readLines inside l).2 ++ (readLines (readLines inside l).1 m).2 := by
  induction l generalizing inside with
  | nil => rfl
  | cons raw l ih =>
    rw [cons_append, readLines, readLines, cons_append]
    exact congrArg (_ :: ·) (ih _)

variable {d : ControlDecoder} {chunks : List (List UInt8)}

lemma takeLines_of_keeping (h : d.discarding = false) (lines : List (List UInt8)) : d.takeLines lines =
      ({ d with insideReply := (readLines d.insideReply lines).1 }, (readLines d.insideReply lines).2) := by
  induction lines generalizing d with
  | nil => rfl
  | cons raw lines ih =>
    have hline : d.takeLine raw =
        ({ d with insideReply := insideAfter (decodeRecord (LossyUtf8.decode raw) d.insideReply) d.insideReply },
          [decodeRecord (LossyUtf8.decode raw) d.insideReply]) := by
      rw [takeLine, h]
      rfl
    rw [takeLines, hline]
    simp only
    rw [ih (d := { d with
      insideReply := insideAfter (decodeRecord (LossyUtf8.decode raw) d.insideReply) d.insideReply }) h]
    rfl

/-- One chunk, read by a decoder that drops nothing: the lines it completes and the bound on
what stays behind. -/
lemma feed_of_keeping (h : d.discarding = false) (chunk : List UInt8) : d.feed chunk =
      let inside := readLines d.insideReply (frames (d.pending ++ chunk)).1
      let rest := (frames (d.pending ++ chunk)).2
      if CONTROL_LINE_MAX_BYTES < rest.length then
        (⟨[], inside.1, true⟩, inside.2 ++ [oversized])
      else (⟨rest, inside.1, false⟩, inside.2) := by
  unfold feed
  dsimp only
  rw [takeLines_of_keeping (d := { d with pending := (frames (d.pending ++ chunk)).2 }) h]
  dsimp only
  unfold overflowed
  dsimp only
  rw [h]
  by_cases hcap : CONTROL_LINE_MAX_BYTES < (frames (d.pending ++ chunk)).2.length
  · rw [if_pos hcap, if_pos hcap, if_neg (by simp)]
  · rw [if_neg hcap, if_neg hcap]
    dsimp only
    rw [append_nil]

lemma feedAll_of_discarding (h : d.discarding = true) (hp : newline ∉ d.pending) (hchunks : newline ∉ chunks.flatten) :
    (d.feedAll chunks).2 = [] := by
  induction chunks generalizing d with
  | nil => rfl
  | cons chunk chunks ih =>
    rw [flatten_cons, mem_append, not_or] at hchunks
    have hboth : newline ∉ d.pending ++ chunk := by
      rw [mem_append]
      exact fun hm => hm.elim hp hchunks.1
    have hfeed : d.feed chunk =
        if CONTROL_LINE_MAX_BYTES < (d.pending ++ chunk).length then (⟨[], d.insideReply, true⟩, [])
        else (⟨d.pending ++ chunk, d.insideReply, true⟩, []) := by
      unfold feed overflowed
      rw [frames_of_notMem hboth]
      simp only [takeLines, h, if_true]
      by_cases hcap : CONTROL_LINE_MAX_BYTES < (d.pending ++ chunk).length
      · rw [if_pos hcap]
        rfl
      · rw [if_neg hcap]
        rfl
    rw [feedAll, hfeed]
    by_cases hcap : CONTROL_LINE_MAX_BYTES < (d.pending ++ chunk).length
    · rw [if_pos hcap]
      exact ih (d := ⟨[], d.insideReply, true⟩) rfl not_mem_nil hchunks.2
    · rw [if_neg hcap]
      exact ih (d := ⟨d.pending ++ chunk, d.insideReply, true⟩) rfl hboth hchunks.2

lemma feedAll_single (w : List UInt8) :
    (createControlDecoder.feedAll [w]).2 =
      (readLines false (frames w).1).2 ++ if CONTROL_LINE_MAX_BYTES < (frames w).2.length then [oversized] else [] := by
  have hpending : createControlDecoder.pending ++ w = w := rfl
  have hinside : createControlDecoder.insideReply = false := rfl
  have hfeed := feed_of_keeping (d := createControlDecoder) rfl w
  rw [hpending, hinside] at hfeed
  rw [feedAll, hfeed]
  dsimp only [feedAll]
  split_ifs <;> simp

lemma feedAll_of_keeping (h : d.discarding = false)
    (hlines : ∀ line ∈ (frames (d.pending ++ chunks.flatten)).1, line.length ≤ CONTROL_LINE_MAX_BYTES)
    (hd : d.pending.length ≤ CONTROL_LINE_MAX_BYTES) (hp : newline ∉ d.pending) :
    (d.feedAll chunks).2 = (readLines d.insideReply (frames (d.pending ++ chunks.flatten)).1).2 ++
      if CONTROL_LINE_MAX_BYTES < (frames (d.pending ++ chunks.flatten)).2.length then [oversized] else [] := by
  induction chunks generalizing d with
  | nil =>
    rw [flatten_nil, append_nil, frames_of_notMem hp, if_neg (Nat.not_lt.mpr hd)]
    rfl
  | cons chunk chunks ih =>
    rw [flatten_cons, ← append_assoc, frames_append] at hlines ⊢
    have hrest := newline_notMem_rest (d.pending ++ chunk)
    rw [feedAll, feed_of_keeping h]
    dsimp only
    generalize hf : frames (d.pending ++ chunk) = f at hlines hrest ⊢
    obtain ⟨first, rest⟩ := f
    dsimp only at hlines hrest ⊢
    rw [readLines_append]
    by_cases hcap : CONTROL_LINE_MAX_BYTES < rest.length
    · -- the rest is over the bound already: no newline can follow
      have hno : newline ∉ chunks.flatten := by
        intro hmem
        obtain ⟨line, hline, hlen⟩ := exists_line_of_newline hrest hmem
        have hle := hlines line (mem_append_right _ hline)
        omega
      have hall : newline ∉ rest ++ chunks.flatten := by
        rw [mem_append]
        exact fun hm => hm.elim hrest hno
      rw [if_pos hcap]
      dsimp only
      rw [feedAll_of_discarding rfl not_mem_nil hno, frames_of_notMem hall,
        if_pos (by rw [length_append]; omega)]
      simp [readLines]
    · rw [if_neg hcap]
      dsimp only
      rw [ih (d := ⟨rest, _, false⟩) rfl (fun line hline => hlines line (mem_append_right _ hline))
        (Nat.not_lt.mp hcap) hrest, append_assoc]

end ControlDecoder

variable {b : UInt8}

lemma unescape_cons (h : b ≠ backslash) (rest : List UInt8) : unescape (b :: rest) = (unescape rest).map (b :: ·) := by
  rw [unescape.eq_def]
  simp [h]

lemma unescape_escape_cons {a c : UInt8} (ha : octal a) (hb : octal b) (hc : octal c) (rest : List UInt8) :
    unescape (backslash :: a :: b :: c :: rest) = (unescape rest).map
      (UInt8.ofNat ((a.toNat - 0x30) * 64 + (b.toNat - 0x30) * 8 + (c.toNat - 0x30)) :: ·) := by
  rw [unescape.eq_def]
  simp [ha, hb, hc]

lemma afterWord_append (word rest : List Char) : afterWord word (word ++ rest) = some rest := by
  induction word with
  | nil => rfl
  | cons c word ih =>
    rw [cons_append, afterWord, if_pos rfl]
    exact ih

lemma afterNumber_append {digits rest : List Char} (hne : digits ≠ []) (hd : ∀ c ∈ digits, c.isDigit)
    (hr : ∀ c ∈ rest.head?, c.isDigit = false) : afterNumber (digits ++ rest) = some (digits, rest) := by
  have hrest : rest.takeWhile Char.isDigit = [] ∧ rest.dropWhile Char.isDigit = rest := by
    cases rest with
    | nil => exact ⟨rfl, rfl⟩
    | cons c rest => simp [hr c rfl]
  have htake : (digits ++ rest).takeWhile Char.isDigit = digits := by
    rw [takeWhile_append_of_pos hd, hrest.1, append_nil]
  have hdrop : (digits ++ rest).dropWhile Char.isDigit = rest := by
    rw [dropWhile_append_of_pos hd, hrest.2]
  rw [afterNumber, htake, hdrop]
  cases digits with
  | nil => exact absurd rfl hne
  | cons c digits => rfl

end PtyControl
end OpenOmni
