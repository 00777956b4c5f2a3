import OpenOmni.Lib.LossyUtf8

/-! The output of a cell: what its driver retains, and what the host shows of the frames it was sent. -/
namespace OpenOmni
namespace CellOutput
open LossyUtf8 List

/-- The limit of the host, which the driver reads from its environment. -/
def cellOutputMaxBytes : ℕ := 65536

inductive Stream where
  | stdout | stderr
  deriving DecidableEq

def marker (originalBytes : ℕ) : List Char := s!"\n[truncated: {originalBytes} bytes]\n".toList

/-- A cell's output, with the original byte counts of the streams that were truncated. -/
structure Final where
  text : Stream → List Char
  truncated : Stream → Option ℕ

structure OutputFrame where
  cellId : String
  stream : Stream
  text : List Char
  originalBytes : ℕ

section Model
variable (limit : ℕ) (cellId : String)

structure Output where
  buffer : List Char := []
  originalBytes : ℕ := 0
  retainedBytes : ℕ := 0
  cut : Bool := false

/-- `write`, with the text and the count of the frame it emits. -/
def Output.write (o : Output) (text : List Char) : Output × Option (List Char × ℕ) :=
  if text = [] then (o, none)
  else
    let encoded := encode text
    let kept := if o.cut then [] else decodeIgnoring (encoded.take (limit - o.retainedBytes))
    let keptBytes := (encode kept).length
    ({ buffer := o.buffer ++ kept
       originalBytes := o.originalBytes + encoded.length
       retainedBytes := o.retainedBytes + keptBytes
       cut := o.cut || decide (keptBytes < encoded.length) },
      if kept ≠ [] ∨ ¬ o.cut then some (kept, encoded.length) else none)

def Output.getvalue (o : Output) : List Char := o.buffer ++ if o.cut then marker o.originalBytes else []

def Output.metadata (o : Output) : Option ℕ := if o.cut then some o.originalBytes else none

/-- `_cell_output`. -/
def cellOutput (driver : Stream → Output) : Final := ⟨fun s => (driver s).getvalue, fun s => (driver s).metadata⟩

structure PendingCell where
  cellId : String
  originalBytes : Stream → ℕ := fun _ => 0
  prefixText : Stream → List Char := fun _ => []
  output : Final := ⟨fun _ => [], fun _ => none⟩

/-- The loop that looks for the end of the last whole character. -/
def wholeEnd (bytes : List UInt8) : ℕ → ℕ
  | 0 => 0
  | last + 1 => if encode (decode (bytes.take (last + 1))) = bytes.take (last + 1) then last + 1 else wholeEnd bytes last

/-- The end of `captureOutput`: the stream as it is shown with these counts. -/
def PendingCell.shown (pending : PendingCell) (stream : Stream) (originalBytes : ℕ) (prefixText : List Char) : PendingCell :=
  let cut := (encode prefixText).length < originalBytes
  { pending with
    originalBytes := Function.update pending.originalBytes stream originalBytes
    prefixText := Function.update pending.prefixText stream prefixText
    output :=
      ⟨Function.update pending.output.text stream (prefixText ++ if cut then marker originalBytes else []),
        if cut then Function.update pending.output.truncated stream (some originalBytes) else pending.output.truncated⟩ }

def captureOutput (pending : PendingCell) (frame : OutputFrame) : PendingCell :=
  if frame.cellId ≠ pending.cellId then pending
  else
    let remaining := limit - (encode (pending.prefixText frame.stream)).length
    let bytes := (encode frame.text).take remaining
    pending.shown frame.stream (pending.originalBytes frame.stream + frame.originalBytes)
      (pending.prefixText frame.stream ++ if 0 < remaining then decode (bytes.take (wholeEnd bytes bytes.length)) else [])

structure Cell where
  driver : Stream → Output := fun _ => {}
  pending : PendingCell

def Cell.write (c : Cell) (w : Stream × List Char) : Cell :=
  let (o, frame) := (c.driver w.1).write limit w.2
  { driver := Function.update c.driver w.1 o
    pending := match frame with
      | none => c.pending
      | some (text, originalBytes) => captureOutput limit c.pending ⟨cellId, w.1, text, originalBytes⟩ }

def Cell.run (writes : List (Stream × List Char)) : Cell :=
  writes.foldl (Cell.write limit cellId) { pending := { cellId } }

def written (writes : List (Stream × List Char)) (stream : Stream) : List Char :=
  writes.flatMap fun w => if w.1 = stream then w.2 else []

/-- The longest part of a text that is made of whole characters and within the limit. -/
structure Longest (text part : List Char) : Prop where
  isPrefix : part <+: text
  within : (encode part).length ≤ limit
  longest : ∀ other, other <+: text → (encode other).length ≤ limit → other <+: part

/-- The host shows what the driver has, and both retain the longest text that the limit allows. -/
structure Agrees (writes : List (Stream × List Char)) : Prop where
  output : (Cell.run limit cellId writes).pending.output = cellOutput (Cell.run limit cellId writes).driver
  retained : ∀ stream, ((Cell.run limit cellId writes).driver stream).buffer = (Cell.run limit cellId writes).pending.prefixText stream
  longest : ∀ stream, Longest limit (written writes stream) ((Cell.run limit cellId writes).driver stream).buffer

/-- Nothing is written to the stream behind the write that exceeds the limit. -/
def Unexceeded (stream : Stream) (writes : List (Stream × List Char)) : Prop :=
  ∀ before text after, writes = before ++ (stream, text) :: after → text ≠ [] →
    (encode (written before stream)).length ≤ limit

end Model

section Stream
variable {limit late : ℕ} {cellId : String} {stream : Stream} {text total : List Char} {o : Output} {pending : PendingCell}

lemma length_le_length_encode (text : List Char) : text.length ≤ (encode text).length := by
  induction text with
  | nil => exact le_rfl
  | cons c text ih =>
    have hpos := c.utf8Size_pos
    rw [encode_cons, length_append, String.length_utf8EncodeChar, length_cons]
    omega

lemma wholeEnd_encode (text : List Char) : wholeEnd (encode text) (encode text).length = (encode text).length := by
  cases h : (encode text).length with
  | zero => rfl
  | succ last => rw [wholeEnd, take_of_length_le (by omega), if_pos ((encode_decode_iff _).mpr ⟨text, rfl⟩)]

/-- What the two sides hold of a stream to which `total` was written, `late` bytes of it behind the cut. -/
structure Held (limit : ℕ) (total : List Char) (late : ℕ) (o : Output) (pending : PendingCell) (stream : Stream) : Prop where
  buffer : o.buffer = fitting limit total
  original : o.originalBytes = (encode total).length
  retained : o.retainedBytes = (encode o.buffer).length
  cut : o.cut = decide (limit < (encode total).length)
  prefixText : pending.prefixText stream = o.buffer
  counted : pending.originalBytes stream + late = o.originalBytes
  whole : (encode total).length ≤ limit → late = 0
  text : pending.output.text stream = o.buffer ++ if o.cut then marker (pending.originalBytes stream) else []
  truncated : pending.output.truncated stream = if o.cut then some (pending.originalBytes stream) else none

lemma captureOutput_own (stream : Stream) (text : List Char) (n : ℕ) :
    ∃ count kept, captureOutput limit pending ⟨pending.cellId, stream, text, n⟩ = pending.shown stream count kept :=
  ⟨_, _, if_neg (not_not.mpr rfl)⟩

lemma captureOutput_fitting (h : (encode text).length ≤ limit - (encode (pending.prefixText stream)).length) (n : ℕ) :
    captureOutput limit pending ⟨pending.cellId, stream, text, n⟩ =
      pending.shown stream (pending.originalBytes stream + n) (pending.prefixText stream ++ text) := by
  simp only [captureOutput, ne_eq, not_true_eq_false, if_false, take_of_length_le h, wholeEnd_encode, take_length,
    decode_encode]
  split_ifs with hpos
  · rfl
  · rw [eq_nil_of_length_eq_zero (Nat.le_zero.mp ((length_le_length_encode text).trans (h.trans (not_lt.mp hpos))))]

lemma length_encode_append (s t : List Char) : (encode (s ++ t)).length = (encode s).length + (encode t).length := by
  rw [encode_append, length_append]

lemma encode_fitting_lt_iff (n : ℕ) (text : List Char) :
    (encode (fitting n text)).length < (encode text).length ↔ n < (encode text).length := by
  constructor
  · intro h
    by_contra hle
    rw [fitting_of_le (not_lt.mp hle)] at h
    exact lt_irrefl _ h
  · exact fun h => lt_of_le_of_lt (length_fitting_le n text) h

lemma Held.write_whole (h : Held limit total late o pending stream) (htext : text ≠ [])
    (hle : (encode total).length ≤ limit) :
    ∃ kept o', o.write limit text = (o', some (kept, (encode text).length)) ∧
      Held limit (total ++ text) 0 o' (captureOutput limit pending ⟨pending.cellId, stream, kept, (encode text).length⟩) stream := by
  obtain rfl := h.whole hle
  have hcut : o.cut = false := by rw [h.cut, decide_eq_false (not_lt.mpr hle)]
  have hbuffer : o.buffer = total := h.buffer.trans (fitting_of_le hle)
  have hretained : o.retainedBytes = (encode total).length := by rw [h.retained, hbuffer]
  have hkept := length_fitting_le (limit - (encode total).length) text
  have hlt := encode_fitting_lt_iff (limit - (encode total).length) text
  have hcount : pending.originalBytes stream = (encode total).length := by rw [← h.original, ← h.counted, Nat.add_zero]
  have hwrite : o.write limit text = (⟨total ++ fitting (limit - (encode total).length) text,
      (encode total).length + (encode text).length,
      (encode total).length + (encode (fitting (limit - (encode total).length) text)).length,
      decide (limit - (encode total).length < (encode text).length)⟩,
      some (fitting (limit - (encode total).length) text, (encode text).length)) := by
    simp [Output.write, htext, hcut, hbuffer, hretained, h.original, decodeIgnoring_take, hlt]
  refine ⟨_, _, hwrite, ?_⟩
  rw [captureOutput_fitting (by rwa [h.prefixText, hbuffer]), h.prefixText, hbuffer, hcount]
  constructor
  · exact (fitting_append_of_le hle text).symm
  · exact (length_encode_append total text).symm
  · exact (length_encode_append total _).symm
  · rw [length_encode_append]
    exact decide_eq_decide.mpr (by omega)
  · simp [PendingCell.shown]
  · simp [PendingCell.shown]
  · exact fun _ => rfl
  · simp [PendingCell.shown, hlt]
  · have htruncated := h.truncated
    rw [hcut] at htruncated
    simp only [PendingCell.shown, length_encode_append, Nat.add_lt_add_iff_left, hlt, decide_eq_true_eq]
    split_ifs
    · simp
    · simpa using htruncated

lemma Held.write_cut (h : Held limit total late o pending stream) (htext : text ≠ [])
    (hlt : limit < (encode total).length) :
    ∃ o', o.write limit text = (o', none) ∧
      Held limit (total ++ text) (late + (encode text).length) o' pending stream := by
  have hcut : o.cut = true := by rw [h.cut, decide_eq_true hlt]
  have hover : limit < (encode (total ++ text)).length := by
    rw [length_encode_append]
    omega
  refine ⟨{ o with originalBytes := o.originalBytes + (encode text).length }, ?_, ?_⟩
  · simp [Output.write, htext, hcut]
  · constructor
    · exact h.buffer.trans (fitting_append_of_lt hlt text).symm
    · exact (congrArg (· + _) h.original).trans (length_encode_append total text).symm
    · exact h.retained
    · rw [hcut, decide_eq_true hover]
    · exact h.prefixText
    · exact (Nat.add_assoc _ _ _).symm.trans (congrArg (· + _) h.counted)
    · exact fun hle => absurd hle (not_le.mpr hover)
    · exact h.text
    · exact h.truncated

lemma Held.shown_other {other : Stream} (h : Held limit total late o pending stream) (hother : stream ≠ other)
    (n : ℕ) (prefixText : List Char) : Held limit total late o (pending.shown other n prefixText) stream := by
  constructor
  · exact h.buffer
  · exact h.original
  · exact h.retained
  · exact h.cut
  · simpa [PendingCell.shown, hother] using h.prefixText
  · simpa [PendingCell.shown, hother] using h.counted
  · exact h.whole
  · simpa [PendingCell.shown, hother] using h.text
  · have hkeep : (pending.shown other n prefixText).output.truncated stream = pending.output.truncated stream := by
      unfold PendingCell.shown
      dsimp only
      split_ifs <;> simp [hother]
    rw [hkeep, h.truncated]
    simp [PendingCell.shown, hother]

lemma written_concat (writes : List (Stream × List Char)) (w : Stream × List Char) :
    written (writes ++ [w]) stream = written writes stream ++ if w.1 = stream then w.2 else [] := by
  simp [written]

lemma unexceeded_concat (writes : List (Stream × List Char)) (w : Stream × List Char) :
    Unexceeded limit stream (writes ++ [w]) ↔
      Unexceeded limit stream writes ∧ (w.1 = stream → w.2 ≠ [] → (encode (written writes stream)).length ≤ limit) := by
  constructor
  · intro h
    refine ⟨fun before text after heq => h before text (after ++ [w]) (by rw [heq, append_assoc, cons_append]), ?_⟩
    rintro rfl htext
    exact h writes w.2 [] rfl htext
  · rintro ⟨hearlier, hlast⟩ before text after heq htext
    obtain rfl | ⟨after, last, rfl⟩ := eq_nil_or_concat after
    · obtain ⟨rfl, hw⟩ := append_inj' heq rfl
      cases hw
      exact hlast rfl htext
    · rw [concat_eq_append, ← cons_append, ← append_assoc] at heq
      exact hearlier before text after (append_inj' heq rfl).1 htext

lemma Held.write_other {c : Cell} {w : Stream × List Char} (h : Held limit total late (c.driver stream) c.pending stream)
    (hcell : c.pending.cellId = cellId) (hw : w.1 = stream → w.2 = []) :
    Held limit total late ((c.write limit cellId w).driver stream) (c.write limit cellId w).pending stream := by
  obtain ⟨other, text⟩ := w
  by_cases hother : stream = other
  · cases hother
    obtain rfl : text = [] := hw rfl
    simpa [Cell.write, Output.write] using h
  · subst hcell
    unfold Cell.write
    dsimp only
    rw [Function.update_of_ne hother]
    cases ((c.driver other).write limit text).2 with
    | none => exact h
    | some frame =>
      obtain ⟨count, kept, heq⟩ := @captureOutput_own limit c.pending other frame.1 frame.2
      change Held _ _ _ _ (captureOutput limit c.pending ⟨c.pending.cellId, other, frame.1, frame.2⟩) _
      rw [heq]
      exact h.shown_other hother count kept

lemma cellId_write (c : Cell) (w : Stream × List Char) : (c.write limit cellId w).pending.cellId = c.pending.cellId := by
  unfold Cell.write captureOutput
  dsimp only
  split
  · rfl
  · split_ifs <;> rfl

lemma run_concat (writes : List (Stream × List Char)) (w : Stream × List Char) :
    Cell.run limit cellId (writes ++ [w]) = (Cell.run limit cellId writes).write limit cellId w := by
  simp [Cell.run]

lemma cellId_run (writes : List (Stream × List Char)) : (Cell.run limit cellId writes).pending.cellId = cellId := by
  induction writes using List.reverseRecOn with
  | nil => rfl
  | append_singleton writes w ih => rw [run_concat, cellId_write, ih]

lemma run_held (limit : ℕ) (cellId : String) (writes : List (Stream × List Char)) (stream : Stream) :
    ∃ late, Held limit (written writes stream) late ((Cell.run limit cellId writes).driver stream)
      (Cell.run limit cellId writes).pending stream ∧ (late = 0 ↔ Unexceeded limit stream writes) := by
  induction writes using List.reverseRecOn with
  | nil =>
    refine ⟨0, ?_, by simp [Unexceeded]⟩
    constructor <;> simp [Cell.run, written, fitting]
  | append_singleton writes w ih =>
    obtain ⟨late, hheld, hlate⟩ := ih
    have hcell : (Cell.run limit cellId writes).pending.cellId = cellId := cellId_run writes
    rw [run_concat, written_concat, unexceeded_concat]
    by_cases hw : w.1 = stream → w.2 = []
    · have hnothing : (if w.1 = stream then w.2 else []) = [] := by
        split_ifs with hstream
        · exact hw hstream
        · rfl
      rw [hnothing, append_nil]
      exact ⟨late, hheld.write_other hcell hw, hlate.trans (and_iff_left fun hstream hne => absurd (hw hstream) hne).symm⟩
    · obtain ⟨stream', text⟩ := w
      obtain ⟨rfl, htext⟩ := Classical.not_imp.mp hw
      rw [if_pos rfl]
      by_cases hle : (encode (written writes stream')).length ≤ limit
      · obtain ⟨kept, o', hwrite, hheld'⟩ := hheld.write_whole htext hle
        refine ⟨0, ?_, by simp [← hlate, hheld.whole hle, hle]⟩
        unfold Cell.write
        simpa [hwrite, hcell] using hheld'
      · obtain ⟨o', hwrite, hheld'⟩ := hheld.write_cut htext (not_le.mp hle)
        refine ⟨_, by simpa [Cell.write, hwrite] using hheld', ?_⟩
        have hlen := length_le_length_encode text
        have hpos : 0 < text.length := length_pos_of_ne_nil htext
        exact iff_of_false (by omega) fun h => hle (h.2 rfl htext)

lemma Held.longest (h : Held limit total late o pending stream) : Longest limit total o.buffer := by
  rw [h.buffer]
  exact ⟨fitting_isPrefix limit total, length_fitting_le limit total, fun _ => prefix_fitting⟩

lemma Held.agrees_iff (h : Held limit total late o pending stream) :
    (pending.output.text stream = o.getvalue ∧ pending.output.truncated stream = o.metadata) ↔ late = 0 := by
  have hcounted := h.counted
  constructor
  · rintro ⟨-, htruncated⟩
    rw [h.truncated, Output.metadata, h.cut] at htruncated
    by_cases hle : (encode total).length ≤ limit
    · exact h.whole hle
    · rw [decide_eq_true (not_le.mp hle)] at htruncated
      have := Option.some.inj htruncated
      omega
  · rintro rfl
    rw [h.text, h.truncated, Output.getvalue, Output.metadata, ← hcounted]
    exact ⟨rfl, rfl⟩

lemma output_eq_iff (writes : List (Stream × List Char)) :
    (Cell.run limit cellId writes).pending.output = cellOutput (Cell.run limit cellId writes).driver ↔
      ∀ stream, Unexceeded limit stream writes := by
  have hiff : ∀ stream, _ := fun stream =>
    (run_held limit cellId writes stream).choose_spec.1.agrees_iff.trans (run_held limit cellId writes stream).choose_spec.2
  constructor
  · intro heq stream
    rw [← hiff, heq]
    exact ⟨rfl, rfl⟩
  · intro h
    exact congrArg₂ Final.mk (funext fun stream => ((hiff stream).mpr (h stream)).1) (funext fun stream => ((hiff stream).mpr (h stream)).2)

end Stream

/-- The host shows what the driver has exactly when nothing is written to a stream behind the write that exceeds the limit. -/
theorem live_output_agrees_iff (limit : ℕ) (cellId : String) (writes : List (Stream × List Char)) :
    Agrees limit cellId writes ↔ ∀ stream, Unexceeded limit stream writes := by
  rw [← @output_eq_iff limit cellId]
  constructor
  · exact Agrees.output
  · intro h
    refine ⟨h, fun stream => ?_, fun stream => ?_⟩
    · obtain ⟨late, hheld, -⟩ := run_held limit cellId writes stream
      exact hheld.prefixText.symm
    · obtain ⟨late, hheld, -⟩ := run_held limit cellId writes stream
      exact hheld.longest

/-- The count that the host shows stays at the write that exceeded the limit. -/
theorem live_output_stale : ¬ Agrees cellOutputMaxBytes "cell"
    [(.stdout, List.replicate 65537 'a'), (.stdout, ['b'])] := by
  intro h
  have hle := output_eq_iff _ |>.mp h.output .stdout [(.stdout, List.replicate 65537 'a')] ['b'] [] rfl (by decide)
  have hlen := length_le_length_encode (written [(Stream.stdout, List.replicate 65537 'a')] .stdout)
  have hwritten : (written [(Stream.stdout, List.replicate 65537 'a')] .stdout).length = 65537 := by
    rw [written, flatMap_singleton, if_pos rfl, length_replicate]
  have hlimit : cellOutputMaxBytes = 65536 := rfl
  omega

end CellOutput
end OpenOmni
