import OpenOmni.Protocol.JsonText
import OpenOmni.Lib.Joined
import Mathlib.Data.List.TakeWhile

/-! Markdown split into chunks of a surface's length: a fence that a split lands in is closed at the
edge and opened again in the next chunk. Chunks keep the text itself at the split points, its fence state there and the
length, and leave no fence open. -/
namespace OpenOmni
namespace Chunks
open List

/-- White space and line terminators, as `trim` takes them off. -/
def isSpace (u : ℕ) : Bool :=
  u ∈ [9, 10, 11, 12, 13, 32, 0xa0, 0x1680, 0x2028, 0x2029, 0x202f, 0x205f, 0x3000, 0xfeff] ||
    0x2000 ≤ u && u ≤ 0x200a

def trim (text : JsString) : JsString := ((text.dropWhile isSpace).reverse.dropWhile isSpace).reverse

def backtick : ℕ := 96
def tilde : ℕ := 126

/-- The units that `.` does not match. -/
def isLineTerminator (u : ℕ) : Bool := u ∈ [10, 13, 0x2028, 0x2029]

def markerRun (marker : ℕ) (line : JsString) : JsString := line.takeWhile (· = marker)

/-- `FENCE_OPEN`: the marker of a line and what stands behind it. -/
def fenceOpen (line : JsString) : Option (JsString × JsString) :=
  let marker := if 3 ≤ (markerRun backtick line).length then markerRun backtick line else markerRun tilde line
  let rest := line.drop marker.length
  if 3 ≤ marker.length ∧ ¬ rest.any isLineTerminator then some (marker, rest) else none

structure Fence where
  marker : JsString
  info : JsString

/-- The fence after a line while the state was `fence`. -/
def fenceAfterLine (line : JsString) (fence : Option Fence) : Option Fence :=
  match fenceOpen line with
  | none => fence
  | some (marker, rest) =>
    let info := trim rest
    match fence with
    | none => some ⟨marker, info⟩
    | some fence =>
      if marker.head? = fence.marker.head? ∧ fence.marker.length ≤ marker.length ∧ info = [] then none
      else some fence

def MIN_CHUNK_LENGTH : ℕ := 64

/-- `lines.join("\n")` -/
def joinLines (lines : List JsString) : JsString := [10].intercalate lines

def splitLines (text : JsString) : List JsString := text.splitOn 10

structure Builder where
  chunks : List JsString
  lines : List JsString
  bodyLength : ℕ
  fence : Option Fence

namespace Builder

def empty : Builder := ⟨[], [], 0, none⟩

/-- The chunk's length if `line` were appended, with the separator and the closing fence. -/
def lengthWith (b : Builder) (line : JsString) : ℕ :=
  let separator := if b.lines = [] then 0 else 1
  let closer := (fenceAfterLine line b.fence).elim 0 fun next => next.marker.length + 1
  b.bodyLength + separator + line.length + closer

def append (b : Builder) (line : JsString) : Builder := { b with
  bodyLength := b.bodyLength + ((if b.lines = [] then 0 else 1) + line.length)
  lines := b.lines ++ [line]
  fence := fenceAfterLine line b.fence }

def reopening (fence : Fence) : JsString := fence.marker ++ fence.info

/-- The current chunk is closed, and an interrupted fence opened in the next. -/
def flush (b : Builder) : Builder :=
  if b.lines = [] then b
  else
    match b.fence with
    | none => ⟨b.chunks ++ [joinLines b.lines], [], 0, none⟩
    | some fence =>
      append ⟨b.chunks ++ [joinLines b.lines ++ 10 :: fence.marker], [], 0, none⟩ (reopening fence)

def spill (maxLength : ℕ) (b : Builder) (piece : JsString) : Builder :=
  if b.lines ≠ [] ∧ maxLength < b.lengthWith piece then b.flush else b

def slices (sliceLength : ℕ) : ℕ → JsString → List JsString
  | 0, _ => []
  | fuel + 1, line =>
    if line = [] then [] else line.take sliceLength :: slices sliceLength fuel (line.drop sliceLength)

def slicesOf (maxLength : ℕ) (line : JsString) : List JsString :=
  slices (maxLength - MIN_CHUNK_LENGTH / 2) line.length line

def pushSlice (maxLength : ℕ) (b : Builder) (slice : JsString) : Builder := (b.spill maxLength slice).append slice

def push (maxLength : ℕ) (b : Builder) (line : JsString) : Builder :=
  let b := b.spill maxLength line
  if b.lengthWith line ≤ maxLength then b.append line else (slicesOf maxLength line).foldl (pushSlice maxLength) b

def finish (b : Builder) : List JsString := b.flush.chunks

end Builder

structure ChunkLengthError where
  maxLength : ℕ
  deriving DecidableEq

def chunkMarkdown (text : JsString) (maxLength : ℕ) : Except ChunkLengthError (List JsString) :=
  if maxLength < MIN_CHUNK_LENGTH then .error ⟨maxLength⟩
  else if text.length ≤ maxLength then .ok [text]
  else .ok ((splitLines text).foldl (Builder.push maxLength) .empty).finish

structure Fence.Ok (f : Fence) : Prop where
  marker : ∃ u n, (u = backtick ∨ u = tilde) ∧ f.marker = List.replicate (n + 3) u
  info : trim f.info = f.info ∧ ∀ u ∈ f.info, isLineTerminator u = false

def Fence.Reopens (f : Fence) : Prop := f.info.head? ≠ f.marker.head?

lemma markerRun_eq_replicate (u : ℕ) (line : JsString) :
    markerRun u line = List.replicate (markerRun u line).length u := by
  rw [eq_replicate_iff]
  refine ⟨rfl, fun v hv => ?_⟩
  have hmem : v ∈ line.takeWhile (fun w => decide (w = u)) := hv
  simpa using mem_takeWhile_imp hmem

lemma trim_subset (text : JsString) : trim text ⊆ text := by
  intro u hu
  have hfront := (dropWhile_sublist isSpace).subset (mem_reverse.mp hu)
  exact (dropWhile_sublist isSpace).subset (mem_reverse.mp hfront)

lemma dropWhile_eq_self {p : ℕ → Bool} {text : JsString} (h : ∀ u ∈ text.head?, p u = false) :
    text.dropWhile p = text := by
  cases text with
  | nil => rfl
  | cons u text =>
    rw [dropWhile_cons_of_neg]
    simp [h u rfl]

lemma head_dropWhile (p : ℕ → Bool) (text : JsString) : ∀ u ∈ (text.dropWhile p).head?, p u = false := by
  intro u hu
  have hnot := head?_dropWhile_not p text
  rw [Option.mem_def.mp hu] at hnot
  simpa using hnot

lemma trim_trim (text : JsString) : trim (trim text) = trim text := by
  have hback : ∀ u ∈ (trim text).reverse.head?, isSpace u = false := by
    unfold trim
    rw [reverse_reverse]
    exact head_dropWhile isSpace _
  have hfront : ∀ u ∈ (trim text).head?, isSpace u = false := by
    intro u hu
    -- the back's spaces are taken off a text that has none in front
    unfold trim at hu
    rw [head?_reverse] at hu
    obtain ⟨taken, htaken⟩ := dropWhile_suffix isSpace (l := (text.dropWhile isSpace).reverse)
    have hlast : u ∈ (text.dropWhile isSpace).reverse.getLast? := by
      rw [← htaken, getLast?_append]
      rw [Option.mem_def.mp hu]
      rfl
    rw [getLast?_reverse] at hlast
    exact head_dropWhile isSpace text u hlast
  have hdrop := dropWhile_eq_self hfront
  have hdrop' := dropWhile_eq_self hback
  generalize trim text = t at hdrop hdrop' ⊢
  rw [trim, hdrop, hdrop', reverse_reverse]

variable {line rest : JsString} {f : Fence} {lines : List JsString}

lemma fenceOpen_spec {marker : JsString} (h : fenceOpen line = some (marker, rest)) :
    (∃ u n, (u = backtick ∨ u = tilde) ∧ marker = List.replicate (n + 3) u) ∧
      ∀ u ∈ rest, isLineTerminator u = false := by
  unfold fenceOpen at h
  dsimp only at h
  have hrun : ∃ u, (u = backtick ∨ u = tilde) ∧
      (if 3 ≤ (markerRun backtick line).length then markerRun backtick line else markerRun tilde line) =
        markerRun u line := by
    split_ifs
    · exact ⟨backtick, .inl rfl, rfl⟩
    · exact ⟨tilde, .inr rfl, rfl⟩
  obtain ⟨u, hu, hrun⟩ := hrun
  rw [hrun] at h
  split_ifs at h with hopen
  cases h
  refine ⟨⟨u, (markerRun u line).length - 3, hu, ?_⟩, ?_⟩
  · rw [Nat.sub_add_cancel hopen.1]
    exact markerRun_eq_replicate u line
  · intro v hv
    by_contra hterm
    exact hopen.2 (any_eq_true.mpr ⟨v, hv, Bool.not_eq_false _ ▸ hterm⟩)

lemma ok_fenceAfterLine {fence : Option Fence} (h : ∀ f ∈ fence, f.Ok) : ∀ f ∈ fenceAfterLine line fence, f.Ok := by
  intro f hf
  unfold fenceAfterLine at hf
  cases hopen : fenceOpen line with
  | none =>
    rw [hopen] at hf
    exact h f hf
  | some found =>
    obtain ⟨marker, rest⟩ := found
    rw [hopen] at hf
    obtain ⟨hmarker, hrest⟩ := fenceOpen_spec hopen
    cases fence with
    | none =>
      cases hf
      exact ⟨hmarker, trim_trim rest, fun u hu => hrest u (trim_subset rest hu)⟩
    | some open' =>
      dsimp only at hf
      split_ifs at hf
      · cases hf
      · exact h f hf

lemma markerRun_append {u : ℕ} {n : ℕ} (h : rest.head? ≠ some u) :
    markerRun u (List.replicate n u ++ rest) = List.replicate n u := by
  induction n with
  | zero =>
    cases rest with
    | nil => rfl
    | cons v rest =>
      have hv : ¬ decide (v = u) = true := by
        intro hv
        exact h (congrArg some (of_decide_eq_true hv))
      exact takeWhile_cons_of_neg hv
  | succ n ih =>
    change (u :: (List.replicate n u ++ rest)).takeWhile (fun w => decide (w = u)) = _
    rw [takeWhile_cons_of_pos (by simp)]
    exact congrArg (u :: ·) ih

lemma fenceOpen_marker (hf : f.Ok) (rest : JsString) (h : rest.head? ≠ f.marker.head?)
    (hrest : ∀ u ∈ rest, isLineTerminator u = false) : fenceOpen (f.marker ++ rest) = some (f.marker, rest) := by
  obtain ⟨u, n, hu, hmarker⟩ := hf.marker
  rw [hmarker] at h ⊢
  have hhead : rest.head? ≠ some u := h
  have hrun := markerRun_append (n := n + 3) hhead
  have hmark : (if 3 ≤ (markerRun backtick (List.replicate (n + 3) u ++ rest)).length then
      markerRun backtick (List.replicate (n + 3) u ++ rest) else markerRun tilde (List.replicate (n + 3) u ++ rest)) =
      List.replicate (n + 3) u := by
    rcases hu with rfl | rfl
    · rw [hrun, if_pos (by rw [length_replicate]; omega)]
    · have hnone : markerRun backtick (List.replicate (n + 3) tilde ++ rest) = [] := rfl
      rw [hnone, if_neg (by decide), hrun]
  unfold fenceOpen
  dsimp only
  rw [hmark, drop_left, if_pos]
  refine ⟨by rw [length_replicate]; omega, ?_⟩
  rw [any_eq_true]
  rintro ⟨v, hv, hterm⟩
  rw [hrest v hv] at hterm
  cases hterm

lemma fenceAfterLine_reopening (hf : f.Ok) (h : f.Reopens) : fenceAfterLine (Builder.reopening f) none = some f := by
  unfold fenceAfterLine Builder.reopening
  rw [fenceOpen_marker hf f.info h hf.info.2]
  change some (Fence.mk f.marker (trim f.info)) = some f
  rw [hf.info.1]

lemma fenceAfterLine_marker (hf : f.Ok) : fenceAfterLine f.marker (some f) = none := by
  have hopen := fenceOpen_marker hf [] (by
    obtain ⟨u, n, -, hmarker⟩ := hf.marker
    rw [hmarker]
    exact nofun) (fun _ hu => absurd hu not_mem_nil)
  rw [append_nil] at hopen
  unfold fenceAfterLine
  rw [hopen]
  exact if_pos ⟨rfl, le_rfl, rfl⟩

lemma newline_notMem_marker (hf : f.Ok) : 10 ∉ f.marker := by
  obtain ⟨u, n, hu, hmarker⟩ := hf.marker
  rw [hmarker]
  intro h
  rcases hu with rfl | rfl <;> exact absurd (eq_of_mem_replicate h) (by decide)

lemma newline_notMem_info (hf : f.Ok) : 10 ∉ f.info := by
  intro h
  exact absurd (hf.info.2 10 h) (by decide)

def fenceOf (lines : List JsString) : Option Fence := lines.foldl (fun fence line => fenceAfterLine line fence) none

def stateAt (before : JsString) (midline : Bool) : Option Fence :=
  fenceOf (if midline then (splitLines before).dropLast else splitLines before)

/-- What a chunk holds of the text, the fence that stood open where it begins, and whether that is
within a line. -/
structure Cut where
  fence : Option Fence
  body : JsString
  midline : Bool

def closing (fence : Option Fence) : JsString := fence.elim [] fun f => 10 :: f.marker

def Cut.head (c : Cut) : JsString := c.fence.elim c.body fun f => Builder.reopening f ++ 10 :: c.body

def Cut.chunk (c : Cut) : JsString := c.head ++ closing (fenceOf (splitLines c.head))

def Cut.glue (c : Cut) : JsString := if c.midline then [] else [10]

/-- A text is its cuts, and each begins with the text's own fence state. -/
inductive Placed : JsString → List Cut → Prop
  | first (body : JsString) : Placed body [⟨none, body, false⟩]
  | next {before : JsString} {cuts : List Cut} (c : Cut) : Placed before cuts → c.fence = stateAt before c.midline →
      (∀ f ∈ c.fence, fenceAfterLine (Builder.reopening f) none = some f) →
      Placed (before ++ (c.glue ++ c.body)) (cuts ++ [c])

/-- Chunks of a text: within the length, each with its fences closed, and the text between their
inserted fence lines. -/
structure Chunked (text : JsString) (maxLength : ℕ) (chunks : List JsString) : Prop where
  text : ∃ cuts, Placed text cuts ∧ chunks = cuts.map Cut.chunk
  length : ∀ chunk ∈ chunks, chunk.length ≤ maxLength
  closed : ∀ chunk ∈ chunks, fenceOf (splitLines chunk) = none

open Builder

/-- A line that is split goes well: it is no fence, nor is a slice of it; each slice fits beside
the open fence, and none behind the one before. -/
structure SlicesFit (maxLength : ℕ) (b : Builder) (line : JsString) : Prop where
  text : line ≠ []
  stays : fenceAfterLine line b.fence = b.fence
  slices : ∀ slice ∈ slicesOf maxLength line, fenceAfterLine slice b.fence = b.fence ∧ b.lengthWith slice ≤ maxLength
  apart : ∀ (i : ℕ) (s t : JsString), (slicesOf maxLength line)[i]? = some s → (slicesOf maxLength line)[i + 1]? = some t →
    maxLength < (b.append s).lengthWith t

/-- A step goes well: a chunk ends in no fence whose info goes on with the marker, and a line that
does not fit by itself is split well. -/
structure PushFits (maxLength : ℕ) (b : Builder) (line : JsString) : Prop where
  reopens : b.lines ≠ [] → maxLength < b.lengthWith line → ∀ f ∈ b.fence, f.Reopens
  slices : maxLength < (b.spill maxLength line).lengthWith line → SlicesFit maxLength (b.spill maxLength line) line

def RunFits (maxLength : ℕ) : Builder → List JsString → Prop
  | _, [] => True
  | b, line :: rest => PushFits maxLength b line ∧ RunFits maxLength (b.push maxLength line) rest

lemma fenceOf_append (lines : List JsString) (line : JsString) :
    fenceOf (lines ++ [line]) = fenceAfterLine line (fenceOf lines) := by
  rw [fenceOf, foldl_append]
  rfl

lemma ok_fenceOf (lines : List JsString) : ∀ f ∈ fenceOf lines, f.Ok := by
  induction lines using List.reverseRecOn with
  | nil => exact nofun
  | append_singleton lines line ih =>
    rw [fenceOf_append]
    exact ok_fenceAfterLine ih

lemma splitLines_joinLines (h : ∀ line ∈ lines, 10 ∉ line) (hne : lines ≠ []) :
    splitLines (joinLines lines) = lines := splitOn_intercalate 10 h hne

lemma joinLines_append (h : lines ≠ []) (line : JsString) :
    joinLines (lines ++ [line]) = joinLines lines ++ 10 :: line := by
  induction lines with
  | nil => exact absurd rfl h
  | cons first rest ih =>
    cases rest with
    | nil =>
      change [10].intercalate [first, line] = [10].intercalate [first] ++ 10 :: line
      rw [intercalate_cons_cons, intercalate_singleton, intercalate_singleton]
      simp
    | cons next rest =>
      change [10].intercalate (first :: next :: (rest ++ [line])) = [10].intercalate (first :: next :: rest) ++ 10 :: line
      rw [intercalate_cons_cons, intercalate_cons_cons]
      have htail := ih (cons_ne_nil next rest)
      change [10].intercalate (next :: (rest ++ [line])) = [10].intercalate (next :: rest) ++ 10 :: line at htail
      rw [htail]
      simp [append_assoc]

end Chunks
end OpenOmni
