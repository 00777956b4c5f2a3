import Mathlib

/-! The output a daemon keeps of a terminal, and what a cursor reads of it. -/
namespace OpenOmni
open List

namespace Pty

abbrev Bytes := List UInt8

/-- `PTY_READ_MAX_BYTES`. -/
def readMaxBytes : ℕ := 262144

/-- `PTY_LIVE_RETAIN_MAX_BYTES`. -/
def liveRetainMaxBytes : ℕ := 4 * readMaxBytes

/-- `PtySessionRecord`, as far as its output goes. -/
structure PtyRecord where
  windowId : Option String := none
  paneId : Option String := none
  attached : Bool := false
  closed : Bool := false
  replay : Bytes := []
  liveChunks : List Bytes := []
  liveLength : ℕ := 0
  liveDropped : ℕ := 0

/-- The tokens that reads mint, and that they take: none, one of this daemon, or one of an earlier. -/
inductive Cursor where
  | absent
  | minted (offset : ℕ)
  | foreign
deriving DecidableEq

/-- `PtyStreamRead`. -/
structure View where
  data : Bytes
  cursor : Cursor
  truncated : Bool
deriving DecidableEq

namespace PtyRecord
variable (record : PtyRecord)

def read (cursor : Cursor) : View :=
  let replayLength := record.replay.length
  let «end» := replayLength + record.liveDropped + record.liveLength
  let requested := match cursor with
    | .absent => 0
    | .minted offset => offset
    | .foreign => replayLength
  let position := min requested «end»
  let dropEdge := replayLength + record.liveDropped
  let gap : Bool := 0 < record.liveDropped && position < dropEdge
  let start := if replayLength ≤ position ∧ position < dropEdge then dropEdge else position
  let replayPart := if start < replayLength then record.replay.drop start else []
  let livePart := if record.liveLength = 0 then [] else record.liveChunks.flatten.drop (start - dropEdge)
  let full := replayPart ++ livePart
  let capped : Bool := readMaxBytes < full.length
  ⟨if capped then full.drop (full.length - readMaxBytes) else full, .minted «end», capped || gap⟩

/-- The loop of `append`, which drops the oldest chunks while too much is kept. -/
def trim : List Bytes → ℕ → ℕ → List Bytes × ℕ × ℕ
  | [], length, dropped => ([], length, dropped)
  | oldest :: chunks, length, dropped =>
    if liveRetainMaxBytes < length then trim chunks (length - oldest.length) (dropped + oldest.length)
    else (oldest :: chunks, length, dropped)

def append (data : Bytes) : PtyRecord :=
  if data = [] then record
  else
    let (chunks, length, dropped) :=
      trim (record.liveChunks ++ [data]) (record.liveLength + data.length) record.liveDropped
    { record with liveChunks := chunks, liveLength := length, liveDropped := dropped }

@[simp] theorem append_attached (data : Bytes) : (record.append data).attached = record.attached := by
  unfold append
  split <;> rfl

@[simp] theorem append_closed (data : Bytes) : (record.append data).closed = record.closed := by
  unfold append
  split <;> rfl

@[simp] theorem append_paneId (data : Bytes) : (record.append data).paneId = record.paneId := by
  unfold append
  split <;> rfl

/-- The record holds the stream: its replay, bytes that were dropped, and the live ones. -/
structure Holds (stream : Bytes) : Prop where
  length : record.liveLength = record.liveChunks.flatten.length
  bytes : ∃ dropped : Bytes, dropped.length = record.liveDropped ∧
    stream = record.replay ++ dropped ++ record.liveChunks.flatten

/-- A read as it should be, of a stream from a place on: all of it, or truncated and then some of it in order. -/
structure Reads (stream : Bytes) (place : ℕ) (view : View) : Prop where
  cursor : view.cursor = .minted stream.length
  whole : view.truncated = false → view.data = stream.drop place
  some : view.data.Sublist (stream.drop place)

theorem trim_spec (chunks : List Bytes) (dropped : ℕ) : ∃ gone : Bytes,
    gone ++ (trim chunks chunks.flatten.length dropped).1.flatten = chunks.flatten ∧
    (trim chunks chunks.flatten.length dropped).2.1 = (trim chunks chunks.flatten.length dropped).1.flatten.length ∧
    (trim chunks chunks.flatten.length dropped).2.2 = dropped + gone.length ∧
    (trim chunks chunks.flatten.length dropped).2.1 ≤ liveRetainMaxBytes := by
  induction chunks generalizing dropped with
  | nil => exact ⟨[], rfl, rfl, rfl, Nat.zero_le _⟩
  | cons oldest chunks ih =>
    unfold trim
    by_cases hover : liveRetainMaxBytes < (oldest :: chunks).flatten.length
    · rw [if_pos hover]
      have hlength : (oldest :: chunks).flatten.length - oldest.length = chunks.flatten.length := by
        rw [flatten_cons, length_append]
        omega
      rw [hlength]
      obtain ⟨gone, hgone, hkept, hdropped, hbound⟩ := ih (dropped + oldest.length)
      refine ⟨oldest ++ gone, ?_, hkept, ?_, hbound⟩
      · rw [append_assoc, hgone, flatten_cons]
      · rw [hdropped, length_append]
        omega
    · rw [if_neg hover]
      exact ⟨[], rfl, rfl, rfl, Nat.le_of_not_lt hover⟩

variable {record} {stream : Bytes}

theorem Holds.append (h : record.Holds stream) (data : Bytes) :
    (record.append data).Holds (stream ++ data) ∧
      (record.liveLength ≤ liveRetainMaxBytes → (record.append data).liveLength ≤ liveRetainMaxBytes) := by
  obtain ⟨hlength, dropped, hdropped, hstream⟩ := h
  unfold PtyRecord.append
  by_cases hdata : data = []
  · rw [if_pos hdata, hdata, append_nil]
    exact ⟨⟨hlength, dropped, hdropped, hstream⟩, id⟩
  · rw [if_neg hdata]
    have htotal : record.liveLength + data.length = (record.liveChunks ++ [data]).flatten.length := by
      rw [hlength]
      simp
    rw [htotal]
    obtain ⟨gone, hgone, hkept, hcount, hbound⟩ := trim_spec (record.liveChunks ++ [data]) record.liveDropped
    refine ⟨⟨hkept, dropped ++ gone, ?_, ?_⟩, fun _ => hbound⟩
    · rw [length_append, hdropped]
      exact hcount.symm
    · rw [append_assoc, append_assoc, hgone, hstream]
      simp

variable (record) in

def full (place : ℕ) : Bytes :=
  let dropEdge := record.replay.length + record.liveDropped
  let start := if record.replay.length ≤ place ∧ place < dropEdge then dropEdge else place
  (if start < record.replay.length then record.replay.drop start else []) ++
    record.liveChunks.flatten.drop (start - dropEdge)

theorem Holds.full (h : record.Holds stream) (place : ℕ) : (record.full place).Sublist (stream.drop place) ∧
    (¬(0 < record.liveDropped ∧ place < record.replay.length + record.liveDropped) →
      record.full place = stream.drop place) := by
  obtain ⟨-, dropped, hdropped, rfl⟩ := h
  unfold PtyRecord.full
  dsimp only
  rw [← hdropped]
  let edge := record.replay.length + dropped.length
  by_cases hreplay : place < record.replay.length
  · -- in the replay
    have hdrop : (record.replay ++ dropped ++ record.liveChunks.flatten).drop place =
        record.replay.drop place ++ (dropped ++ record.liveChunks.flatten) := by
      rw [append_assoc, drop_append_of_le_length hreplay.le]
    have hzero : place - (record.replay.length + dropped.length) = 0 := by omega
    have hstart : (if record.replay.length ≤ place ∧ place < edge then edge else place) = place :=
      if_neg (by omega)
    rw [hstart, if_pos hreplay, hzero, drop_zero, hdrop]
    refine ⟨(sublist_append_right _ _).append_left _, fun hgap => ?_⟩
    have hnone : dropped = [] := length_eq_zero_iff.mp (by omega)
    rw [hnone, nil_append]
  · by_cases hlive : place < record.replay.length + dropped.length
    · -- in what was dropped
      have hdrop : (record.replay ++ dropped ++ record.liveChunks.flatten).drop place =
          (record.replay ++ dropped).drop place ++ record.liveChunks.flatten := by
        rw [drop_append_of_le_length (by rw [length_append]; omega)]
      have hstart : (if record.replay.length ≤ place ∧ place < edge then edge else place) = edge :=
        if_pos ⟨by omega, hlive⟩
      have hbehind : ¬edge < record.replay.length := by omega
      rw [hstart, if_neg hbehind, Nat.sub_self, drop_zero, hdrop, nil_append]
      exact ⟨sublist_append_right _ _, fun hgap => absurd ⟨by omega, hlive⟩ hgap⟩
    · -- in what is still there
      have hdrop : (record.replay ++ dropped ++ record.liveChunks.flatten).drop place =
          record.liveChunks.flatten.drop (place - (record.replay.length + dropped.length)) := by
        rw [drop_append, drop_eq_nil_of_le (by rw [length_append]; omega), nil_append,
          length_append]
      have hstart : (if record.replay.length ≤ place ∧ place < edge then edge else place) = place :=
        if_neg (by omega)
      rw [hstart, if_neg hreplay, hdrop, nil_append]
      exact ⟨List.Sublist.refl _, fun _ => rfl⟩

theorem Holds.read (h : record.Holds stream) {place : ℕ} (hplace : place ≤ stream.length) :
    Reads stream place (record.read (.minted place)) := by
  obtain ⟨hsub, hwhole⟩ := h.full place
  obtain ⟨hlength, dropped, hdropped, hstream⟩ := h
  have hend : record.replay.length + record.liveDropped + record.liveLength = stream.length := by
    rw [hstream, length_append, length_append, hdropped, hlength]
  have hlive : ∀ n, (if record.liveLength = 0 then [] else record.liveChunks.flatten.drop n) =
      record.liveChunks.flatten.drop n := by
    intro n
    by_cases hnone : record.liveLength = 0
    · have hempty : record.liveChunks.flatten = [] := length_eq_zero_iff.mp (hlength ▸ hnone)
      rw [if_pos hnone, hempty, drop_nil]
    · rw [if_neg hnone]
  have hread : record.read (.minted place) =
      ⟨if decide (readMaxBytes < (record.full place).length) then
          (record.full place).drop ((record.full place).length - readMaxBytes)
        else record.full place,
        .minted stream.length,
        decide (readMaxBytes < (record.full place).length) ||
          (decide (0 < record.liveDropped) && decide (place < record.replay.length + record.liveDropped))⟩ := by
    unfold PtyRecord.read
    dsimp only
    rw [hend, Nat.min_eq_left hplace, hlive]
    rfl
  rw [hread]
  refine ⟨rfl, fun htruncated => ?_, ?_⟩
  · obtain ⟨hcap, hgap⟩ := Bool.or_eq_false_iff.mp htruncated
    rw [hcap]
    refine hwhole fun hboth => ?_
    rw [decide_eq_true hboth.1, decide_eq_true hboth.2] at hgap
    cases hgap
  · dsimp only
    split
    · exact (drop_sublist _ _).trans hsub
    · exact hsub

end PtyRecord

end Pty

end OpenOmni
