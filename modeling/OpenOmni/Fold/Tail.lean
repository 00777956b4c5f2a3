import OpenOmni.Fold.Written
import OpenOmni.Lib.Paging

/-! The tail behind a session's last checkpoint: its size row by row, and the same size as the reader measures it. -/
namespace OpenOmni
open List
open Option (bind_eq_some_iff elim_some)

open PlainValue SessionTransition FoldCheckpoint

variable [PlainCoding]

/-- The size of a tail. Its checkpoint counts in the bytes, not in the rows. -/
structure TailSize where
  rows : ℕ := 0
  bytes : ℕ := 0

def TailSize.step (t : TailSize) (row : Append) : TailSize :=
  if row.kind = .foldCheckpoint then ⟨0, actionPayloadBytes row⟩ else ⟨t.rows + 1, t.bytes + actionPayloadBytes row⟩

def tailSize (rows : List Append) : TailSize := rows.foldl TailSize.step {}

def Db.tailSize (db : Db) (sessionId : String) : TailSize := OpenOmni.tailSize ((db.rows sessionId).map (·.toAppend))

structure TailSize.Below (t : TailSize) (count bytes : ℕ) : Prop where
  rows : t.rows ≤ count
  bytes : t.bytes ≤ bytes

lemma tailSize_concat (rows : List Append) (row : Append) : tailSize (rows ++ [row]) = (tailSize rows).step row := by
  simp [tailSize]

lemma tailSize_checkpoint {rows : List Append} {row : Append} (h : row.kind = .foldCheckpoint) :
    tailSize (rows ++ [row]) = ⟨0, actionPayloadBytes row⟩ := by
  rw [tailSize_concat, TailSize.step, if_pos h]

variable {count bytes after revision m cursor r : ℕ} {db : Db} {sessionId : String} {rows : List Node}
  {row checkpoint : Node} {t : RestoreTelemetry}

theorem TailSize.Below.step {t : TailSize} (h : t.Below count bytes) (row : Append) :
    (t.step row).Below (if row.kind = .foldCheckpoint then count else count + 1) (bytes + actionPayloadBytes row) := by
  have hrows := h.rows
  have hbytes := h.bytes
  unfold TailSize.step
  split
  · constructor
    · exact Nat.zero_le _
    · exact Nat.le_add_left _ _
  · constructor <;> dsimp only <;> omega

lemma TailSize.Below.append {rows : List Append} (h : (tailSize rows).Below count bytes) (actions : List Append) :
    (tailSize (rows ++ actions)).Below (count + actions.countP (·.kind ≠ .foldCheckpoint))
      (bytes + (actions.map actionPayloadBytes).sum) := by
  induction actions generalizing rows count bytes with
  | nil => simpa using h
  | cons action actions ih =>
    have hstep := h.step action
    rw [← tailSize_concat] at hstep
    have hrest := ih hstep
    rw [append_assoc, singleton_append] at hrest
    constructor
    · have hrows := hrest.rows
      rw [countP_cons]
      by_cases hkind : action.kind = .foldCheckpoint
      · rw [if_pos hkind] at hrows
        simpa [hkind] using hrows
      · have hone : (if decide (action.kind ≠ .foldCheckpoint) = true then 1 else 0) = 1 := by simp [hkind]
        rw [if_neg hkind] at hrows
        rw [hone]
        omega
    · have hbytes := hrest.bytes
      rw [map_cons, sum_cons]
      omega

omit [PlainCoding] in
def Numbered (rows : List Node) : Prop := rows.map (·.ordinal) = List.range' 1 rows.length

omit [PlainCoding] in
lemma numbered_rows (hdb : ChainInv db) {row : Row} (h : db.selectSession sessionId = some row) :
    Numbered (db.rows sessionId) := by
  obtain ⟨hmem, hid⟩ := selectSession_some h
  have hordinals := hdb.ordinals row hmem
  rw [hid] at hordinals
  unfold Numbered
  rw [hordinals, selectSession_length hdb h]

omit [PlainCoding] in
lemma Numbered.concat (h : Numbered (rows ++ [row])) : Numbered rows ∧ row.ordinal = rows.length + 1 := by
  unfold Numbered at h ⊢
  rw [map_append, length_append, length_singleton, ← List.range'_append_1, map_singleton] at h
  obtain ⟨hrows, hrow⟩ := append_inj h (by simp)
  refine ⟨hrows, ?_⟩
  have hlast : row.ordinal = 1 + rows.length := by simpa using hrow
  omega

omit [PlainCoding] in
lemma Numbered.ordinal_le (h : Numbered rows) (hrow : row ∈ rows) : 1 ≤ row.ordinal ∧ row.ordinal ≤ rows.length := by
  have hmem : row.ordinal ∈ rows.map (·.ordinal) := mem_map_of_mem hrow
  rw [h, List.mem_range'_1] at hmem
  omega

omit [PlainCoding] in
lemma Numbered.pairwise (h : Numbered rows) : rows.Pairwise fun a b => a.ordinal < b.ordinal := by
  have hrange : (rows.map (·.ordinal)).Pairwise (· < ·) := by
    rw [h]
    exact pairwise_lt_range'
  exact pairwise_map.mp hrange

omit [PlainCoding] in
/-- Where the tail starts: behind the row before the last checkpoint. -/
def tailStart (rows : List Node) (revision : ℕ) : ℕ := ((latestFoldCheckpoint rows revision).elim 1 (·.ordinal)) - 1

omit [PlainCoding] in
lemma latestFoldCheckpoint_concat (h : Numbered (rows ++ [row])) :
    latestFoldCheckpoint (rows ++ [row]) (rows ++ [row]).length =
      if row.kind = .foldCheckpoint then some row else latestFoldCheckpoint rows rows.length := by
  obtain ⟨hrows, hordinal⟩ := h.concat
  have hfilter : rows.filter (fun a => a.kind = .foldCheckpoint && decide (a.ordinal ≤ (rows ++ [row]).length)) =
      rows.filter fun a => a.kind = .foldCheckpoint && decide (a.ordinal ≤ rows.length) := by
    apply filter_congr
    intro a ha
    have hle := (hrows.ordinal_le ha).2
    have hle' : a.ordinal ≤ (rows ++ [row]).length := by
      rw [length_append]
      omega
    simp only [hle, hle', decide_true]
  unfold latestFoldCheckpoint
  rw [filter_append, hfilter]
  by_cases hkind : row.kind = .foldCheckpoint
  · simp [hkind, hordinal]
  · simp [hkind]

lemma payloadBytes_concat (h : Numbered (rows ++ [row])) (hafter : after ≤ rows.length) :
    payloadBytes (rows ++ [row]) after (rows ++ [row]).length =
      payloadBytes rows after rows.length + actionPayloadBytes row.toAppend := by
  obtain ⟨hrows, hordinal⟩ := h.concat
  have hfilter : rows.filter (fun a => decide (after < a.ordinal) && decide (a.ordinal ≤ (rows ++ [row]).length)) =
      rows.filter fun a => decide (after < a.ordinal) && decide (a.ordinal ≤ rows.length) := by
    apply filter_congr
    intro a ha
    have hle := (hrows.ordinal_le ha).2
    have hle' : a.ordinal ≤ (rows ++ [row]).length := by
      rw [length_append]
      omega
    simp only [hle, hle', decide_true]
  have hlast : after < rows.length + 1 := by omega
  unfold payloadBytes
  rw [filter_append, hfilter]
  simp [hordinal, hlast]

lemma payloadBytes_nil_of_le {through : ℕ} (h : through ≤ after) : payloadBytes rows after through = 0 := by
  have hfilter : rows.filter (fun row => decide (after < row.ordinal) && decide (row.ordinal ≤ through)) = [] := by
    rw [filter_eq_nil_iff]
    intro row _
    simp only [Bool.and_eq_true, decide_eq_true_eq, not_and]
    omega
  simp [payloadBytes, hfilter]

omit [PlainCoding] in
lemma latestFoldCheckpoint_mem (h : latestFoldCheckpoint rows revision = some checkpoint) :
    checkpoint ∈ rows ∧ checkpoint.kind = .foldCheckpoint := by
  have hmem := mem_of_getLast? h
  obtain ⟨hrow, hkind⟩ := mem_filter.mp hmem
  simp only [Bool.and_eq_true, decide_eq_true_eq] at hkind
  exact ⟨hrow, hkind.1⟩

omit [PlainCoding] in
lemma tailStart_le (h : Numbered rows) : tailStart rows rows.length ≤ rows.length := by
  unfold tailStart
  cases hcheckpoint : latestFoldCheckpoint rows rows.length with
  | none => simp
  | some checkpoint =>
    have hle := (h.ordinal_le (latestFoldCheckpoint_mem hcheckpoint).1).2
    simp only [elim_some]
    omega

theorem tailSize_eq (h : Numbered rows) :
    tailSize (rows.map (·.toAppend)) = ⟨rows.length - (latestFoldCheckpoint rows rows.length).elim 0 (·.ordinal),
      payloadBytes rows (tailStart rows rows.length) rows.length⟩ := by
  induction rows using List.reverseRecOn with
  | nil => rfl
  | append_singleton rows row ih =>
    obtain ⟨hrows, hordinal⟩ := h.concat
    have hstart : tailStart (rows ++ [row]) (rows ++ [row]).length =
        if row.kind = .foldCheckpoint then rows.length else tailStart rows rows.length := by
      unfold tailStart
      rw [latestFoldCheckpoint_concat h]
      split
      · simp [hordinal]
      · rfl
    rw [map_append, map_singleton, tailSize_concat, ih hrows, hstart, latestFoldCheckpoint_concat h]
    by_cases hkind : row.kind = .foldCheckpoint
    · rw [TailSize.step, if_pos hkind, if_pos hkind, if_pos hkind, payloadBytes_concat h le_rfl,
        payloadBytes_nil_of_le le_rfl]
      simp [hordinal]
    · have hle : (latestFoldCheckpoint rows rows.length).elim 0 (·.ordinal) ≤ rows.length := by
        cases hcheckpoint : latestFoldCheckpoint rows rows.length with
        | none => simp
        | some checkpoint => exact (hrows.ordinal_le (latestFoldCheckpoint_mem hcheckpoint).1).2
      rw [TailSize.step, if_neg hkind, if_neg hkind, if_neg hkind, payloadBytes_concat h (tailStart_le hrows)]
      simp only [length_append, length_singleton, TailSize.mk.injEq, and_true]
      omega

omit [PlainCoding] in
lemma asCount_ordinal {n : ℕ} {q : ℚ} (hq : q = (m : ℚ) - 1) (hm : 1 ≤ m) (h : asCount (.num q) = some n) :
    n = m - 1 := by
  have hn := asCount_cast h
  have hcast : ((m - 1 : ℕ) : ℚ) = (m : ℚ) - 1 := by
    rw [Nat.cast_sub hm, Nat.cast_one]
  have heq : (n : ℚ) = ((m - 1 : ℕ) : ℚ) := by rw [hn, hq, hcast]
  exact_mod_cast heq

omit [PlainCoding] in
lemma effectOfPlain_revision {v : PlainValue} {r : FoldCheckpoint.Result} (h : effectOfPlain v = some r) :
    ∃ w, (v.get? "result").bind (·.get? "revision") = some w ∧ asCount w = some r.revision := by
  unfold effectOfPlain at h
  obtain ⟨_, -, h⟩ := bind_eq_some_iff.mp h
  obtain ⟨_, -, h⟩ := bind_eq_some_iff.mp h
  obtain ⟨_, -, h⟩ := bind_eq_some_iff.mp h
  obtain ⟨result, hresult, h⟩ := bind_eq_some_iff.mp h
  unfold Result.ofPlain at h
  simp only [Option.bind_eq_bind, bind_eq_some_iff] at h
  obtain ⟨_, -, revision, hrevision, _, -, hash, -, state, -, h⟩ := h
  cases h
  obtain ⟨w, hw, hcount⟩ := bind_eq_some_iff.mp hrevision
  refine ⟨w, ?_, hcount⟩
  rw [hresult]
  exact hw

theorem checkpointSeed_revision {seed : FoldCheckpoint.Result} (hordinal : 1 ≤ checkpoint.ordinal)
    (h : checkpointSeed sessionId checkpoint = .ok seed) : seed.revision = checkpoint.ordinal - 1 := by
  unfold checkpointSeed at h
  dsimp only at h
  split at h
  · cases h
  split at h
  · cases h
  rename_i hrevision
  simp only [not_or, not_not] at hrevision
  split at h
  · rename_i parsed intent hparsed _
    split at h
    · cases h
      obtain ⟨w, hw, hcount⟩ := effectOfPlain_revision hparsed
      obtain ⟨result, hresult, hget⟩ := bind_eq_some_iff.mp hw
      have hsame : some w = some (.num ((checkpoint.ordinal : ℚ) - 1)) := by
        rw [← hrevision.1, ← hrevision.2.1, hresult, Option.getD_some, hget]
      cases hsame
      exact asCount_ordinal rfl hordinal hcount
    · cases h
  · cases h

theorem readHistoryCheckpoint_tail (hdb : ChainInv db) {throughRevision : Option ℕ} {read : HistoryCheckpoint}
    (hthrough : throughRevision.all fun r => decide ((db.rows sessionId).length ≤ r))
    (h : readHistoryCheckpoint db sessionId throughRevision = .ok read) :
    read.revision = (db.rows sessionId).length ∧ read.afterRevision = tailStart (db.rows sessionId) read.revision ∧
      Numbered (db.rows sessionId) ∧ db.tailSize sessionId = ⟨read.nonCheckpointActions, read.tailBytes db sessionId⟩ := by
  unfold readHistoryCheckpoint at h
  split at h
  · cases h
  rename_i row hrow
  have hnumbered := numbered_rows hdb hrow
  have hlength := selectSession_length hdb hrow
  have hrevision : throughRevision.elim row.revision (min row.revision) = (db.rows sessionId).length := by
    cases throughRevision with
    | none => exact hlength.symm
    | some r =>
      have hle : (db.rows sessionId).length ≤ r := by simpa using hthrough
      simp only [elim_some]
      omega
  have hsize := tailSize_eq hnumbered
  dsimp only at h
  rw [hrevision] at h
  split at h
  · rename_i hnone
    cases h
    have hstart : tailStart (db.rows sessionId) (db.rows sessionId).length = 0 := by simp [tailStart, hnone]
    refine ⟨rfl, hstart.symm, hnumbered, ?_⟩
    unfold Db.tailSize
    rw [hsize, hnone, hstart]
    rfl
  · rename_i checkpoint hcheckpoint
    split at h
    · cases h
    · rename_i seed hseed
      cases h
      have hmem := hnumbered.ordinal_le (latestFoldCheckpoint_mem hcheckpoint).1
      have hseedRevision := checkpointSeed_revision hmem.1 hseed
      have hstart : tailStart (db.rows sessionId) (db.rows sessionId).length = seed.revision := by
        simp [tailStart, hcheckpoint, hseedRevision]
      refine ⟨rfl, hstart.symm, hnumbered, ?_⟩
      unfold Db.tailSize
      rw [hsize, hcheckpoint, hstart]
      rfl

theorem payloadBytes_page (h : Numbered rows) {front rest : List Node} {last : Node}
    (hbehind : Paging.behind (·.ordinal) rows cursor = front ++ [last] ++ rest) : payloadBytes rows cursor rows.length =
      ((front ++ [last]).map fun row => actionPayloadBytes row.toAppend).sum +
        payloadBytes rows last.ordinal rows.length := by
  have hpayload : ∀ after, payloadBytes rows after rows.length =
      ((Paging.behind (·.ordinal) rows after).map fun row => actionPayloadBytes row.toAppend).sum := by
    intro after
    unfold payloadBytes Paging.behind
    congr 2
    apply filter_congr
    intro row hrow
    have hle := (h.ordinal_le hrow).2
    simp [hle]
  have hrest := Paging.behind_last h.pairwise hbehind
  rw [hpayload, hpayload, hbehind, hrest, map_append, sum_append]

theorem readSuffixPages_refused {bound : ℕ} {fuel : ℕ} {read : HydratedSessionHistory}
    (hnumbered : Numbered (db.rows sessionId)) (hrevision : revision = (db.rows sessionId).length)
    (hbytes : read.telemetry.bytes + payloadBytes (db.rows sessionId) cursor revision ≤ bound) :
    readSuffixPages db sessionId revision (some bound) fuel cursor read ≠ .error (.refused r m t) := by
  induction fuel generalizing cursor read with
  | zero => simp [readSuffixPages]
  | succ fuel ih =>
    unfold readSuffixPages
    split
    · simp
    dsimp only
    have hsuffix : (db.range sessionId cursor restorePageRows).filter (fun action => decide (action.ordinal ≤ revision)) =
        db.range sessionId cursor restorePageRows := by
      rw [filter_eq_self]
      intro action haction
      have hmem := mem_of_mem_filter (mem_of_mem_take haction)
      have hle := (hnumbered.ordinal_le hmem).2
      simp only [decide_eq_true_eq]
      omega
    rw [hsuffix]
    split
    · simp
    rename_i hne
    obtain ⟨front, last, hpage⟩ : ∃ front last, db.range sessionId cursor restorePageRows = front ++ [last] :=
      ⟨_, _, (dropLast_append_getLast hne).symm⟩
    have hbehind : Paging.behind (·.ordinal) (db.rows sessionId) cursor =
        front ++ [last] ++ (Paging.behind (·.ordinal) (db.rows sessionId) cursor).drop restorePageRows := by
      rw [← hpage]
      exact (take_append_drop _ _).symm
    have hsum := payloadBytes_page hnumbered hbehind
    rw [← hpage] at hsum
    rw [hrevision, hsum] at hbytes
    split
    · rename_i hpast
      have hlt : bound < read.telemetry.bytes +
          ((db.range sessionId cursor restorePageRows).map fun action => actionPayloadBytes action.toAppend).sum := by
        simpa using hpast
      omega
    · split
      · simp
      · rename_i state _
        have hlast : ((db.range sessionId cursor restorePageRows).getLast?.map (·.ordinal)).getD cursor = last.ordinal := by
          rw [hpage]
          simp
        rw [hlast]
        apply ih
        rw [hrevision]
        dsimp only
        omega

theorem restoreSessionHistory_not_refused (hdb : ChainInv db)
    (h : (db.tailSize sessionId).bytes ≤ (checkpointPolicy (db.rows sessionId)).maxTailBytes) :
    restoreSessionHistory db sessionId ≠ .error (.refused r m t) := by
  unfold restoreSessionHistory
  simp only [bind, Except.bind]
  cases hread : readHistoryCheckpoint db sessionId none with
  | error failure =>
    unfold readHistoryCheckpoint at hread
    intro heq
    cases heq
    split at hread
    · cases hread
    · dsimp only at hread
      split at hread
      · cases hread
      · split at hread <;> cases hread
  | ok read =>
    obtain ⟨hrevision, hafter, hnumbered, hsize⟩ := readHistoryCheckpoint_tail hdb rfl hread
    dsimp only
    unfold HistoryCheckpoint.read
    split
    · simp
    · unfold readHistorySuffix
      apply readSuffixPages_refused hnumbered hrevision
      rw [hsize] at h
      simpa [HistoryCheckpoint.tailBytes] using h

end OpenOmni
