import OpenOmni.Fold.Algebra
import OpenOmni.Fold.Readback
import OpenOmni.Fold.Tail

/-! What hydrating a session reads: the fold of its rows from the last checkpoint, and how it grows row by row. -/
namespace OpenOmni
open List

open PlainValue SessionTransition FoldCheckpoint

variable [PlainCoding]

def coldSeed (sessionId : String) (rows : List Node) : Option State :=
  match latestFoldCheckpoint rows rows.length with
  | none => some emptyState
  | some checkpoint => (checkpointSeed sessionId checkpoint).toOption.map (·.state)

def coldFold (sessionId : String) (rows : List Node) : Option State :=
  (coldSeed sessionId rows).bind (foldHistoryState sessionId (rows.drop (tailStart rows rows.length)))

section
variable {sessionId : String} {rows : List Node} {row : Node}

section
variable (h : Numbered (rows ++ [row]))
include h

omit [PlainCoding] in
lemma tailStart_concat : tailStart (rows ++ [row]) (rows ++ [row]).length =
    if row.kind = .foldCheckpoint then rows.length else tailStart rows rows.length := by
  obtain ⟨-, hordinal⟩ := h.concat
  unfold tailStart
  rw [latestFoldCheckpoint_concat h]
  split
  · simp [hordinal]
  · rfl

lemma coldSeed_concat : coldSeed sessionId (rows ++ [row]) =
    if row.kind = .foldCheckpoint then (checkpointSeed sessionId row).toOption.map (·.state)
    else coldSeed sessionId rows := by
  unfold coldSeed
  rw [latestFoldCheckpoint_concat h]
  by_cases hkind : row.kind = .foldCheckpoint
  · rw [if_pos hkind, if_pos hkind]
  · rw [if_neg hkind, if_neg hkind]

lemma coldFold_checkpoint (hkind : row.kind = .foldCheckpoint) :
    coldFold sessionId (rows ++ [row]) = ((checkpointSeed sessionId row).toOption.map (·.state)).bind
      (foldHistoryState sessionId [row]) := by
  unfold coldFold
  rw [coldSeed_concat h, tailStart_concat h, if_pos hkind, if_pos hkind, drop_left]

lemma coldFold_row (hkind : row.kind ≠ .foldCheckpoint) :
    coldFold sessionId (rows ++ [row]) = (coldFold sessionId rows).bind (foldHistoryState sessionId [row]) := by
  have hle := tailStart_le h.concat.1
  unfold coldFold
  rw [coldSeed_concat h, tailStart_concat h, if_neg hkind, if_neg hkind, drop_append_of_le_length hle,
    Option.bind_assoc]
  congr 1
  funext seed
  exact foldHistoryState_append _ _ seed

end

/-- A state that is its own fold of no rows, with nothing to prune. -/
structure Stands (sessionId : String) (state : State) : Prop where
  settled : state.Settled
  same : foldHistoryState sessionId [] state = some state

variable {state : State}

lemma Stands.of_row {action : Node} {seed : State} (h : foldHistoryState sessionId [action] seed = some state) :
    Stands sessionId state := by
  refine ⟨?_, foldHistoryState_nil h⟩
  unfold foldHistoryState at h
  obtain ⟨f, hf, rfl⟩ := Option.map_eq_some_iff.mp h
  rw [foldlM_cons] at hf
  obtain ⟨next, hstep, hnil⟩ := Option.bind_eq_some_iff.mp hf
  cases hnil
  have hunique := foldStep_unique (Folding.unique_ofSeed seed) hstep
  exact hunique.ofSeed_toState.pruned (foldStep_pruned hstep)

lemma Stands.checkpoint (h : Stands sessionId state) (hkind : row.kind = .foldCheckpoint) :
    foldHistoryState sessionId [row] state = some state := by
  rw [foldHistoryState_withoutCheckpoints h.settled]
  have hnone : withoutCheckpoints [row] = [] := by simp [withoutCheckpoints, hkind]
  rw [hnone]
  exact h.same

theorem coldFold_stands (h : coldFold sessionId rows = some state) : Stands sessionId state := by
  unfold coldFold at h
  obtain ⟨seed, hseed, hfold⟩ := Option.bind_eq_some_iff.mp h
  rcases eq_nil_or_concat (rows.drop (tailStart rows rows.length)) with hnil | ⟨front, last, hlast⟩
  · rw [hnil] at hfold
    have hsettled : seed.Settled := by
      unfold coldSeed at hseed
      split at hseed
      · cases hseed
        exact emptyState_settled
      · rename_i checkpoint hcheckpoint
        exfalso
        have hmem := (latestFoldCheckpoint_mem hcheckpoint).1
        have hle : checkpoint.ordinal ≤ rows.length := by
          have hfound := mem_of_getLast? hcheckpoint
          have htest := (mem_filter.mp hfound).2
          simp only [Bool.and_eq_true, decide_eq_true_eq] at htest
          exact htest.2
        have hstart : tailStart rows rows.length = checkpoint.ordinal - 1 := by simp [tailStart, hcheckpoint]
        rw [hstart, drop_eq_nil_iff] at hnil
        have hpositive : 0 < rows.length := length_pos_of_mem hmem
        omega
    exact ⟨foldHistoryState_settled hsettled hfold, foldHistoryState_nil hfold⟩
  · rw [hlast, concat_eq_append, foldHistoryState_append] at hfold
    obtain ⟨mid, -, hrow⟩ := Option.bind_eq_some_iff.mp hfold
    exact Stands.of_row hrow

end

variable {sessionId : String} {revision : ℕ} {db : Db}

theorem checkpointSeed_foldCheckpointAction {parentId : Option String} {«at» : ℚ} {reason : Reason} {state : State}
    {row : Append} (h : foldCheckpointAction sessionId parentId revision «at» reason state = some row) :
    checkpointSeed sessionId { row with ordinal := revision + 1 } = .ok ⟨revision, stateHash state, state⟩ := by
  unfold foldCheckpointAction at h
  obtain ⟨intent, hintent, h⟩ := Option.bind_eq_some_iff.mp h
  obtain ⟨result, hresult, h⟩ := Option.bind_eq_some_iff.mp h
  cases h
  obtain rfl := Intent.ofPlain_eq _ _ hintent
  obtain rfl := effectOfPlain_eq _ _ hresult
  have hintentVersion : (Intent.toPlain ⟨revision, reason⟩).get? "foldVersion" = some (.num 1) := by
    simp [Intent.toPlain, get?_record, List.lookup]
  have hintentRevision : (Intent.toPlain ⟨revision, reason⟩).get? "revision" = some (.num revision) := by
    simp [Intent.toPlain, get?_record, List.lookup]
  have hresultOf : (effectToPlain ⟨revision, stateHash state, state⟩).get? "result" =
      some (Result.toPlain ⟨revision, stateHash state, state⟩) := by
    simp [effectToPlain, get?_record, List.lookup]
  have hresultVersion : (Result.toPlain ⟨revision, stateHash state, state⟩).get? "foldVersion" = some (.num 1) := by
    simp [Result.toPlain, get?_record, List.lookup]
  have hresultRevision : (Result.toPlain ⟨revision, stateHash state, state⟩).get? "revision" = some (.num revision) := by
    simp [Result.toPlain, get?_record, List.lookup]
  have hordinal : ((revision + 1 : ℕ) : ℚ) - 1 = revision := by
    rw [Nat.cast_add, Nat.cast_one]
    ring
  unfold checkpointSeed
  simp only [hresultOf, Option.getD_some, hintentVersion, hresultVersion, hintentRevision, hresultRevision, hordinal,
    hresult, hintent, ne_eq, not_true_eq_false, or_self, if_false, if_true]

omit [PlainCoding] in
lemma numbered_drop {rows : List Node} (h : Numbered rows) (cursor : ℕ) :
    Paging.behind (·.ordinal) rows cursor = rows.drop cursor := by
  induction rows using List.reverseRecOn with
  | nil => simp [Paging.behind]
  | append_singleton rows row ih =>
    obtain ⟨hrows, hordinal⟩ := h.concat
    have hfront := ih hrows
    unfold Paging.behind at hfront ⊢
    rw [filter_append, hfront]
    by_cases hlt : cursor < row.ordinal
    · rw [filter_cons_of_pos (by simpa using hlt), filter_nil,
        drop_append_of_le_length (by omega)]
    · rw [filter_cons_of_neg (by simpa using hlt), filter_nil,
        drop_eq_nil_of_le (by omega), drop_eq_nil_of_le (by rw [length_append, length_singleton]; omega)]
      rfl

def readState (read : Except ReadFailure HydratedSessionHistory) : Option State := read.toOption.map (·.state)

theorem readSuffixPages_state {fuel cursor : ℕ} {read : HydratedSessionHistory}
    (hnumbered : Numbered (db.rows sessionId)) (hrevision : revision = (db.rows sessionId).length)
    (hfuel : revision ≤ cursor + fuel) (hstands : foldHistoryState sessionId [] read.state = some read.state) :
    readState (readSuffixPages db sessionId revision none fuel cursor read) =
      foldHistoryState sessionId ((db.rows sessionId).drop cursor) read.state := by
  have hdone : ∀ {cursor : ℕ}, revision ≤ cursor →
      foldHistoryState sessionId ((db.rows sessionId).drop cursor) read.state = some read.state := by
    intro cursor hle
    rw [drop_eq_nil_of_le (by omega)]
    exact hstands
  induction fuel generalizing cursor read with
  | zero =>
    rw [hdone (by omega)]
    rfl
  | succ fuel ih =>
    unfold readSuffixPages
    split
    · rename_i hle
      rw [hdone hle]
      rfl
    rename_i hlt
    dsimp only
    have hpage : db.range sessionId cursor restorePageRows = ((db.rows sessionId).drop cursor).take restorePageRows := by
      rw [← numbered_drop hnumbered cursor]
      rfl
    have hsuffix : (db.range sessionId cursor restorePageRows).filter (fun action => decide (action.ordinal ≤ revision)) =
        db.range sessionId cursor restorePageRows := by
      rw [filter_eq_self]
      intro action haction
      have hmem := mem_of_mem_filter (mem_of_mem_take haction)
      have hle := (hnumbered.ordinal_le hmem).2
      simp only [decide_eq_true_eq]
      omega
    rw [hsuffix]
    have hlength : 0 < (db.range sessionId cursor restorePageRows).length := by
      rw [hpage, length_take, length_drop]
      unfold restorePageRows
      omega
    rw [if_neg (ne_nil_of_length_pos hlength)]
    obtain ⟨front, last, hends⟩ : ∃ front last, db.range sessionId cursor restorePageRows = front ++ [last] :=
      ⟨_, _, (dropLast_append_getLast (ne_nil_of_length_pos hlength)).symm⟩
    have hrest : (db.rows sessionId).drop cursor =
        db.range sessionId cursor restorePageRows ++ (db.rows sessionId).drop last.ordinal := by
      have hbehind : Paging.behind (·.ordinal) (db.rows sessionId) cursor =
          front ++ [last] ++ ((db.rows sessionId).drop cursor).drop restorePageRows := by
        rw [← hends, hpage, numbered_drop hnumbered, take_append_drop]
      have hlast := Paging.behind_last hnumbered.pairwise hbehind
      rw [numbered_drop hnumbered] at hlast
      rw [hlast, hpage, take_append_drop]
    have hmemLast : last ∈ (db.rows sessionId).drop cursor := by
      rw [hrest, hends]
      simp
    have hadvance : cursor < last.ordinal := by
      rw [← numbered_drop hnumbered] at hmemLast
      simpa using (mem_filter.mp hmemLast).2
    have hlastOrdinal : ((db.range sessionId cursor restorePageRows).getLast?.map (·.ordinal)).getD cursor = last.ordinal := by
      rw [hends]
      simp
    rw [hrest, foldHistoryState_append, if_neg (by simp)]
    split
    · rename_i hnone
      rw [hnone]
      rfl
    · rename_i state hstate
      rw [hstate, hlastOrdinal, Option.bind_some]
      apply ih (by omega)
      · exact foldHistoryState_nil hstate
      · intro later hle
        dsimp only
        rw [drop_eq_nil_of_le (by omega)]
        exact foldHistoryState_nil hstate

theorem readHistoryCheckpoint_cold (hdb : ChainInv db) {row : Row} (hrow : db.selectSession sessionId = some row)
    {throughRevision : Option ℕ} (hthrough : throughRevision.all fun r => decide ((db.rows sessionId).length ≤ r)) :
    match coldSeed sessionId (db.rows sessionId) with
    | none => ∃ reason, readHistoryCheckpoint db sessionId throughRevision = .error (.integrity reason)
    | some _ => ∃ read, readHistoryCheckpoint db sessionId throughRevision = .ok read ∧
        readState (read.read db sessionId none) = coldFold sessionId (db.rows sessionId) := by
  have hnumbered := numbered_rows hdb hrow
  have hlength := selectSession_length hdb hrow
  have hrevision : throughRevision.elim row.revision (min row.revision) = (db.rows sessionId).length := by
    cases throughRevision with
    | none => exact hlength.symm
    | some r =>
      have hle : (db.rows sessionId).length ≤ r := by simpa using hthrough
      simp only [Option.elim_some]
      omega
  have hhydrate : ∀ {read : HistoryCheckpoint}, readHistoryCheckpoint db sessionId throughRevision = .ok read →
      coldSeed sessionId (db.rows sessionId) = some (read.seed.elim emptyState (·.state)) →
      readState (read.read db sessionId none) = coldFold sessionId (db.rows sessionId) := by
    intro read hread hseed
    obtain ⟨hrev, hafter, -, -⟩ := readHistoryCheckpoint_tail hdb hthrough hread
    unfold coldFold HistoryCheckpoint.read
    rw [hseed, Option.bind_some]
    have hsplit : ∀ rest seed, foldHistoryState sessionId ([] ++ rest) seed =
        (foldHistoryState sessionId [] seed).bind (foldHistoryState sessionId rest) := foldHistoryState_append []
    specialize hsplit ((db.rows sessionId).drop (tailStart (db.rows sessionId) (db.rows sessionId).length))
      (read.seed.elim emptyState (·.state))
    rw [nil_append] at hsplit
    rw [hsplit]
    cases hinitial : foldHistoryState sessionId [] (read.seed.elim emptyState (·.state)) with
    | none => rfl
    | some initial =>
      rw [Option.bind_some]
      dsimp only
      unfold readHistorySuffix
      rw [readSuffixPages_state hnumbered hrev (by omega) (foldHistoryState_nil hinitial), hafter, hrev]
  cases hcheckpoint : latestFoldCheckpoint (db.rows sessionId) (db.rows sessionId).length with
  | none =>
    have hread : readHistoryCheckpoint db sessionId throughRevision = .ok ⟨(db.rows sessionId).length, none, none⟩ := by
      unfold readHistoryCheckpoint
      simp only [hrow, hrevision, hcheckpoint]
    have hseed : coldSeed sessionId (db.rows sessionId) = some emptyState := by
      unfold coldSeed
      rw [hcheckpoint]
    rw [hseed]
    exact ⟨_, hread, hhydrate hread hseed⟩
  | some checkpoint =>
    cases hresult : checkpointSeed sessionId checkpoint with
    | error reason =>
      have hread : readHistoryCheckpoint db sessionId throughRevision = .error (.integrity reason) := by
        unfold readHistoryCheckpoint
        simp only [hrow, hrevision, hcheckpoint, hresult]
      have hseed : coldSeed sessionId (db.rows sessionId) = none := by
        unfold coldSeed
        simp only [hcheckpoint, hresult]
        rfl
      rw [hseed]
      exact ⟨reason, hread⟩
    | ok seed =>
      have hread : readHistoryCheckpoint db sessionId throughRevision =
          .ok ⟨(db.rows sessionId).length, some checkpoint, some seed⟩ := by
        unfold readHistoryCheckpoint
        simp only [hrow, hrevision, hcheckpoint, hresult]
      have hseed : coldSeed sessionId (db.rows sessionId) = some seed.state := by
        unfold coldSeed
        simp only [hcheckpoint, hresult]
        rfl
      rw [hseed]
      exact ⟨_, hread, hhydrate hread hseed⟩

end OpenOmni
