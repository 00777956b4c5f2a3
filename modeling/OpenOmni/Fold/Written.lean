import OpenOmni.Fold.Commit

/-! What a commit through the writer can do to the ledger and to the carried tail. -/
namespace OpenOmni
open List

open PlainValue SessionTransition FoldCheckpoint

variable [PlainCoding]

structure RowsWritten (db : Db) (input : Commit) (row : Row) (receipts : List Receipt) (db' : Db) : Prop where
  chain : ChainInv db'
  rows : db'.rows input.sessionId = db.rows input.sessionId ++ receipts.map (·.action)
  actions : receipts.map (·.action.toAppend) = input.actions
  present : ∃ current, db.selectSession input.sessionId = some current
  expected : (db.rows input.sessionId).length = input.expectedRevision
  session : db'.selectSession input.sessionId = some row
  revision : row.revision = (db'.rows input.sessionId).length

omit [PlainCoding] in
theorem RowsWritten.appends {db db' : Db} {input : Commit} {row : Row} {receipts : List Receipt}
    (h : RowsWritten db input row receipts db') : (db'.rows input.sessionId).map (·.toAppend) =
      (db.rows input.sessionId).map (·.toAppend) ++ input.actions := by
  rw [h.rows, map_append, map_map]
  congr 1
  exact h.actions

omit [PlainCoding] in
lemma RowsWritten.appended {db db' : Db} {input : Commit} {row : Row} {receipts : List Receipt}
    (h : RowsWritten db input row receipts db') : (receipts.map (·.action)).map (·.toAppend) = input.actions := by
  rw [map_map]
  exact h.actions

variable {sessionId : String} {refusal : Refusal} {plan : FoldPlan}

omit [PlainCoding] in
lemma selectSession_length {db : Db} (hdb : ChainInv db) {row : Row} (h : db.selectSession sessionId = some row) :
    (db.rows sessionId).length = row.revision := by
  obtain ⟨hmem, hid⟩ := selectSession_some h
  have hlength := hdb.rows_length hmem
  rwa [hid] at hlength

omit [PlainCoding] in
theorem AppendedAll.receipts {db db' : Db} {revision : ℕ} {actions : List Append} {receipts : List Receipt}
    (h : AppendedAll db revision actions receipts db') :
    db'.actions = db.actions ++ receipts.map (·.action) ∧ receipts.map (·.action.toAppend) = actions := by
  induction h with
  | nil => simp
  | @cons db mid db' revision action actions receipt receipts happ _ ih =>
    obtain ⟨hactions, happends⟩ := ih
    have hreceipt := happ.receipt_eq
    constructor
    · rw [hactions, happ.actions, hreceipt]
      simp
    · rw [map_cons, happends, hreceipt]

omit [PlainCoding] in
lemma validActionBatch_sessionId {db : Db} {actions : List Append}
    (h : validActionBatch db actions sessionId = true) : ∀ a ∈ actions, a.sessionId = sessionId := by
  unfold validActionBatch at h
  generalize ([] : List String) = ids at h
  induction actions generalizing ids with
  | nil => simp
  | cons action actions ih =>
    simp only [validActions, Bool.and_eq_true, decide_eq_true_eq] at h
    intro a ha
    rcases mem_cons.mp ha with rfl | ha
    · exact h.1.1.1.1
    · exact ih _ h.2 a ha

section
variable {cap : ℕ} {db db' : Db} {input : Commit} {row : Row} {receipts : List Receipt} (hdb : ChainInv db)
include hdb

lemma Committed.rowsWritten (h : Committed cap db input row receipts db') : RowsWritten db input row receipts db' := by
  have hdb' := h.chainInv hdb
  obtain ⟨current, hcurrent, -, -, hexpected, mid, happended, hactions, -, -⟩ := h.authority
  obtain ⟨hmid, happends⟩ := happended.receipts
  have hsession : ∀ node ∈ receipts.map (·.action), node.sessionId = input.sessionId := by
    intro node hnode
    obtain ⟨receipt, hreceipt, rfl⟩ := mem_map.mp hnode
    apply validActionBatch_sessionId h.batch
    rw [← happends]
    exact mem_map_of_mem hreceipt
  have hlength := selectSession_length hdb hcurrent
  refine ⟨hdb', ?_, happends, ⟨current, hcurrent⟩, hlength.trans hexpected, h.row, (selectSession_length hdb' h.row).symm⟩
  unfold Db.rows
  rw [hactions, hmid, filter_append]
  congr 1
  exact filter_eq_self.mpr fun node hnode => by simpa using hsession node hnode

lemma kernelCommit_ok
    (h : kernelCommit cap input db = (.ok (row, receipts), db')) : RowsWritten db input row receipts db' := by
  unfold kernelCommit write transaction at h
  cases hrun : runWrite cap (.commit input) db with
  | error refusal => simp [hrun] at h
  | ok result =>
    obtain ⟨out, next⟩ := result
    obtain ⟨row', receipts', rfl, -, hcommitted⟩ := runWrite_commit hrun
    simp only [hrun, Prod.mk.injEq, Except.ok.injEq] at h
    obtain ⟨⟨rfl, rfl⟩, rfl⟩ := h
    exact hcommitted.rowsWritten hdb

end

lemma kernelCommit_error {cap : ℕ} {db db' : Db} {input : Commit}
    (h : kernelCommit cap input db = (.error refusal, db')) : db' = db := by
  unfold kernelCommit write transaction at h
  cases hrun : runWrite cap (.commit input) db with
  | error other =>
    simp only [hrun, Prod.mk.injEq] at h
    exact h.2.symm
  | ok result =>
    obtain ⟨out, next⟩ := result
    obtain ⟨row', receipts', rfl, -, -⟩ := runWrite_commit hrun
    simp [hrun] at h

def countedTail (tail : ResolvedTail) (row : Row) (receipts : List Receipt) (count bytes : ℕ) : WriterTail where
  revision := row.revision
  count := count
  bytes := bytes
  refused := tail.refused
  state := tail.memo.bind (·.state)
  suffix := match tail.memo.bind fun memo => memo.state.map fun _ => memo with
    | none => []
    | some memo => memo.suffix ++ receipts.map (·.action)

def plannedTail (plan : FoldPlan) (refused : Bool) (row : Row) : WriterTail where
  revision := row.revision
  count := plan.count
  bytes := plan.bytes
  refused := refused
  state := some plan.state
  suffix := []

def isExternal (input : Commit) : Bool := input.actions.any (·.kind = .foldCheckpoint)

def incomingRows (input : Commit) : ℕ := input.actions.countP (·.kind ≠ .foldCheckpoint)

def incomingBytes (input : Commit) : ℕ := (input.actions.map actionPayloadBytes).sum

def ResolvedTail.seed (tail : ResolvedTail) (state : State) : FoldPlan :=
  { state := state, count := tail.count, bytes := tail.bytes }

/-- Everything that `commitFoldBatch` can come to. -/
inductive CommitCase (cap : ℕ) (port : Option PinAction) (db : Db) (carried : Option WriterTail) (input : Commit) :
    FoldCommit → Prop where
  | failed (failure : CommitFailure) (warned : Option String) :
      CommitCase cap port db carried input ⟨.error failure, db, none, warned⟩
  | counted {tail : ResolvedTail} {row : Row} {receipts : List Receipt} {db' : Db} :
      resolveTail db carried input (isExternal input) = .ok tail →
      (tail.refused = false → tail.count + incomingRows input < (checkpointPolicy (db.rows input.sessionId)).everyActions ∧
        tail.bytes + incomingBytes input ≤ (checkpointPolicy (db.rows input.sessionId)).maxTailBytes) →
      input.actions.any needsProjection = false →
      kernelCommit cap input db = (.ok (row, receipts), db') →
      CommitCase cap port db carried input ⟨.ok (row, receipts), db', if isExternal input then none else
        some (countedTail tail row receipts (tail.count + incomingRows input) (tail.bytes + incomingBytes input)), none⟩
  | planned {tail : ResolvedTail} {state : State} {plan : FoldPlan} {row : Row} {receipts : List Receipt} {db' : Db} :
      resolveTail db carried input (isExternal input) = .ok tail → tail.state db input = .ok state →
      planFoldBatch port db input (tail.seed state) (checkpointPolicy (db.rows input.sessionId))
        (if tail.refused then .compaction else .all) = some plan →
      kernelCommit cap { input with actions := plan.actions } db = (.ok (row, receipts), db') →
      CommitCase cap port db carried input ⟨.ok (row, receipts), db', if isExternal input then none else
        some (plannedTail plan (tail.refused && plan.added.isEmpty) row), none⟩
  | fallback {tail : ResolvedTail} {state : State} {planned plan : FoldPlan} {row : Row} {receipts : List Receipt}
      {db' : Db} {checkpoint : String} :
      resolveTail db carried input (isExternal input) = .ok tail → tail.state db input = .ok state →
      planFoldBatch port db input (tail.seed state) (checkpointPolicy (db.rows input.sessionId))
        (if tail.refused then .compaction else .all) = some planned →
      planned.added.any (·.id = checkpoint) = true →
      planFoldBatch port db input (tail.seed state) (checkpointPolicy (db.rows input.sessionId)) .none = some plan →
      kernelCommit cap { input with actions := plan.actions } db = (.ok (row, receipts), db') →
      CommitCase cap port db carried input ⟨.ok (row, receipts), db', if isExternal input then none else
        some (plannedTail plan true row), some checkpoint⟩

omit [PlainCoding] in
lemma refusedCheckpoint_added {checkpoint : String} (h : refusedCheckpoint plan refusal = some checkpoint) :
    plan.added.any (·.id = checkpoint) = true := by
  unfold refusedCheckpoint at h
  split at h
  · split at h
    · rename_i hrefused
      cases h
      exact hrefused.2
    · cases h
  · cases h

lemma commitPlanned_ok {cap : ℕ} {db : Db} {input : Commit} {external refused : Bool} {warned : Option String}
    {committed : FoldCommit} (h : commitPlanned cap db input external refused plan warned = .ok committed) :
    ∃ row receipts db', kernelCommit cap { input with actions := plan.actions } db = (.ok (row, receipts), db') ∧
      committed = ⟨.ok (row, receipts), db', if external then none else some (plannedTail plan refused row), warned⟩ := by
  unfold commitPlanned at h
  split at h
  · cases h
  · rename_i row receipts db' hcommit
    cases h
    exact ⟨row, receipts, db', hcommit, rfl⟩

lemma commitFoldBatch_cases (cap : ℕ) (port : Option PinAction) (db : Db) (carried : Option WriterTail) (input : Commit) :
    CommitCase cap port db carried input (commitFoldBatch cap port db carried input) := by
  unfold commitFoldBatch
  split
  · exact .failed _ none
  rename_i tail htail
  unfold commitResolved
  dsimp only
  split
  · rename_i hcounted
    simp only [Bool.and_eq_true, Bool.or_eq_true, decide_eq_true_eq, Bool.not_eq_true'] at hcounted
    unfold commitCounted
    split
    · rename_i refusal db' hcommit
      rw [kernelCommit_error hcommit]
      exact .failed _ none
    · rename_i row receipts db' hcommit
      apply CommitCase.counted htail _ hcounted.2 hcommit
      intro hrefused
      rcases hcounted.1 with habove | hwithin
      · rw [hrefused] at habove
        cases habove
      · exact hwithin
  · split
    · exact .failed _ none
    rename_i state hstate
    unfold commitFolded
    dsimp only
    split
    · exact .failed _ none
    rename_i planned hplanned
    split
    · rename_i committed hcommitted
      obtain ⟨row, receipts, db', hcommit, rfl⟩ := commitPlanned_ok hcommitted
      exact .planned htail hstate hplanned hcommit
    · rename_i refusal hrefusal
      split
      · exact .failed _ none
      rename_i checkpoint hcheckpoint
      split
      · exact .failed _ (some checkpoint)
      rename_i fallback hfallback
      split
      · rename_i committed hcommitted
        obtain ⟨row, receipts, db', hcommit, rfl⟩ := commitPlanned_ok hcommitted
        exact .fallback htail hstate hplanned (refusedCheckpoint_added hcheckpoint) hfallback hcommit
      · exact .failed _ (some checkpoint)

end OpenOmni
