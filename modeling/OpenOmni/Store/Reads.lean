import Mathlib.Data.List.MinMax
import OpenOmni.Protocol.SessionTransition
import OpenOmni.Store.Chain

/-! The read queries over a session file's rows, and what a write adds to their answers. -/
namespace OpenOmni
open List

open SessionTransition

namespace Db

/-- `SELECT … WHERE id = ?`. -/
def actionById (db : Db) (id : String) : Option Node := db.actions.find? (·.id = id)

section
variable [PlainCoding]

/-- The `request` rows of a session under one input id. -/
def inputRows (db : Db) (sessionId inputId : String) : List Node :=
  (db.rows sessionId).filter fun row =>
    row.kind = .request && jsonExtract row.intent ["inputId"] = some (.text inputId)

/-- `requestInputById`: the latest of them. -/
def requestInputById (db : Db) (sessionId inputId : String) : Option Node :=
  (db.inputRows sessionId inputId).argmax (·.ordinal)

/-- The `request` rows of a file that carry one request. -/
def requestStates (db : Db) (requestId : String) : List Node :=
  db.actions.filter fun row =>
    row.kind = .request && jsonExtract row.effect ["request", "requestId"] = some (.text requestId)

/-- `requestStateById`: the last of them by rowid. -/
def requestStateById (db : Db) (requestId : String) : Option Node :=
  (db.requestStates requestId).getLast?

/-- `requestById`; the outer `none` is the throw of a row that does not parse. -/
def requestById (db : Db) (requestId : String) : Option (Option Request) :=
  match db.requestStateById requestId with
  | none => some none
  | some row => ((row.effect.get? "request").bind Request.ofPlain).map some

end
end Db

def WriteOp.rows : WriteOp → List Append
  | .materialize input => [input.initialAction]
  | .adoptFence _ => []
  | .commit input => input.actions
  | .append input _ => [input]
  | .fork input copies => input.initialAction :: copies

/-- The rows of `db'` are those of `db` and some of the submitted ones. -/
def Grows (submitted : List Append) (db db' : Db) : Prop :=
  ∃ new : List Node, db'.actions = db.actions ++ new ∧ ∀ node ∈ new, node.toAppend ∈ submitted

lemma Grows.refl (submitted : List Append) (db : Db) : Grows submitted db db := ⟨[], by simp⟩

variable {submitted actions : List Append} {db db' : Db} {action : Append} {revision : ℕ} {receipt : Receipt}
  {receipts : List Receipt} {s : Row}

lemma Grows.subset (h : Grows submitted db db') : ∀ a ∈ db.actions, a ∈ db'.actions := by
  obtain ⟨new, hb, -⟩ := h
  intro a ha
  rw [hb]
  exact mem_append_left _ ha

/-- A write that took its rows: they follow the others in order, and each had its effect on the armed
index. -/
structure Wrote [PlainCoding] (rows : List Append) (db db' : Db) : Prop where
  actions : ∃ new : List Node, db'.actions = db.actions ++ new ∧ new.map (·.toAppend) = rows
  armed : rows.foldlM applyDelta db.armed = .ok db'.armed

section
variable [PlainCoding] {cap : ℕ} {db db' : Db}

lemma Wrote.of_eq (hactions : db'.actions = db.actions) (harmed : db'.armed = db.armed) :
    Wrote [] db db' :=
  ⟨⟨[], by simp [hactions], rfl⟩, by rw [harmed]; rfl⟩

variable {rows : List Append} {revision : ℕ} {receipt : Receipt} {receipts : List Receipt} {row : Row} {c : Commit}

lemma Wrote.trans {a b c : Db} {rows' : List Append} (hab : Wrote rows a b) (hbc : Wrote rows' b c) :
    Wrote (rows ++ rows') a c := by
  obtain ⟨new, hb, hnew⟩ := hab.actions
  obtain ⟨new', hc, hnew'⟩ := hbc.actions
  refine ⟨⟨new ++ new', by rw [hc, hb, append_assoc], by rw [map_append, hnew, hnew']⟩, ?_⟩
  rw [foldlM_append, hab.armed]
  exact hbc.armed

lemma Wrote.grows (h : Wrote rows db db') : Grows rows db db' := by
  obtain ⟨new, hactions, hnew⟩ := h.actions
  refine ⟨new, hactions, fun node hnode => ?_⟩
  rw [← hnew]
  exact mem_map_of_mem hnode

lemma Appended.wrote {action : Append} (h : Appended db action revision receipt db') : Wrote [action] db db' := by
  refine ⟨⟨_, h.actions, rfl⟩, ?_⟩
  rw [foldlM_cons, h.armed]
  rfl

lemma AppendedAll.wrote {actions : List Append} (h : AppendedAll db revision actions receipts db') :
    Wrote actions db db' := by
  induction h with
  | nil => exact Wrote.of_eq rfl rfl
  | cons first _ ih => exact first.wrote.trans ih

lemma materializeSession_wrote {input : Materialize}
    (h : materializeSession cap db input = .ok (.created row receipt, db')) : Wrote [input.initialAction] db db' := by
  rcases materializeSession_ok h with ⟨existing, heq, -⟩ | hcreated
  · simp at heq
  · obtain ⟨_, _, inserted, -, -, -, -, -, hins, happ, -⟩ := hcreated
    obtain ⟨-, rfl⟩ := insertSession_some hins
    have hinserted : Wrote [] db { db with sessions := db.sessions ++ [input.row] } :=
      Wrote.of_eq rfl rfl
    exact hinserted.trans (appendAction_ok happ).2.2.wrote

lemma forkCopies_wrote {head : Receipt} {copies : List Append}
    (h : forkCopies cap db receipt copies = .ok (head, db')) : Wrote copies db db' := by
  induction copies generalizing db receipt with
  | nil =>
    simp only [forkCopies, Except.ok.injEq, Prod.mk.injEq] at h
    obtain ⟨-, rfl⟩ := h
    exact Wrote.of_eq rfl rfl
  | cons copy copies ih =>
    obtain ⟨appended, next, hfirst, hrest⟩ := forkCopies_cons h
    exact (appendAction_ok hfirst).2.2.wrote.trans (ih hrest)

lemma Committed.wrote (h : Committed cap db c row receipts db') : Wrote c.actions db db' := by
  obtain ⟨current, -, -, -, -, mid, happ, hactions, harmed, -⟩ := h.authority
  have hsettled := happ.wrote.trans (Wrote.of_eq hactions harmed)
  rwa [append_nil] at hsettled

lemma runWrite_wrote {op : WriteOp} {out : WriteOutcome}
    (h : runWrite cap op db = .ok (out, db')) : db' = db ∨ Wrote op.rows db db' := by
  cases op with
  | materialize input =>
    obtain ⟨result, -, hmat⟩ := runWrite_materialize h
    rcases materializeSession_ok hmat with ⟨row, -, rfl⟩ | hcreated
    · exact .inl rfl
    · obtain ⟨row, receipt, -, rfl, -⟩ := hcreated
      exact .inr (materializeSession_wrote hmat)
  | adoptFence input =>
    obtain ⟨fence, -, hadopt⟩ := runWrite_adoptFence h
    obtain ⟨current, -, -, ⟨-, -, rfl⟩ | ⟨-, rfl⟩⟩ := adoptFence_ok hadopt
    · exact .inl rfl
    · exact .inr (Wrote.of_eq rfl rfl)
  | commit input =>
    obtain ⟨row, receipts, -, -, hcommit⟩ := runWrite_commit h
    exact .inr hcommit.wrote
  | append input revision =>
    rcases runWrite_append h with ⟨-, rfl⟩ | ⟨receipt, -, happ⟩
    · exact .inl rfl
    · exact .inr (appendAction_ok happ).2.2.wrote
  | fork input copies =>
    obtain ⟨result, -, hfork⟩ := runWrite_fork h
    obtain ⟨row, receipt, mid, head, hmat, hcopies, -⟩ := forkSession_ok hfork
    exact .inr ((materializeSession_wrote hmat).trans (forkCopies_wrote hcopies))

theorem write_wrote (cap : ℕ) (op : WriteOp) (db : Db) :
    (write cap op db).2 = db ∨ Wrote op.rows db (write cap op db).2 := by
  unfold write transaction
  cases h : runWrite cap op db with
  | error refusal => exact .inl rfl
  | ok result =>
    obtain ⟨out, next⟩ := result
    exact runWrite_wrote h

theorem write_commit_wrote (h : refused (write cap (.commit c) db).1 = false) :
    Wrote c.actions db (write cap (.commit c) db).2 := by
  unfold write transaction at h ⊢
  cases hrun : runWrite cap (.commit c) db with
  | error refusal => simp [hrun, refused] at h
  | ok result =>
    obtain ⟨out, next⟩ := result
    obtain ⟨row, receipts, -, -, hcommit⟩ := runWrite_commit hrun
    exact hcommit.wrote

lemma write_grows (cap : ℕ) (op : WriteOp) (db : Db) : Grows op.rows db (write cap op db).2 := by
  rcases write_wrote cap op db with heq | hwrote
  · rw [heq]
    exact Grows.refl _ _
  · exact hwrote.grows

end

def WriteOp.creates : WriteOp → List String
  | .materialize input => [input.row.id]
  | .fork input _ => [input.row.id]
  | _ => []

def Db.sessionIds (db : Db) : List String := db.sessions.map (·.id)

lemma Db.sessionIds_of_map (f : Row → Row) (hid : ∀ s, (f s).id = s.id) (h : db'.sessions = db.sessions.map f) :
    db'.sessionIds = db.sessionIds := by
  rw [sessionIds, h, map_map]
  exact map_congr_left fun s _ => hid s

lemma Appended.sessionIds (h : Appended db action revision receipt db') : db'.sessionIds = db.sessionIds :=
  Db.sessionIds_of_map _ (bumpRevision_id _ _) h.sessions

lemma AppendedAll.sessionIds (h : AppendedAll db revision actions receipts db') : db'.sessionIds = db.sessionIds := by
  induction h with
  | nil => rfl
  | cons first _ ih => exact ih.trans first.sessionIds

section
variable [PlainCoding] {cap : ℕ} {db db' : Db}

lemma Committed.sessionIds {c : Commit} {row : Row} {receipts : List Receipt}
    (h : Committed cap db c row receipts db') : db'.sessionIds = db.sessionIds := by
  obtain ⟨current, -, -, -, -, mid, happ, -, -, hsessions⟩ := h.authority
  exact (Db.sessionIds_of_map _ (settleRow_id c current) hsessions).trans happ.sessionIds

lemma materializeSession_sessionIds {input : Materialize} {result : MaterializeResult}
    (h : materializeSession cap db input = .ok (result, db')) :
    db'.sessionIds = db.sessionIds ∨ db'.sessionIds = db.sessionIds ++ [input.row.id] := by
  rcases materializeSession_ok h with ⟨row, -, rfl⟩ | hcreated
  · exact .inl rfl
  · obtain ⟨_, _, inserted, -, -, -, -, -, hins, happ, -⟩ := hcreated
    obtain ⟨-, rfl⟩ := insertSession_some hins
    refine .inr ((appendAction_ok happ).2.2.sessionIds.trans ?_)
    simp [Db.sessionIds]

lemma forkCopies_sessionIds {receipt head : Receipt} {copies : List Append}
    (h : forkCopies cap db receipt copies = .ok (head, db')) : db'.sessionIds = db.sessionIds := by
  induction copies generalizing db receipt with
  | nil =>
    simp only [forkCopies, Except.ok.injEq, Prod.mk.injEq] at h
    obtain ⟨-, rfl⟩ := h
    rfl
  | cons copy copies ih =>
    obtain ⟨appended, next, hfirst, hrest⟩ := forkCopies_cons h
    exact (ih hrest).trans (appendAction_ok hfirst).2.2.sessionIds

theorem write_sessionIds (cap : ℕ) (op : WriteOp) (db : Db) :
    (write cap op db).2.sessionIds = db.sessionIds ∨
      (write cap op db).2.sessionIds = db.sessionIds ++ op.creates := by
  unfold write transaction
  cases h : runWrite cap op db with
  | error refusal => exact .inl rfl
  | ok result =>
    obtain ⟨out, next⟩ := result
    cases op with
    | materialize input =>
      obtain ⟨result, -, hmat⟩ := runWrite_materialize h
      exact materializeSession_sessionIds hmat
    | adoptFence input =>
      obtain ⟨fence, -, hadopt⟩ := runWrite_adoptFence h
      obtain ⟨current, -, -, ⟨-, -, rfl⟩ | ⟨-, rfl⟩⟩ := adoptFence_ok hadopt
      · exact .inl rfl
      · exact .inl (Db.sessionIds_of_map _ (adoptRow_id input) rfl)
    | commit input =>
      obtain ⟨row, receipts, -, -, hcommit⟩ := runWrite_commit h
      exact .inl hcommit.sessionIds
    | append input revision =>
      rcases runWrite_append h with ⟨-, rfl⟩ | ⟨receipt, -, happ⟩
      · exact .inl rfl
      · exact .inl (appendAction_ok happ).2.2.sessionIds
    | fork input copies =>
      obtain ⟨result, -, hfork⟩ := runWrite_fork h
      obtain ⟨row, receipt, mid, head, hmat, hcopies, -⟩ := forkSession_ok hfork
      have hsame : next.sessionIds = mid.sessionIds := forkCopies_sessionIds hcopies
      exact (materializeSession_sessionIds hmat).imp hsame.trans hsame.trans

end

def WriteOp.createdRows : WriteOp → List Row
  | .materialize input => [input.row]
  | .fork input _ => [input.row]
  | _ => []

/-- Every session's fence is the one it had, or the one it was created with. -/
def FencesFrom (created : List Row) (db db' : Db) : Prop :=
  ∀ row' ∈ db'.sessions, ∃ row ∈ db.sessions ++ created, row.id = row'.id ∧ row.fence = row'.fence

lemma FencesFrom.refl (created : List Row) (db : Db) : FencesFrom created db db :=
  fun row hrow => ⟨row, mem_append_left _ hrow, rfl, rfl⟩

lemma FencesFrom.trans {created : List Row} {a b c : Db} (hab : FencesFrom created a b)
    (hbc : FencesFrom [] b c) : FencesFrom created a c := by
  intro row hrow
  obtain ⟨mid, hmid, hid, hfence⟩ := hbc row hrow
  rw [append_nil] at hmid
  obtain ⟨first, hfirst, hid', hfence'⟩ := hab mid hmid
  exact ⟨first, hfirst, hid'.trans hid, hfence'.trans hfence⟩

lemma FencesFrom.of_map (f : Row → Row) (hid : ∀ s, (f s).id = s.id) (hfence : ∀ s, (f s).fence = s.fence)
    (h : db'.sessions = db.sessions.map f) : FencesFrom [] db db' := by
  intro row hrow
  rw [h] at hrow
  obtain ⟨first, hfirst, rfl⟩ := mem_map.mp hrow
  exact ⟨first, mem_append_left _ hfirst, (hid first).symm, (hfence first).symm⟩

lemma bumpRevision_fence (sessionId : String) (revision : ℕ) (row : Row) :
    (bumpRevision sessionId revision row).fence = row.fence := by
  unfold bumpRevision
  split <;> rfl

lemma settleRow_fence (c : Commit) (current row : Row) : (settleRow c current row).fence = row.fence := by
  unfold settleRow
  split <;> rfl

lemma Appended.fencesFrom (h : Appended db action revision receipt db') : FencesFrom [] db db' :=
  FencesFrom.of_map _ (bumpRevision_id _ _) (bumpRevision_fence _ _) h.sessions

lemma AppendedAll.fencesFrom (h : AppendedAll db revision actions receipts db') : FencesFrom [] db db' := by
  induction h with
  | nil db => exact FencesFrom.refl [] db
  | cons first _ ih => exact first.fencesFrom.trans ih

section
variable [PlainCoding] {cap : ℕ} {db db' : Db}

lemma Committed.fencesFrom {c : Commit} {row : Row} {receipts : List Receipt}
    (h : Committed cap db c row receipts db') : FencesFrom [] db db' := by
  obtain ⟨current, -, -, -, -, mid, happ, -, -, hsessions⟩ := h.authority
  exact happ.fencesFrom.trans
    (FencesFrom.of_map _ (settleRow_id c current) (settleRow_fence c current) hsessions)

lemma materializeSession_fencesFrom {input : Materialize} {result : MaterializeResult}
    (h : materializeSession cap db input = .ok (result, db')) : FencesFrom [input.row] db db' := by
  rcases materializeSession_ok h with ⟨row, -, rfl⟩ | hcreated
  · exact FencesFrom.refl _ _
  · obtain ⟨_, _, inserted, -, -, -, -, -, hins, happ, -⟩ := hcreated
    obtain ⟨-, rfl⟩ := insertSession_some hins
    have hinserted : FencesFrom [input.row] db { db with sessions := db.sessions ++ [input.row] } :=
      fun row hrow => ⟨row, hrow, rfl, rfl⟩
    exact hinserted.trans (appendAction_ok happ).2.2.fencesFrom

lemma forkCopies_fencesFrom {receipt head : Receipt} {copies : List Append}
    (h : forkCopies cap db receipt copies = .ok (head, db')) : FencesFrom [] db db' := by
  induction copies generalizing db receipt with
  | nil =>
    simp only [forkCopies, Except.ok.injEq, Prod.mk.injEq] at h
    obtain ⟨-, rfl⟩ := h
    exact FencesFrom.refl [] db
  | cons copy copies ih =>
    obtain ⟨appended, next, hfirst, hrest⟩ := forkCopies_cons h
    exact (appendAction_ok hfirst).2.2.fencesFrom.trans (ih hrest)

theorem write_fencesFrom (cap : ℕ) {op : WriteOp} (db : Db) (hop : ∀ input, op ≠ .adoptFence input) :
    FencesFrom op.createdRows db (write cap op db).2 := by
  unfold write transaction
  cases h : runWrite cap op db with
  | error refusal => exact FencesFrom.refl _ _
  | ok result =>
    obtain ⟨out, next⟩ := result
    cases op with
    | materialize input =>
      obtain ⟨result, -, hmat⟩ := runWrite_materialize h
      exact materializeSession_fencesFrom hmat
    | adoptFence input => exact absurd rfl (hop input)
    | commit input =>
      obtain ⟨row, receipts, -, -, hcommit⟩ := runWrite_commit h
      exact hcommit.fencesFrom
    | append input revision =>
      rcases runWrite_append h with ⟨-, rfl⟩ | ⟨receipt, -, happ⟩
      · exact FencesFrom.refl _ _
      · exact (appendAction_ok happ).2.2.fencesFrom
    | fork input copies =>
      obtain ⟨result, -, hfork⟩ := runWrite_fork h
      obtain ⟨row, receipt, mid, head, hmat, hcopies, -⟩ := forkSession_ok hfork
      have hrest : FencesFrom [] mid next := forkCopies_fencesFrom hcopies
      exact (materializeSession_fencesFrom hmat).trans hrest

end

lemma Grows.of_actions_eq (h : db'.actions = db.actions) : Grows submitted db db' := ⟨[], by simp [h]⟩

lemma ChainInv.rows_length (h : ChainInv db) (hs : s ∈ db.sessions) : (db.rows s.id).length = s.revision := by
  have hlength := congrArg List.length (h.ordinals s hs)
  simpa using hlength

theorem Grows.rows_eq (h : Grows submitted db db') (hdb : ChainInv db) (hdb' : ChainInv db') {s' : Row}
    (hs : s ∈ db.sessions) (hs' : s' ∈ db'.sessions) (hid : s'.id = s.id) :
    s.revision ≤ s'.revision ∧ (s'.revision = s.revision → db'.rows s.id = db.rows s.id) := by
  obtain ⟨new, hactions, -⟩ := h
  have hrows : db'.rows s.id = db.rows s.id ++ new.filter (·.sessionId = s.id) := by
    simp [Db.rows, hactions]
  have hlength := hdb.rows_length hs
  have hlength' := hdb'.rows_length hs'
  rw [hid, hrows, length_append, hlength] at hlength'
  refine ⟨by omega, fun heq => ?_⟩
  have hnil : new.filter (·.sessionId = s.id) = [] := length_eq_zero_iff.mp (by omega)
  rw [hrows, hnil, append_nil]

end OpenOmni
