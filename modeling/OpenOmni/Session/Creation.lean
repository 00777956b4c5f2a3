import OpenOmni.Session.ForkTurns
import OpenOmni.Store.Catalog

/-! The creation of a session in two files: the session file first, the catalog's index row next, and the compensation
of the first where the second is refused. -/
namespace OpenOmni
open List

/-- A row of `tool_outputs`. -/
structure ToolOutput where
  outputId : String
  bytes : List UInt8
  mediaType : Option String := none

/-- A row of `decision_fact`. -/
structure DecisionFact where
  key : String
  type : String
  data : String
  timeCreated : ℚ

structure SessionFile where
  db : Db := {}
  facts : List DecisionFact := []
  outputs : List ToolOutput := []

/-- `put` of tool outputs: `INSERT OR IGNORE`. -/
def putOutput (outputs : List ToolOutput) (write : ToolOutput) : List ToolOutput :=
  if outputs.any (·.outputId = write.outputId) then outputs else outputs ++ [write]

/-- `DELETE FROM session WHERE id = ?`, which takes the session's actions with it. -/
def Db.deleteSession (db : Db) (id : String) : Db where
  sessions := db.sessions.filter (·.id ≠ id)
  actions := db.actions.filter (·.sessionId ≠ id)
  armed := db.armed

/-- The compensation of `indexed`. -/
def SessionFile.compensate (file : SessionFile) (id : String) : SessionFile :=
  { file with db := file.db.deleteSession id, outputs := [] }

inductive IndexPoint where
  | begin | insert | commit
deriving DecidableEq

inductive IndexFault where
  | thrown (point : IndexPoint)
  | refused (refusal : CatalogRefusal)
deriving DecidableEq

/-- `index.transaction(() => index.indexSession(…))`, with the point that throws, if one does. -/
def Catalog.indexUnit (catalog : Catalog) (id : String) (hasRequests : Bool) (throwsAt : Option IndexPoint) :
    Except IndexFault Bool × Catalog :=
  match throwsAt with
  | some .begin => (.error (.thrown .begin), catalog)
  | some .insert => (.error (.thrown .insert), catalog)
  | some .commit =>
    match catalog.indexSession id hasRequests with
    | .error refusal => (.error (.refused refusal), catalog)
    | .ok _ => (.error (.thrown .commit), catalog)
  | none =>
    match catalog.indexSession id hasRequests with
    | .error refusal => (.error (.refused refusal), catalog)
    | .ok (inserted, catalog') => (.ok inserted, catalog')

inductive CreationRefusal where
  | invalid
  | duplicate (sessionId : String)
  | write (refusal : Refusal)
  | index (fault : IndexFault)
  | orphanIndex (sessionId : String)
deriving DecidableEq

inductive Creation where
  | create (input : Materialize)
  | fork (input : Materialize) (copies : List Append) (outputs : List ToolOutput)

def Creation.input : Creation → Materialize
  | create input => input
  | fork input _ _ => input

def Creation.sessionId (creation : Creation) : String := creation.input.row.id

def Creation.rows : Creation → List Append
  | create input => [input.initialAction]
  | fork input copies _ => input.initialAction :: copies

def Creation.hasRequests : Creation → Bool
  | create _ => false
  | fork _ copies _ => copies.any (·.kind = .request)

section Creations
variable [PlainCoding]

def Creation.write (rowByteCap : ℕ) (creation : Creation) (file : SessionFile) : Except CreationRefusal SessionFile :=
  match creation with
  | create input =>
    match materializeSession rowByteCap file.db input with
    | .error refusal => .error (.write refusal)
    | .ok (.existing _, _) => .error (.duplicate input.row.id)
    | .ok (.created _ _, db) => .ok { file with db }
  | fork input copies outputs =>
    match forkSession rowByteCap file.db input copies with
    | .error refusal => .error (.write refusal)
    | .ok (_, db) => .ok { file with db, outputs := outputs.foldl putOutput file.outputs }

/-- `SessionStore.create` and `SessionStore.fork`: how they end, and the two files they leave. -/
def Creation.run (rowByteCap : ℕ) (creation : Creation) (throwsAt : Option IndexPoint) (file : SessionFile)
    (catalog : Catalog) : Except CreationRefusal Unit × SessionFile × Catalog :=
  if !creation.input.valid then (.error .invalid, file, catalog)
  else match creation.write rowByteCap file with
    | .error refusal => (.error refusal, file, catalog)
    | .ok written =>
      match catalog.indexUnit creation.sessionId creation.hasRequests throwsAt with
      | (.ok true, catalog') => (.ok (), written, catalog')
      | (.ok false, catalog') =>
        (.error (.orphanIndex creation.sessionId), written.compensate creation.sessionId, catalog')
      | (.error fault, catalog') => (.error (.index fault), written.compensate creation.sessionId, catalog')

def IndexFailed (outcome : Except CreationRefusal Unit) : Prop :=
  (∃ fault, outcome = .error (.index fault)) ∨ ∃ id, outcome = .error (.orphanIndex id)

/-- What the compensation gives back: nothing but rows of the new session was written, no alarm of theirs stays in the
armed index or leaves it, and there was no tool output. -/
structure Undoable (creation : Creation) (file : SessionFile) : Prop where
  rows : ∀ row ∈ creation.rows, row.sessionId = creation.sessionId
  armed : creation.rows.foldlM applyDelta file.db.armed = .ok file.db.armed
  outputs : file.outputs = []

section Writes
variable {cap : ℕ} {db db' : Db}

/-- The foreign key of the action table, which every chain of writes keeps (`ChainInv.owned`). -/
def Db.Owned (db : Db) : Prop := ∀ action ∈ db.actions, ∃ session ∈ db.sessions, session.id = action.sessionId

omit [PlainCoding] in
lemma map_bumpRevision_filter (sessions : List Row) (id : String) (revision : ℕ) :
    (sessions.map (bumpRevision id revision)).filter (·.id ≠ id) = sessions.filter (·.id ≠ id) := by
  induction sessions with
  | nil => rfl
  | cons row sessions ih =>
    rw [map_cons, filter_cons, filter_cons, bumpRevision_id, ih]
    by_cases hid : row.id = id
    · simp [hid]
    · have hsame : bumpRevision id revision row = row := if_neg fun h => hid h.1
      simp [hid, hsame]

variable {receipt : Receipt}

theorem forkCopies_sessions {head : Receipt} {copies : List Append} {id : String}
    (h : forkCopies cap db receipt copies = .ok (head, db')) (hcopies : ∀ copy ∈ copies, copy.sessionId = id) :
    db'.sessions.filter (·.id ≠ id) = db.sessions.filter (·.id ≠ id) := by
  induction copies generalizing db receipt with
  | nil =>
    simp only [forkCopies, Except.ok.injEq, Prod.mk.injEq] at h
    rw [h.2]
  | cons copy copies ih =>
    obtain ⟨appended, next, hfirst, hrest⟩ := forkCopies_cons h
    have hid := hcopies copy mem_cons_self
    rw [ih hrest fun other hother => hcopies other (mem_cons_of_mem copy hother),
      (appendAction_ok hfirst).2.2.sessions, hid, map_bumpRevision_filter]

theorem materializeSession_sessions {input : Materialize} {row : Row}
    (h : materializeSession cap db input = .ok (.created row receipt, db')) :
    (∀ session ∈ db.sessions, session.id ≠ input.row.id) ∧ input.initialAction.sessionId = input.row.id ∧
      db'.sessions.filter (·.id ≠ input.row.id) = db.sessions := by
  rcases materializeSession_ok h with ⟨_, hexisting, _⟩ | ⟨_, _, inserted, _, _, hid, _, _, hinsert, happend, _⟩
  · cases hexisting
  · obtain ⟨hnew, rfl⟩ := insertSession_some hinsert
    refine ⟨hnew, hid, ?_⟩
    have hkept : db.sessions.filter (·.id ≠ input.row.id) = db.sessions := by
      rw [filter_eq_self]
      intro session hsession
      simpa using hnew session hsession
    rw [(appendAction_ok happend).2.2.sessions, hid, map_bumpRevision_filter, filter_append, hkept]
    simp

end Writes

structure CreationWritten (creation : Creation) (file written : SessionFile) : Prop where
  wrote : Wrote creation.rows file.db written.db
  new : ∀ session ∈ file.db.sessions, session.id ≠ creation.sessionId
  sessions : (∀ row ∈ creation.rows, row.sessionId = creation.sessionId) →
    written.db.sessions.filter (·.id ≠ creation.sessionId) = file.db.sessions
  facts : written.facts = file.facts

variable {cap : ℕ} {creation : Creation} {file written : SessionFile} {catalog : Catalog}
  {throwsAt : Option IndexPoint} {source anchorId : String} {rows : List Node} {copies : List Append}

lemma Creation.write_ok (h : creation.write cap file = .ok written) : CreationWritten creation file written := by
  cases creation with
  | create input =>
    unfold Creation.write at h
    simp only [] at h
    split at h
    · cases h
    · cases h
    · rename_i row receipt db hmaterialize
      cases h
      obtain ⟨hnew, _, hsessions⟩ := materializeSession_sessions hmaterialize
      exact ⟨materializeSession_wrote hmaterialize, hnew, fun _ => hsessions, rfl⟩
  | fork input copies outputs =>
    unfold Creation.write at h
    simp only [] at h
    split at h
    · cases h
    · rename_i out db hfork
      cases h
      obtain ⟨row, receipt, mid, head, hmaterialize, hcopies, _⟩ := forkSession_ok hfork
      obtain ⟨hnew, _, hsessions⟩ := materializeSession_sessions hmaterialize
      refine ⟨(materializeSession_wrote hmaterialize).trans (forkCopies_wrote hcopies), hnew, fun hrows => ?_, rfl⟩
      have hown : ∀ copy ∈ copies, copy.sessionId = input.row.id := fun copy hcopy =>
        hrows copy (mem_cons_of_mem input.initialAction hcopy)
      exact (forkCopies_sessions hcopies hown).trans hsessions

lemma compensate_eq_iff (hwritten : CreationWritten creation file written) (howned : file.db.Owned) :
    written.compensate creation.sessionId = file ↔ Undoable creation file := by
  obtain ⟨added, hactions, hadded⟩ := hwritten.wrote.actions
  -- No row of the new session was there before.
  have hold : file.db.actions.filter (·.sessionId ≠ creation.sessionId) = file.db.actions := by
    rw [filter_eq_self]
    intro action haction
    obtain ⟨session, hsession, hid⟩ := howned action haction
    have hne := hwritten.new session hsession
    rw [hid] at hne
    simpa using hne
  have hrows : (∀ row ∈ creation.rows, row.sessionId = creation.sessionId) ↔
      added.filter (·.sessionId ≠ creation.sessionId) = [] := by
    rw [filter_eq_nil_iff, ← hadded, forall_mem_map]
    apply forall_congr'
    intro node
    simp
  have hkept : (written.compensate creation.sessionId).db.actions =
      file.db.actions ++ added.filter (·.sessionId ≠ creation.sessionId) := by
    change written.db.actions.filter _ = _
    rw [hactions, filter_append, hold]
  constructor
  · intro h
    refine ⟨?rows, ?armed, ?outputs⟩
    case rows =>
      rw [hrows]
      rw [h] at hkept
      exact self_eq_append_right.mp hkept
    case armed =>
      have harmed : written.db.armed = file.db.armed := congrArg (·.db.armed) h
      exact hwritten.wrote.armed.trans (congrArg Except.ok harmed)
    case outputs => exact (congrArg (·.outputs) h).symm
  · intro h
    have hnone := hrows.mp h.rows
    rw [hnone, append_nil] at hkept
    have hsessions := hwritten.sessions h.rows
    have harmed : written.db.armed = file.db.armed := by
      have hboth := hwritten.wrote.armed.symm.trans h.armed
      exact Except.ok.inj hboth
    have hdb : written.db.deleteSession creation.sessionId = file.db := by
      change written.db.actions.filter (·.sessionId ≠ creation.sessionId) = file.db.actions at hkept
      unfold Db.deleteSession
      rw [hsessions, harmed, hkept]
    unfold SessionFile.compensate
    rw [hdb, hwritten.facts, ← h.outputs]

omit [PlainCoding] in
theorem Catalog.indexUnit_failed {id : String} {hasRequests : Bool}
    (h : (catalog.indexUnit id hasRequests throwsAt).1 ≠ .ok true) :
    (catalog.indexUnit id hasRequests throwsAt).2 = catalog := by
  have hindex : ∀ catalog', catalog.indexSession id hasRequests = .ok (false, catalog') → catalog' = catalog := by
    intro catalog' hok
    unfold Catalog.indexSession at hok
    cases hnewer : catalog.refuseNewerSchema .indexSession with
    | error refusal => simp [hnewer, bind, Except.bind] at hok
    | ok u =>
      simp only [hnewer, bind, Except.bind] at hok
      split at hok
      · simp only [pure, Except.pure, Except.ok.injEq, Prod.mk.injEq] at hok
        exact hok.2.symm
      · simp [pure, Except.pure] at hok
  unfold Catalog.indexUnit at h ⊢
  split
  · rfl
  · rfl
  · split <;> rfl
  · split
    · rfl
    · rename_i inserted catalog' hok
      cases inserted with
      | true => simp [hok] at h
      | false => exact hindex catalog' hok

omit [PlainCoding] in
lemma not_indexFailed_write {refusal : Refusal} : ¬ IndexFailed (.error (.write refusal)) := by
  rintro (⟨fault, h⟩ | ⟨id, h⟩) <;> cases h

omit [PlainCoding] in
lemma not_indexFailed_ok : ¬ IndexFailed (.ok ()) := by
  rintro (⟨fault, h⟩ | ⟨id, h⟩) <;> cases h

lemma Creation.write_error {refusal : CreationRefusal} (h : creation.write cap file = .error refusal) :
    ¬ IndexFailed (.error refusal) := by
  cases creation with
  | create input =>
    unfold Creation.write at h
    simp only [] at h
    split at h
    · cases h
      exact not_indexFailed_write
    · cases h
      rintro (⟨fault, h⟩ | ⟨id, h⟩) <;> cases h
    · cases h
  | fork input copies outputs =>
    unfold Creation.write at h
    simp only [] at h
    split at h
    · cases h
      exact not_indexFailed_write
    · cases h

theorem Creation.run_failed (h : IndexFailed (creation.run cap throwsAt file catalog).1) : ∃ written,
    CreationWritten creation file written ∧
      (creation.run cap throwsAt file catalog).2 = (written.compensate creation.sessionId, catalog) := by
  unfold Creation.run at h ⊢
  by_cases hvalid : (!creation.input.valid) = true
  · rw [if_pos hvalid] at h
    rcases h with ⟨fault, h⟩ | ⟨id, h⟩ <;> cases h
  · rw [if_neg hvalid] at h ⊢
    cases hwrite : creation.write cap file with
    | error refusal =>
      rw [hwrite] at h
      exact absurd h (Creation.write_error hwrite)
    | ok written =>
      refine ⟨written, Creation.write_ok hwrite, ?_⟩
      rw [hwrite] at h
      simp only [] at h ⊢
      have hcatalog : (catalog.indexUnit creation.sessionId creation.hasRequests throwsAt).1 ≠ .ok true →
          (catalog.indexUnit creation.sessionId creation.hasRequests throwsAt).2 = catalog := Catalog.indexUnit_failed
      rcases hunit : catalog.indexUnit creation.sessionId creation.hasRequests throwsAt with ⟨outcome, catalog'⟩
      rw [hunit] at h hcatalog
      cases outcome with
      | error fault =>
        obtain rfl : catalog' = catalog := hcatalog (by simp)
        rfl
      | ok indexed =>
        cases indexed with
        | true => exact absurd h not_indexFailed_ok
        | false =>
          obtain rfl : catalog' = catalog := hcatalog (by simp)
          rfl

/-- Where the index row of a creation is refused or its transaction throws, both files are as they were exactly where
the creation wrote rows of the new session only, moved no alarm of the armed index, and found no tool output. -/
theorem creation_all_or_nothing {cap : ℕ} {creation : Creation} {throwsAt : Option IndexPoint} {file : SessionFile}
    {catalog : Catalog} (howned : file.db.Owned) (h : IndexFailed (creation.run cap throwsAt file catalog).1) :
    (creation.run cap throwsAt file catalog).2 = (file, catalog) ↔ Undoable creation file := by
  obtain ⟨written, hwritten, hrun⟩ := Creation.run_failed h
  rw [hrun, Prod.mk.injEq, compensate_eq_iff hwritten howned]
  simp

omit [PlainCoding] in
lemma applyDelta_empty {action : Append} (h : isArmRow action = false) : applyDelta [] action = .ok [] := by
  unfold applyDelta armedAlarmDelta
  by_cases hkind : action.kind = .alarm
  · have hop : action.intent.get? "op" ≠ some (.str "arm") := by
      intro hop
      simp [isArmRow, hkind, hop] at h
    have hnone : armDeltaIntent action.intent = none := by
      unfold armDeltaIntent
      simp [guard, hop, failure]
    rw [if_neg (not_not.mpr hkind), hnone]
    cases firedDeltaIntent action.intent <;> rfl
  · rw [if_pos hkind]

omit [PlainCoding] in
lemma foldl_applyDelta_empty {actions : List Append} (h : ∀ action ∈ actions, isArmRow action = false) :
    actions.foldlM applyDelta [] = .ok [] := by
  induction actions with
  | nil => rfl
  | cons action actions ih =>
    rw [foldlM_cons, applyDelta_empty (h action mem_cons_self)]
    exact ih fun other hother => h other (mem_cons_of_mem action hother)

omit [PlainCoding] in
lemma isArmRow_copyAction (node : Node) (childId : String) (ids renames : List (String × String)) :
    isArmRow (copyAction node childId ids renames) = isArmRow node.toAppend := by
  have hop : (copyAction node childId ids renames).intent.get? "op" = node.intent.get? "op" :=
    remapPayload_get? renames node.intent (by decide) (by decide)
  have hkind : (copyAction node childId ids renames).kind = node.kind := rfl
  unfold isArmRow
  simp only [hop, hkind]

omit [PlainCoding] in
theorem planCopies_rows {childId : String} (h : planCopies source childId anchorId rows = some copies) :
    ∀ copy ∈ copies, copy.sessionId = childId ∧ isArmRow copy = false := by
  unfold planCopies at h
  split at h
  · cases h
  · split at h
    · cases h
    · cases h
      intro copy hcopy
      obtain ⟨node, hnode, rfl⟩ := mem_map.mp hcopy
      have hkept := (mem_filter.mp hnode).2
      refine ⟨rfl, ?_⟩
      rw [isArmRow_copyAction]
      simp only [isForkExcluded, Bool.not_or, Bool.and_eq_true, Bool.not_eq_true'] at hkept
      exact hkept.2

omit [PlainCoding] in
theorem planned_fork_undoable {input : Materialize} {outputs : List ToolOutput}
    (hplan : planCopies source input.row.id anchorId rows = some copies)
    (hsession : input.initialAction.sessionId = input.row.id) (hkind : input.initialAction.kind = .sessionConfigure) :
    Undoable (.fork input copies outputs) {} where
  rows := by
    intro row hrow
    rcases mem_cons.mp hrow with rfl | hcopy
    · exact hsession
    · exact (planCopies_rows hplan row hcopy).1
  armed := by
    apply foldl_applyDelta_empty
    intro row hrow
    rcases mem_cons.mp hrow with rfl | hcopy
    · simp [isArmRow, hkind]
    · exact (planCopies_rows hplan row hcopy).2
  outputs := rfl

end Creations

namespace CreationSample

attribute [local instance] textCoding

open ForkSample

def shared : SessionFile where
  db := writes 1000000 [.materialize ⟨parentRow, configured "p:configure" "p" "create"⟩] {}
  outputs := [⟨"sha256:00", [104, 105], none⟩]

def orphaned : Catalog := { rows := [{ id := "p" }, { id := "c" }] }

/-- A second session in the file, which its index row refuses: the outputs of the first one are gone. -/
theorem refused_index_drops_outputs :
    IndexFailed ((Creation.create child).run 1000000 none shared orphaned).1 ∧
      ((Creation.create child).run 1000000 none shared orphaned).2 ≠ (shared, orphaned) := by
  have hfacts : ((Creation.create child).run 1000000 none shared orphaned).1 = .error (.orphanIndex "c") ∧
      ((Creation.create child).run 1000000 none shared orphaned).2.1.outputs = [] ∧ shared.outputs ≠ [] := by
    decide +kernel
  obtain ⟨hfailed, hgone, hheld⟩ := hfacts
  refine ⟨Or.inr ⟨"c", hfailed⟩, fun h => ?_⟩
  rw [h] at hgone
  exact hheld hgone

def childFile : SessionFile := {}

def planned : Creation := .fork child (copies begun "a") []

/-- A planned fork whose index row is refused leaves nothing. -/
theorem creation_all_or_nothing_fork : (planned.run 1000000 none childFile orphaned).2 = (childFile, orphaned) := by
  have hfacts : (planned.run 1000000 none childFile orphaned).1 = .error (.orphanIndex "c") ∧
      planCopies "p" child.row.id "a" ((writes 1000000 begun {}).rows "p") = some (copies begun "a") := by
    decide +kernel
  have hfailed : IndexFailed (planned.run 1000000 none childFile orphaned).1 := by
    exact Or.inr ⟨"c", hfacts.1⟩
  have howned : childFile.db.Owned := fun _ h => nomatch h
  have hundoable : Undoable planned childFile := planned_fork_undoable hfacts.2 rfl rfl
  exact (creation_all_or_nothing howned hfailed).mpr hundoable

end CreationSample
end OpenOmni
