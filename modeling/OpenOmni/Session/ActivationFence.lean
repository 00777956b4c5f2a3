import OpenOmni.Lib.Run
import OpenOmni.Store.Catalog

/-! The fences of a session in two databases: the catalog allocates them, activations and other
writers adopt them into the session's file. -/
namespace OpenOmni
open List

open Transition

/-- `rotateActivationFence`: an unknown session is indexed again. -/
def rotateActivationFence (catalog : Catalog) (row : Row) (hasRequests : Bool) :
    Except CatalogRefusal (ℕ × Catalog) :=
  match catalog.rotateFence row.id with
  | .error (.sessionNotFound _) => do
    let (_, indexed) ← catalog.indexSession row.id hasRequests
    indexed.rotateFence row.id
  | rotated => rotated

section
variable [PlainCoding]

/-- The catalog, a session file, the rows that writers read of it, and the fences the catalog handed
out. -/
structure FenceSystem where
  catalog : Catalog := {}
  file : Db := {}
  heads : List Row := []
  allocated : List (String × ℕ) := []

inductive FenceEvent where
  | rotate (sessionId : String)
  | index (sessionId : String) (hasRequests : Bool)
  | rebuild
  | readRow (row : Row)
  | adopt (sessionId owner : String) (fence : ℕ)
  | adoptAuthority (row : Row) (owner : String)
  | write (op : WriteOp)

def FenceSystem.adopt (cap : ℕ) (s : FenceSystem) (input : AdoptFence) : FenceSystem :=
  { s with file := (write cap (.adoptFence input) s.file).2 }

/-- One event. An activation adopts a fence it was handed out, at any time or never;
`adoptSessionAuthority` adopts the fence after that of a row it read, which another owner holds; a
rebuilt catalog knows no session; a session is created under no fence. -/
inductive FenceSystem.Step (cap : ℕ) (s : FenceSystem) : FenceEvent → FenceSystem → Prop where
  | rotate (sessionId : String) (fence : ℕ) (catalog : Catalog)
      (hrotated : s.catalog.rotateFence sessionId = .ok (fence, catalog)) :
      Step cap s (.rotate sessionId)
        { s with catalog, allocated := (sessionId, fence) :: s.allocated }
  | index (sessionId : String) (hasRequests inserted : Bool) (catalog : Catalog)
      (hindexed : s.catalog.indexSession sessionId hasRequests = .ok (inserted, catalog)) :
      Step cap s (.index sessionId hasRequests) { s with catalog }
  | rebuild : Step cap s .rebuild { s with catalog := { s.catalog with rows := [] } }
  | readRow (row : Row) (hrow : row ∈ s.file.sessions) :
      Step cap s (.readRow row) { s with heads := row :: s.heads }
  | adopt (sessionId owner : String) (fence : ℕ) (hallocated : (sessionId, fence) ∈ s.allocated) :
      Step cap s (.adopt sessionId owner fence) (s.adopt cap ⟨sessionId, owner, fence⟩)
  | adoptAuthority (row : Row) (owner : String) (hrow : row ∈ s.heads)
      (howner : row.fenceOwner ≠ some owner) :
      Step cap s (.adoptAuthority row owner) (s.adopt cap ⟨row.id, owner, row.fence + 1⟩)
  | write (op : WriteOp) (hop : ∀ input, op ≠ .adoptFence input)
      (hcreated : ∀ row ∈ op.createdRows, row.fence = 0) :
      Step cap s (.write op) { s with file := (write cap op s.file).2 }

/-- The next fence that the catalog hands an activation is above the file's. -/
def FencesFresh (s : FenceSystem) : Prop :=
  ∀ row ∈ s.file.sessions, ∀ hasRequests fence catalog,
    rotateActivationFence s.catalog row hasRequests = .ok (fence, catalog) → row.fence < fence

/-- An adoption that raises the file's fence raises it to one the catalog has allocated. -/
def Covered (s : FenceSystem) (input : AdoptFence) : Prop :=
  s.catalog.newerFileVersion = none → input.valid = true → ∀ row ∈ s.file.sessions,
    row.id = input.sessionId → row.fence < input.fence → input.fence ≤ s.catalog.fence input.sessionId

/-- What keeps fences fresh, step by step: no adoption overtakes the catalog, and no catalog is
rebuilt once a fence was adopted. -/
def FenceEvent.Orderly (s : FenceSystem) : FenceEvent → Prop
  | .rebuild => s.catalog.newerFileVersion = none → ∀ row ∈ s.file.sessions, row.fence = 0
  | .adopt sessionId owner fence => Covered s ⟨sessionId, owner, fence⟩
  | .adoptAuthority row owner => Covered s ⟨row.id, owner, row.fence + 1⟩
  | _ => True

end

section
variable {catalog catalog' : Catalog} {row : Row} {hasRequests : Bool} {fence : ℕ}

lemma rotateFence_missing (hnewer : catalog.newerFileVersion = none)
    (hindex : catalog.sessionIndex row.id = none) :
    catalog.rotateFence row.id = .error (.sessionNotFound row.id) := by
  simp [Catalog.rotateFence, Catalog.refuseNewerSchema_none hnewer, hindex, bind, Except.bind, throw,
    throwThe, MonadExceptOf.throw]

lemma rotateFence_found {index : SessionIndexRow} (hnewer : catalog.newerFileVersion = none)
    (hindex : catalog.sessionIndex row.id = some index) :
    ∃ next, catalog.rotateFence row.id = .ok (index.fence + 1, next) := by
  simp [Catalog.rotateFence, Catalog.refuseNewerSchema_none hnewer, hindex, bind, Except.bind, pure,
    Except.pure]

theorem rotateActivationFence_ok
    (h : rotateActivationFence catalog row hasRequests = .ok (fence, catalog')) :
    catalog.newerFileVersion = none ∧ fence = catalog.fence row.id + 1 := by
  unfold rotateActivationFence at h
  split at h
  · rename_i hmissing
    cases hindexed : catalog.indexSession row.id hasRequests with
    | error refusal => simp [hindexed, bind, Except.bind] at h
    | ok result =>
      obtain ⟨inserted, indexed⟩ := result
      simp only [hindexed, bind, Except.bind] at h
      obtain ⟨hnone, -, -, hsame⟩ := Catalog.indexSession_ok hindexed
      obtain ⟨-, rfl, -⟩ := Catalog.rotateFence_ok h
      exact ⟨hnone, by rw [hsame]⟩
  · obtain ⟨hnone, rfl, -⟩ := Catalog.rotateFence_ok h
    exact ⟨hnone, rfl⟩

theorem exists_rotateActivationFence (hnewer : catalog.newerFileVersion = none) (row : Row)
    (hasRequests : Bool) :
    ∃ next, rotateActivationFence catalog row hasRequests = .ok (catalog.fence row.id + 1, next) := by
  have hdone : ∃ fence next, rotateActivationFence catalog row hasRequests = .ok (fence, next) := by
    unfold rotateActivationFence
    cases hindex : catalog.sessionIndex row.id with
    | some index =>
      obtain ⟨next, hnext⟩ := rotateFence_found hnewer hindex
      exact ⟨_, next, by rw [hnext]⟩
    | none =>
      rw [rotateFence_missing hnewer hindex]
      cases hindexed : catalog.indexSession row.id hasRequests with
      | error refusal =>
        simp only [Catalog.indexSession, Catalog.refuseNewerSchema_none hnewer, bind, Except.bind]
          at hindexed
        split at hindexed <;> contradiction
      | ok result =>
        obtain ⟨inserted, indexed⟩ := result
        obtain ⟨-, hnone, ⟨index, hfound⟩, -⟩ := Catalog.indexSession_ok hindexed
        obtain ⟨next, hnext⟩ := rotateFence_found hnone hfound
        exact ⟨_, next, hnext⟩
  obtain ⟨fence, next, hnext⟩ := hdone
  obtain ⟨-, rfl⟩ := rotateActivationFence_ok hnext
  exact ⟨next, hnext⟩

end

lemma fencesFresh_iff {s : FenceSystem} : FencesFresh s ↔
    (s.catalog.newerFileVersion = none → ∀ row ∈ s.file.sessions, row.fence ≤ s.catalog.fence row.id) := by
  constructor
  · intro h hnewer row hrow
    obtain ⟨next, hnext⟩ := exists_rotateActivationFence hnewer row false
    have hlt := h row hrow false _ next hnext
    omega
  · intro h row hrow hasRequests fence catalog hrotated
    obtain ⟨hnewer, rfl⟩ := rotateActivationFence_ok hrotated
    have hle := h hnewer row hrow
    omega

section
variable [PlainCoding] {cap : ℕ} {s t : FenceSystem} {event : FenceEvent}

theorem fencesFresh_adopt (hfresh : FencesFresh s) (hchain : ChainInv s.file) (input : AdoptFence) :
    Covered s input ↔ FencesFresh (s.adopt cap input) := by
  rw [fencesFresh_iff] at hfresh ⊢
  constructor
  · intro hcovered hnewer row' hrow'
    rcases write_adoptFence_sessions cap s.file input with hsame | ⟨hvalid, hraised⟩
    · exact hfresh hnewer row' (hsame ▸ hrow')
    · have hmem : row' ∈ s.file.sessions.map (adoptRow input) := hraised ▸ hrow'
      obtain ⟨row, hrow, rfl⟩ := mem_map.mp hmem
      unfold adoptRow
      split
      · rename_i hlower
        rw [hlower.1]
        exact hcovered hnewer hvalid row hrow hlower.1 hlower.2
      · exact hfresh hnewer row hrow
  · intro hafter hnewer hvalid row hrow hid hlt
    have hwrite := write_adoptFence_raises cap hchain hvalid hrow hid hlt
    have hmem : adoptRow input row ∈ (s.adopt cap input).file.sessions := by
      rw [FenceSystem.adopt, hwrite]
      exact mem_map_of_mem hrow
    have hle := hafter hnewer _ hmem
    have hraised : adoptRow input row = { row with fenceOwner := some input.owner, fence := input.fence } :=
      if_pos ⟨hid, hlt⟩
    rw [hraised, hid] at hle
    exact hle

lemma FenceSystem.Step.chainInv (hstep : FenceSystem.Step cap s event t) (h : ChainInv s.file) :
    ChainInv t.file := by
  cases hstep with
  | rotate | index | rebuild | readRow => exact h
  | adopt | adoptAuthority | write => exact (write_chainInv cap _ h).1

theorem FenceSystem.Step.fencesFresh_iff (hstep : FenceSystem.Step cap s event t)
    (hchain : ChainInv s.file) (hfresh : FencesFresh s) : event.Orderly s ↔ FencesFresh t := by
  cases hstep with
  | rotate sessionId fence catalog hrotated =>
    refine iff_of_true trivial (OpenOmni.fencesFresh_iff.mpr fun _ row hrow => ?_)
    obtain ⟨hnewer, -, -, -, hfences⟩ := Catalog.rotateFence_ok hrotated
    have hle := OpenOmni.fencesFresh_iff.mp hfresh hnewer row hrow
    simp only [hfences]
    split
    · rename_i hid
      rw [← hid]
      omega
    · exact hle
  | index sessionId hasRequests inserted catalog hindexed =>
    refine iff_of_true trivial (OpenOmni.fencesFresh_iff.mpr fun _ row hrow => ?_)
    obtain ⟨hnewer, -, -, hsame⟩ := Catalog.indexSession_ok hindexed
    simp only [hsame]
    exact OpenOmni.fencesFresh_iff.mp hfresh hnewer row hrow
  | rebuild =>
    rw [OpenOmni.fencesFresh_iff]
    simp [FenceEvent.Orderly, Catalog.fence, Catalog.sessionIndex]
  | readRow row hrow => exact iff_of_true trivial hfresh
  | adopt sessionId owner fence hallocated | adoptAuthority row owner hrow howner => exact fencesFresh_adopt hfresh hchain _
  | write op hop hcreated =>
    refine iff_of_true trivial (OpenOmni.fencesFresh_iff.mpr fun hnewer row' hrow' => ?_)
    obtain ⟨row, hrow, hid, hfence⟩ := write_fencesFrom cap s.file hop row' hrow'
    rcases mem_append.mp hrow with hold | hnew
    · rw [← hid, ← hfence]
      exact OpenOmni.fencesFresh_iff.mp hfresh hnewer row hold
    · have hzero := hcreated row hnew
      omega

theorem writes_fence_lt {ops : List WriteOp} {db : Db} {sessionId : String} {fence : ℕ}
    (hops : ∀ op ∈ ops, (∀ input, op ≠ .adoptFence input) ∧ ∀ row ∈ op.createdRows, row.fence = 0)
    (hlower : ∀ row ∈ db.sessions, row.id = sessionId → row.fence < fence) (hpos : 0 < fence) :
    ∀ row ∈ (writes cap ops db).sessions, row.id = sessionId → row.fence < fence := by
  induction ops generalizing db with
  | nil => exact hlower
  | cons op ops ih =>
    obtain ⟨hop, hcreated⟩ := hops op mem_cons_self
    refine ih (fun other hother => hops other (mem_cons_of_mem _ hother)) fun row' hrow' hid => ?_
    obtain ⟨row, hrow, hsame, hfence⟩ := write_fencesFrom cap db hop row' hrow'
    rcases mem_append.mp hrow with hold | hnew
    · rw [← hfence]
      exact hlower row hold (hsame.trans hid)
    · have hzero := hcreated row hnew
      omega

theorem FencesFresh.activates (h : FencesFresh s) (hchain : ChainInv s.file) {row : Row}
    (hrow : row ∈ s.file.sessions) {hasRequests : Bool} {fence : ℕ} {catalog : Catalog}
    (hrotated : rotateActivationFence s.catalog row hasRequests = .ok (fence, catalog))
    {ops : List WriteOp}
    (hops : ∀ op ∈ ops, (∀ input, op ≠ .adoptFence input) ∧ ∀ row ∈ op.createdRows, row.fence = 0)
    {owner : String} (hvalid : AdoptFence.valid ⟨row.id, owner, fence⟩ = true) :
    (write cap (.adoptFence ⟨row.id, owner, fence⟩) (writes cap ops s.file)).1 =
      .ok (.adopted fence) := by
  have hlt := h row hrow hasRequests fence catalog hrotated
  obtain ⟨hlater, hkept⟩ := writes_chainInv cap ops hchain
  obtain ⟨row', hrow', hid, -⟩ := hkept row hrow
  have hheld : ∀ other ∈ s.file.sessions, other.id = row.id → other.fence < fence := by
    intro other hother hsame
    rw [hchain.session_unique hother hrow hsame]
    exact hlt
  have hlower := writes_fence_lt hops hheld (by omega) row' hrow' hid
  rw [write_adoptFence_raises cap hlater hvalid hrow' hid hlower]

/-- Fences stay fresh along a run exactly when its steps are orderly; and a fresh fence is adopted by
an activation that no other adoption overtakes. -/
theorem fence_allocation_fresh (cap : ℕ) (trace : List (FenceSystem × FenceEvent)) (s : FenceSystem)
    (h : Run (FenceSystem.Step cap) {} trace s) :
    ((∀ e ∈ trace, e.2.Orderly e.1) ↔ (∀ e ∈ trace, FencesFresh e.1) ∧ FencesFresh s) ∧
      (FencesFresh s → ∀ row ∈ s.file.sessions, ∀ hasRequests fence catalog,
        rotateActivationFence s.catalog row hasRequests = .ok (fence, catalog) → ∀ ops : List WriteOp,
        (∀ op ∈ ops, (∀ input, op ≠ .adoptFence input) ∧ ∀ row ∈ op.createdRows, row.fence = 0) →
        ∀ owner, AdoptFence.valid ⟨row.id, owner, fence⟩ = true →
          (write cap (.adoptFence ⟨row.id, owner, fence⟩) (writes cap ops s.file)).1 =
            .ok (.adopted fence)) := by
  have hinit : ChainInv ({} : FenceSystem).file := ChainInv.empty
  have hchain : ∀ a event b, ChainInv a.file → FenceSystem.Step cap a event b → ChainInv b.file :=
    fun a event b hinv hstep => hstep.chainInv hinv
  have hvisited := h.visits hinit hchain
  have hlast := h.preserves hinit hchain
  refine ⟨?_, fun hfresh row hrow hasRequests fence catalog hrotated ops hops owner hvalid =>
    hfresh.activates hlast hrow hrotated hops hvalid⟩
  have hstart : ChainInv ({} : FenceSystem).file ∧ FencesFresh {} :=
    ⟨hinit, fun row hrow => by simp at hrow⟩
  have hiff : (∀ e ∈ trace, e.2.Orderly e.1) ↔ _ :=
    h.forall_iff (P := fun a => ChainInv a.file ∧ FencesFresh a) hstart fun a event b hinv hstep => by
      rw [hstep.fencesFresh_iff hinv.1 hinv.2]
      exact ⟨fun hfresh => ⟨hstep.chainInv hinv.1, hfresh⟩, And.right⟩
  rw [hiff]
  exact ⟨fun hall => ⟨fun e he => (hall.1 e he).2, hall.2.2⟩,
    fun hall => ⟨fun e he => ⟨hvisited e he, hall.1 e he⟩, hlast, hall.2⟩⟩

end

namespace FenceSample

attribute [local instance] textCoding

def row : Row where
  toolsGeneration := 1
  systemHash := "system"
  policyGeneration := 1
  id := "s"
  parentId := none
  role := .resident
  fenceOwner := none
  fence := 0
  revision := 0
  state := .idle

def genesis : Append where
  id := "s:configure"
  parentId := none
  sessionId := "s"
  kind := .sessionConfigure
  intent := .record []
  effect := .record []
  ts := 0

/-- The file once the session is created, and the catalog that indexed it. -/
def created : FenceSystem where
  catalog := { rows := [{ id := "s" }] }
  file := (write 1000000 (.materialize ⟨row, genesis⟩) {}).2

lemma created_run : Run (FenceSystem.Step 1000000) {}
    [({}, .write (.materialize ⟨row, genesis⟩)), ({ created with catalog := {} }, .index "s" false)]
    created :=
  (Run.nil.snoc (.write (.materialize ⟨row, genesis⟩) (by simp) (by simp [WriteOp.createdRows, row]))).snoc
    (.index "s" false true _ rfl)

/-- The session once its first activation has adopted the fence it was handed. -/
def activated : FenceSystem where
  catalog := { rows := [{ id := "s", fence := 1 }] }
  file := (write 1000000 (.adoptFence ⟨"s", "a", 1⟩) created.file).2
  allocated := [("s", 1)]

theorem fence_allocation_fresh_activated :
    (write 1000000 (.adoptFence ⟨"s", "b", 2⟩) activated.file).1 = .ok (.adopted 2) := by
  have hrotated : Run (FenceSystem.Step 1000000) {} _ _ :=
    created_run.snoc (.rotate "s" 1 { rows := [{ id := "s", fence := 1 }] } rfl)
  have hactivated : Run (FenceSystem.Step 1000000) {} _ activated :=
    hrotated.snoc (.adopt "s" "a" 1 mem_cons_self)
  obtain ⟨hiff, hactivates⟩ := fence_allocation_fresh 1000000 _ activated hactivated
  have hcovered : Covered { created with
      catalog := { rows := [{ id := "s", fence := 1 }] }, allocated := [("s", 1)] } ⟨"s", "a", 1⟩ :=
    fun _ _ _ _ _ _ => by decide
  have hfresh := (hiff.mp (by
    simp only [mem_append, mem_cons, not_mem_nil, or_false, or_imp, forall_and, forall_eq]
    exact ⟨⟨⟨trivial, trivial⟩, trivial⟩, hcovered⟩)).2
  have hrow : { row with fence := 1, fenceOwner := some "a", revision := 1 } ∈ activated.file.sessions := by
    decide
  have hnewer : activated.catalog.newerFileVersion = none := rfl
  obtain ⟨next, hnext⟩ := exists_rotateActivationFence hnewer
    { row with fence := 1, fenceOwner := some "a", revision := 1 } false
  exact hactivates hfresh _ hrow false 2 next hnext [] (by simp) "b" (by decide)

/-- An executor adopts a fence that the catalog has not allocated: the next activation is refused. -/
theorem executor_overtakes : ∃ s, Reachable (· = ({} : FenceSystem)) (FenceSystem.Step 1000000) s ∧
    ¬ FencesFresh s := by
  have hhead : { row with revision := 1 } ∈ created.file.sessions := by decide
  have hread : Reachable (· = ({} : FenceSystem)) (FenceSystem.Step 1000000) _ :=
    ⟨{}, _, rfl, created_run.snoc (.readRow { row with revision := 1 } hhead)⟩
  have hadopted := hread.step (.adoptAuthority { row with revision := 1 } "executor"
    mem_cons_self (by decide))
  refine ⟨_, hadopted, fun hfresh => ?_⟩
  have hrow : { row with fence := 1, fenceOwner := some "executor", revision := 1 } ∈
      (write 1000000 (.adoptFence ⟨"s", "executor", 1⟩) created.file).2.sessions := by
    decide
  have hle := fencesFresh_iff.mp hfresh rfl _ hrow
  revert hle
  decide

end FenceSample

end OpenOmni
