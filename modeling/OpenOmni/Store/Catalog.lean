import OpenOmni.Store.Reads

/-! The catalog's index of session files: the fences it allocates and the hints it keeps. -/
namespace OpenOmni
open List

/-- `SessionIndexRow` with the columns that its updates touch. -/
structure SessionIndexRow where
  id : String
  fence : ℕ := 0
  hasArmed : Bool := false
  hasRequests : Bool := false
deriving DecidableEq

inductive CatalogOperation where
  | indexSession | rotateFence | markArmed | markRequests
deriving DecidableEq

inductive CatalogRefusal where
  | versionRefused (fileVersion : ℕ) (operation : CatalogOperation)
  | sessionNotFound (sessionId : String)
deriving DecidableEq

structure Catalog where
  newerFileVersion : Option ℕ := none
  rows : List SessionIndexRow := []
deriving DecidableEq

namespace Catalog

def refuseNewerSchema (catalog : Catalog) (operation : CatalogOperation) :
    Except CatalogRefusal Unit :=
  match catalog.newerFileVersion with
  | none => .ok ()
  | some fileVersion => .error (.versionRefused fileVersion operation)

def sessionIndex (catalog : Catalog) (id : String) : Option SessionIndexRow :=
  catalog.rows.find? (·.id = id)

/-- An `UPDATE … WHERE id = ?`. -/
def update (catalog : Catalog) (id : String) (set : SessionIndexRow → SessionIndexRow) : Catalog :=
  { catalog with rows := catalog.rows.map fun row => if row.id = id then set row else row }

/-- `indexSession`: a lost race is not an error. -/
def indexSession (catalog : Catalog) (id : String) (hasRequests : Bool) :
    Except CatalogRefusal (Bool × Catalog) := do
  catalog.refuseNewerSchema .indexSession
  if catalog.rows.any (·.id = id) then return (false, catalog)
  return (true, { catalog with rows := catalog.rows ++ [{ id, hasRequests }] })

/-- `rotateFence`: allocates the next fence. -/
def rotateFence (catalog : Catalog) (sessionId : String) : Except CatalogRefusal (ℕ × Catalog) := do
  catalog.refuseNewerSchema .rotateFence
  match catalog.sessionIndex sessionId with
  | none => throw (.sessionNotFound sessionId)
  | some row => return (row.fence + 1,
      catalog.update sessionId fun row => { row with fence := row.fence + 1 })

def markArmed (catalog : Catalog) (sessionId : String) (armed : Bool) :
    Except CatalogRefusal Catalog := do
  catalog.refuseNewerSchema .markArmed
  return catalog.update sessionId fun row => { row with hasArmed := armed }

def markRequests (catalog : Catalog) (sessionId : String) : Except CatalogRefusal Catalog := do
  catalog.refuseNewerSchema .markRequests
  return catalog.update sessionId fun row => { row with hasRequests := true }

/-- The fence last allocated; a session without an index row starts over. -/
def fence (catalog : Catalog) (id : String) : ℕ := ((catalog.sessionIndex id).map (·.fence)).getD 0

def armedHint (catalog : Catalog) (id : String) : Bool := (catalog.sessionIndex id).any (·.hasArmed)

variable {catalog catalog' : Catalog} {id other : String}

lemma sessionIndex_update {set : SessionIndexRow → SessionIndexRow} (hset : ∀ row, (set row).id = row.id) :
    (catalog.update id set).sessionIndex other =
      (catalog.sessionIndex other).map fun row => if row.id = id then set row else row := by
  have hid : ∀ row : SessionIndexRow, (if row.id = id then set row else row).id = row.id := by
    intro row
    split
    · exact hset row
    · rfl
  simp only [sessionIndex, update, find?_map, Function.comp_def, hid]

lemma sessionIndex_id {row : SessionIndexRow} (h : catalog.sessionIndex id = some row) : row.id = id := by
  simpa using find?_some h

lemma refuseNewerSchema_ok {operation : CatalogOperation} {u : Unit}
    (h : catalog.refuseNewerSchema operation = .ok u) : catalog.newerFileVersion = none := by
  unfold refuseNewerSchema at h
  split at h
  · assumption
  · contradiction

lemma refuseNewerSchema_none {operation : CatalogOperation} (h : catalog.newerFileVersion = none) :
    catalog.refuseNewerSchema operation = .ok () := by
  simp [refuseNewerSchema, h]

theorem rotateFence_ok {fence : ℕ} (h : catalog.rotateFence id = .ok (fence, catalog')) :
    catalog.newerFileVersion = none ∧ fence = catalog.fence id + 1 ∧
      catalog'.newerFileVersion = none ∧ (∃ row, catalog.sessionIndex id = some row) ∧
      ∀ other, catalog'.fence other = if other = id then catalog.fence id + 1 else catalog.fence other := by
  unfold rotateFence at h
  cases hnewer : catalog.refuseNewerSchema .rotateFence with
  | error refusal => simp [hnewer, bind, Except.bind] at h
  | ok u =>
    have hnone := refuseNewerSchema_ok hnewer
    simp only [hnewer, bind, Except.bind] at h
    split at h
    · simp [throw, throwThe, MonadExceptOf.throw] at h
    · rename_i row hrow
      simp only [pure, Except.pure, Except.ok.injEq, Prod.mk.injEq] at h
      obtain ⟨rfl, rfl⟩ := h
      refine ⟨hnone, by simp [Catalog.fence, hrow], hnone, ⟨row, hrow⟩, fun other => ?_⟩
      have hset : ∀ row : SessionIndexRow, { row with fence := row.fence + 1 }.id = row.id :=
        fun _ => rfl
      rw [Catalog.fence, sessionIndex_update hset]
      by_cases hother : other = id
      · subst hother
        simp [hrow, sessionIndex_id hrow, Catalog.fence]
      · cases hindex : catalog.sessionIndex other with
        | none => simp [hother, Catalog.fence, hindex]
        | some found =>
          have hne : found.id ≠ id := by
            rw [sessionIndex_id hindex]
            exact hother
          simp [hother, Catalog.fence, hindex, hne]

theorem indexSession_ok {hasRequests inserted : Bool}
    (h : catalog.indexSession id hasRequests = .ok (inserted, catalog')) :
    catalog.newerFileVersion = none ∧ catalog'.newerFileVersion = none ∧
      (∃ row, catalog'.sessionIndex id = some row) ∧ ∀ other, catalog'.fence other = catalog.fence other := by
  unfold indexSession at h
  cases hnewer : catalog.refuseNewerSchema .indexSession with
  | error refusal => simp [hnewer, bind, Except.bind] at h
  | ok u =>
    have hnone := refuseNewerSchema_ok hnewer
    simp only [hnewer, bind, Except.bind] at h
    split at h
    · rename_i hany
      simp only [pure, Except.pure, Except.ok.injEq, Prod.mk.injEq] at h
      obtain ⟨-, rfl⟩ := h
      refine ⟨hnone, hnone, Option.isSome_iff_exists.mp ?_, fun _ => rfl⟩
      rw [sessionIndex, find?_isSome]
      simpa using hany
    · rename_i hany
      simp only [pure, Except.pure, Except.ok.injEq, Prod.mk.injEq] at h
      obtain ⟨-, rfl⟩ := h
      have hindex : catalog.sessionIndex id = none := by
        rw [sessionIndex, find?_eq_none]
        simpa using hany
      refine ⟨hnone, hnone, ?_, fun other => ?_⟩
      · refine ⟨{ id, hasRequests }, ?_⟩
        simp only [sessionIndex] at hindex ⊢
        simp [find?_append, hindex]
      · simp only [Catalog.fence, sessionIndex, find?_append]
        by_cases hother : id = other
        · subst hother
          simp only [sessionIndex] at hindex
          simp [hindex]
        · simp [hother]

end Catalog

end OpenOmni
