import OpenOmni.Store.Write

/-! The chain every session file keeps: gap-free ordinals, unique ids, parents before children,
fences that only rise. -/
namespace OpenOmni
open List

def Db.rows (db : Db) (sessionId : String) : List Node :=
  db.actions.filter (·.sessionId = sessionId)

structure ChainInv (db : Db) : Prop where
  sessionIds : (db.sessions.map (·.id)).Nodup
  actionIds : (db.actions.map (·.id)).Nodup
  ordinals : ∀ s ∈ db.sessions, (db.rows s.id).map (·.ordinal) = List.range' 1 s.revision
  parents : ∀ a ∈ db.actions, ∀ p, a.parentId = some p →
    ∃ b ∈ db.actions, b.id = p ∧ b.sessionId = a.sessionId ∧ b.ordinal < a.ordinal
  owned : ∀ a ∈ db.actions, ∃ s ∈ db.sessions, s.id = a.sessionId

/-- A row's authority is the same or was taken over by a higher fence. -/
def FenceKept (row row' : Row) : Prop :=
  row.fence ≤ row'.fence ∧ (row'.fence = row.fence → row'.fenceOwner = row.fenceOwner)

def FencesKept (db db' : Db) : Prop :=
  ∀ s ∈ db.sessions, ∃ s' ∈ db'.sessions, s'.id = s.id ∧ FenceKept s s'

variable {row s : Row} {db db' : Db} {action : Append} {revision : ℕ} {receipt : Receipt} {actions : List Append}
  {receipts : List Receipt} {sessionId : String}

lemma FenceKept.of_eq {row' : Row} (hfence : row'.fence = row.fence) (howner : row'.fenceOwner = row.fenceOwner) :
    FenceKept row row' := ⟨hfence.ge, fun _ => howner⟩

lemma FencesKept.refl (db : Db) : FencesKept db db :=
  fun s hs => ⟨s, hs, rfl, FenceKept.of_eq rfl rfl⟩

lemma FencesKept.trans {a b c : Db} (hab : FencesKept a b) (hbc : FencesKept b c) :
    FencesKept a c := by
  intro s hs
  obtain ⟨t, ht, hid, hle, howner⟩ := hab s hs
  obtain ⟨u, hu, hid', hle', howner'⟩ := hbc t ht
  refine ⟨u, hu, hid'.trans hid, hle.trans hle', fun heq => ?_⟩
  have hmid : t.fence = s.fence := by omega
  exact (howner' (heq.trans hmid.symm)).trans (howner hmid)

theorem FencesKept.of_map (f : Row → Row) (hid : ∀ s, (f s).id = s.id) (hfence : ∀ s, FenceKept s (f s))
    (h : db'.sessions = db.sessions.map f) : FencesKept db db' := by
  intro s hs
  refine ⟨f s, ?_, hid s, hfence s⟩
  rw [h]
  exact mem_map_of_mem hs

lemma ChainInv.empty : ChainInv {} where
  sessionIds := nodup_nil
  actionIds := nodup_nil
  ordinals := by simp
  parents := by simp
  owned := by simp

lemma selectSession_some {id : String} (h : db.selectSession id = some row) : row ∈ db.sessions ∧ row.id = id := by
  have hid := find?_some h
  exact ⟨mem_of_find?_eq_some h, by simpa using hid⟩

lemma ChainInv.session_unique (h : ChainInv db) {t : Row} (hs : s ∈ db.sessions) (ht : t ∈ db.sessions)
    (hid : s.id = t.id) : s = t :=
  inj_on_of_nodup_map h.sessionIds hs ht hid

lemma ChainInv.ordinal_le (h : ChainInv db) {a : Node} (ha : a ∈ db.actions) (hs : s ∈ db.sessions)
    (hid : a.sessionId = s.id) : a.ordinal ≤ s.revision := by
  have hmem : a ∈ db.rows s.id := by simp [Db.rows, ha, hid]
  have hord : a.ordinal ∈ (db.rows s.id).map (·.ordinal) := mem_map_of_mem hmem
  rw [h.ordinals s hs, List.mem_range'_1] at hord
  omega

/-- The revision update of `appendValidatedAction`. -/
def bumpRevision (sessionId : String) (revision : ℕ) (row : Row) : Row :=
  if row.id = sessionId ∧ row.revision = revision then { row with revision := revision + 1 } else row

@[simp] theorem bumpRevision_id (sessionId : String) (revision : ℕ) (row : Row) :
    (bumpRevision sessionId revision row).id = row.id := by
  unfold bumpRevision
  split <;> rfl

lemma bumpRevision_fenceKept (sessionId : String) (revision : ℕ) (row : Row) :
    FenceKept row (bumpRevision sessionId revision row) := by
  unfold bumpRevision
  split <;> exact FenceKept.of_eq rfl rfl

/-- What an accepted append does: the row joins its session at the next ordinal. -/
structure Appended (db : Db) (action : Append) (revision : ℕ) (receipt : Receipt) (db' : Db) :
    Prop where
  session : ∃ s ∈ db.sessions, s.id = action.sessionId ∧ s.revision = revision
  fresh : ∀ a ∈ db.actions, a.id ≠ action.id
  receipt_eq : receipt = ⟨{ action with ordinal := revision + 1 }, revision + 1⟩
  sessions : db'.sessions = db.sessions.map (bumpRevision action.sessionId revision)
  actions : db'.actions = db.actions ++ [{ action with ordinal := revision + 1 }]
  armed : applyDelta db.armed action = .ok db'.armed

lemma insertAction_ok {node : Node} (h : insertAction db node = .ok db') :
    (∀ a ∈ db.actions, a.id ≠ node.id) ∧ db' = { db with actions := db.actions ++ [node] } := by
  unfold insertAction at h
  split at h
  · contradiction
  · rename_i hc
    simp only [Bool.or_eq_true, not_or] at hc
    refine ⟨fun a ha hid => hc.1.1.1 ?_, by simpa using h.symm⟩
    simp only [Db.actionExists, any_eq_true]
    exact ⟨a, ha, by simpa using hid⟩

lemma appendValidatedAction_ok (h : appendValidatedAction db action revision = .ok (some (receipt, db'))) :
    Appended db action revision receipt db' := by
  unfold appendValidatedAction at h
  split at h
  · rename_i hsession
    obtain ⟨s, hs, hrow⟩ := any_eq_true.mp hsession
    simp only [Bool.and_eq_true, decide_eq_true_eq] at hrow
    simp only [bind, Except.bind] at h
    split at h
    · contradiction
    rename_i inserted hinsert
    split at h
    · contradiction
    rename_i armed harmed
    simp only [pure, Except.pure, Except.ok.injEq, Option.some.injEq, Prod.mk.injEq] at h
    obtain ⟨rfl, rfl⟩ := h
    obtain ⟨hfresh, rfl⟩ := insertAction_ok hinsert
    exact ⟨⟨s, hs, hrow⟩, hfresh, rfl, rfl, rfl, harmed⟩
  · simp [pure, Except.pure] at h

theorem Appended.chainInv (h : Appended db action revision receipt db') (hdb : ChainInv db)
    (hparent : ∀ p, action.parentId = some p → ∃ b ∈ db.actions, b.id = p ∧ b.sessionId = action.sessionId) :
    ChainInv db' := by
  obtain ⟨s, hs, hsid, hsrev⟩ := h.session
  have hmap : db'.sessions.map (·.id) = db.sessions.map (·.id) := by
    rw [h.sessions, map_map]
    exact map_congr_left fun row _ => bumpRevision_id _ _ row
  refine ⟨?_, ?_, ?_, ?_, ?_⟩
  · rw [hmap]
    exact hdb.sessionIds
  · rw [h.actions, map_append, nodup_append]
    refine ⟨hdb.actionIds, nodup_singleton _, ?_⟩
    intro x hx y hy
    obtain ⟨a, ha, rfl⟩ := mem_map.mp hx
    obtain rfl := mem_singleton.mp hy
    exact h.fresh a ha
  · intro t ht
    rw [h.sessions] at ht
    obtain ⟨u, hu, rfl⟩ := mem_map.mp ht
    have hu' := hdb.ordinals u hu
    simp only [Db.rows] at hu'
    simp only [Db.rows, bumpRevision_id, h.actions, filter_append, map_append, hu']
    by_cases hid : u.id = action.sessionId
    · obtain rfl := hdb.session_unique hu hs (hid.trans hsid.symm)
      have hrange : List.range' 1 (revision + 1) = List.range' 1 revision ++ [revision + 1] := by
        rw [← List.range'_append_1]
        simp [Nat.add_comm]
      simp [bumpRevision, hid, hsrev, hrange]
    · have hne : action.sessionId ≠ u.id := fun heq => hid heq.symm
      simp [bumpRevision, hid, hne]
  · intro a ha p hp
    rw [h.actions] at ha ⊢
    rcases mem_append.mp ha with ha | ha
    · obtain ⟨b, hb, hbid⟩ := hdb.parents a ha p hp
      exact ⟨b, mem_append_left _ hb, hbid⟩
    · obtain rfl := mem_singleton.mp ha
      obtain ⟨b, hb, hbid, hbs⟩ := hparent p hp
      have hle := hdb.ordinal_le hb hs (hbs.trans hsid.symm)
      exact ⟨b, mem_append_left _ hb, hbid, hbs, by simp only; omega⟩
  · intro a ha
    have hids : ∀ id, (∃ s ∈ db.sessions, s.id = id) → ∃ s ∈ db'.sessions, s.id = id := by
      rintro id ⟨t, ht, rfl⟩
      rw [h.sessions]
      exact ⟨_, mem_map_of_mem ht, bumpRevision_id _ _ t⟩
    rw [h.actions] at ha
    rcases mem_append.mp ha with ha | ha
    · exact hids _ (hdb.owned a ha)
    · obtain rfl := mem_singleton.mp ha
      exact hids _ ⟨s, hs, hsid⟩

lemma Appended.fencesKept (h : Appended db action revision receipt db') : FencesKept db db' :=
  FencesKept.of_map _ (bumpRevision_id _ _) (bumpRevision_fenceKept _ _) h.sessions

inductive AppendedAll : Db → ℕ → List Append → List Receipt → Db → Prop where
  | nil (db : Db) (revision : ℕ) : AppendedAll db revision [] [] db
  | cons {db db' db'' : Db} {revision : ℕ} {action : Append} {actions : List Append}
      {receipt : Receipt} {receipts : List Receipt} :
      Appended db action revision receipt db' → AppendedAll db' (revision + 1) actions receipts db'' →
      AppendedAll db revision (action :: actions) (receipt :: receipts) db''

lemma appendValidatedActions_ok (h : appendValidatedActions db revision actions = .ok (some receipts, db')) :
    AppendedAll db revision actions receipts db' := by
  induction actions generalizing db revision receipts with
  | nil =>
    simp only [appendValidatedActions, Except.ok.injEq, Prod.mk.injEq, Option.some.injEq] at h
    obtain ⟨rfl, rfl⟩ := h
    exact .nil _ _
  | cons action actions ih =>
    simp only [appendValidatedActions, bind, Except.bind] at h
    split at h
    · contradiction
    rename_i first hfirst
    cases first with
    | none => simp [pure, Except.pure] at h
    | some pair =>
      obtain ⟨receipt, next⟩ := pair
      have happ := appendValidatedAction_ok hfirst
      simp only at h
      split at h
      · contradiction
      rename_i rest hrest
      obtain ⟨tail, final⟩ := rest
      simp only [pure, Except.pure, Except.ok.injEq, Prod.mk.injEq, Option.map_eq_some_iff] at h
      obtain ⟨⟨tail', rfl, rfl⟩, rfl⟩ := h
      have hrev : receipt.revision = revision + 1 := by rw [happ.receipt_eq]
      rw [hrev] at hrest
      exact .cons happ (ih hrest)

lemma AppendedAll.fencesKept (h : AppendedAll db revision actions receipts db') : FencesKept db db' := by
  induction h with
  | nil db => exact FencesKept.refl db
  | cons first _ ih => exact first.fencesKept.trans ih

lemma parentBelongsToSession_iff {parent : String} (h : db.parentBelongsToSession parent sessionId = true) :
    ∃ b ∈ db.actions, b.id = parent ∧ b.sessionId = sessionId := by
  unfold Db.parentBelongsToSession at h
  obtain ⟨b, hb, hs⟩ := (Option.any_eq_true _ _).mp h
  have hid := find?_some hb
  exact ⟨b, mem_of_find?_eq_some hb, by simpa using hid, by simpa using hs⟩

/-- A batch that passed `validActionBatch` against the tables `base` keeps the chain, row by row:
the ids seen so far are rows of the session by then. -/
theorem AppendedAll.chainInv {base : Db} {ids : List String} (h : AppendedAll db revision actions receipts db')
    (hdb : ChainInv db) (hvalid : validActions base sessionId ids actions = true)
    (hbase : ∀ a ∈ base.actions, a ∈ db.actions)
    (hids : ∀ p ∈ ids, ∃ b ∈ db.actions, b.id = p ∧ b.sessionId = sessionId) : ChainInv db' := by
  induction h generalizing ids with
  | nil => exact hdb
  | @cons db next db'' revision action actions receipt receipts first rest ih =>
    simp only [validActions, Bool.and_eq_true, decide_eq_true_eq] at hvalid
    obtain ⟨⟨⟨⟨hsession, -⟩, -⟩, hparent⟩, hrest⟩ := hvalid
    have hmem : ∀ a ∈ db.actions, a ∈ next.actions := by
      intro a ha
      rw [first.actions]
      exact mem_append_left _ ha
    have hp : ∀ p, action.parentId = some p →
        ∃ b ∈ db.actions, b.id = p ∧ b.sessionId = action.sessionId := by
      intro p hp
      rw [hp] at hparent
      simp only [Option.all_some, Bool.or_eq_true, contains_iff_mem] at hparent
      rw [hsession]
      rcases hparent with hseen | hbelongs
      · exact hids p hseen
      · obtain ⟨b, hb, hbid⟩ := parentBelongsToSession_iff hbelongs
        exact ⟨b, hbase b hb, hbid⟩
    refine ih (first.chainInv hdb hp) hrest (fun a ha => hmem a (hbase a ha)) ?_
    intro p hp
    rcases mem_cons.mp hp with rfl | hp
    · refine ⟨{ action with ordinal := revision + 1 }, ?_, rfl, hsession⟩
      rw [first.actions]
      exact mem_append_right _ (mem_singleton.mpr rfl)
    · obtain ⟨b, hb, hbid⟩ := hids p hp
      exact ⟨b, hmem b hb, hbid⟩

section
variable {db db' : Db}

def settleRow (c : Commit) (current row : Row) : Row :=
  if (row.id = c.sessionId && row.fenceOwner = some c.owner && row.fence = c.fence &&
      row.revision = current.revision + c.actions.length) then
    { row with
      toGenerationPointers := c.generation.getD current.toGenerationPointers, state := c.state }
  else row

@[simp] theorem settleRow_id (c : Commit) (current row : Row) :
    (settleRow c current row).id = row.id := by
  unfold settleRow
  split <;> rfl

lemma settleRow_fenceKept (c : Commit) (current row : Row) :
    FenceKept row (settleRow c current row) := by
  unfold settleRow
  split <;> exact FenceKept.of_eq rfl rfl

@[simp] theorem settleRow_revision (c : Commit) (current row : Row) :
    (settleRow c current row).revision = row.revision := by
  unfold settleRow
  split <;> rfl

def adoptRow (request : AdoptFence) (row : Row) : Row :=
  if row.id = request.sessionId ∧ row.fence < request.fence then
    { row with fenceOwner := some request.owner, fence := request.fence }
  else row

@[simp] theorem adoptRow_id (request : AdoptFence) (row : Row) :
    (adoptRow request row).id = row.id := by
  unfold adoptRow
  split <;> rfl

@[simp] theorem adoptRow_revision (request : AdoptFence) (row : Row) :
    (adoptRow request row).revision = row.revision := by
  unfold adoptRow
  split <;> rfl

lemma adoptRow_fenceKept (request : AdoptFence) (row : Row) :
    FenceKept row (adoptRow request row) := by
  unfold adoptRow
  split
  · rename_i hrow
    refine ⟨hrow.2.le, fun heq => ?_⟩
    simp only at heq
    omega
  · exact FenceKept.of_eq rfl rfl

theorem ChainInv.of_map_sessions (h : ChainInv db) (f : Row → Row) (hid : ∀ s, (f s).id = s.id)
    (hrev : ∀ s, (f s).revision = s.revision) (hactions : db'.actions = db.actions)
    (hsessions : db'.sessions = db.sessions.map f) : ChainInv db' := by
  have hmap : db'.sessions.map (·.id) = db.sessions.map (·.id) := by
    rw [hsessions, map_map]
    exact map_congr_left fun s _ => hid s
  refine ⟨?_, ?_, ?_, ?_, ?_⟩
  · rw [hmap]
    exact h.sessionIds
  · rw [hactions]
    exact h.actionIds
  · intro t ht
    rw [hsessions] at ht
    obtain ⟨s, hs, rfl⟩ := mem_map.mp ht
    simpa [Db.rows, hactions, hid, hrev] using h.ordinals s hs
  · rw [hactions]
    exact h.parents
  · intro a ha
    rw [hactions] at ha
    obtain ⟨s, hs, hsid⟩ := h.owned a ha
    rw [hsessions]
    exact ⟨f s, mem_map_of_mem hs, (hid s).trans hsid⟩

variable {row : Row} {request : AdoptFence} {fence : ℕ}

lemma insertSession_some (h : db.insertSession row = some db') :
    (∀ s ∈ db.sessions, s.id ≠ row.id) ∧ db' = { db with sessions := db.sessions ++ [row] } := by
  unfold Db.insertSession at h
  split at h
  · contradiction
  · rename_i hnew
    simp only [any_eq_true, decide_eq_true_eq, not_exists, not_and] at hnew
    exact ⟨hnew, by simpa using h.symm⟩

theorem ChainInv.insertSession (h : ChainInv db) (hins : db.insertSession row = some db') (hrev : row.revision = 0) :
    ChainInv db' := by
  obtain ⟨hnew, rfl⟩ := insertSession_some hins
  refine ⟨?_, h.actionIds, ?_, h.parents, ?_⟩
  · simp only [map_append, map_cons, map_nil, nodup_append]
    refine ⟨h.sessionIds, nodup_singleton _, ?_⟩
    intro x hx y hy
    obtain ⟨s, hs, rfl⟩ := mem_map.mp hx
    obtain rfl := mem_singleton.mp hy
    exact hnew s hs
  · intro s hs
    rcases mem_append.mp hs with hs | hs
    · exact h.ordinals s hs
    · obtain rfl := mem_singleton.mp hs
      have hnone : db.rows s.id = [] := by
        simp only [Db.rows, filter_eq_nil_iff, decide_eq_true_eq]
        intro a ha hid
        obtain ⟨t, ht, htid⟩ := h.owned a ha
        exact hnew t ht (htid.trans hid)
      simp only [Db.rows] at hnone ⊢
      simp [hnone, hrev]
  · intro a ha
    obtain ⟨s, hs, hid⟩ := h.owned a ha
    exact ⟨s, mem_append_left _ hs, hid⟩

lemma FencesKept.insertSession (hins : db.insertSession row = some db') : FencesKept db db' := by
  obtain ⟨-, rfl⟩ := insertSession_some hins
  exact fun s hs => ⟨s, mem_append_left _ hs, rfl, FenceKept.of_eq rfl rfl⟩

lemma adoptFence_ok (h : adoptFence db request = .ok (fence, db')) :
    ∃ current, db.selectSession request.sessionId = some current ∧ fence = request.fence ∧
      ((current.fenceOwner = some request.owner ∧ current.fence = request.fence ∧ db' = db) ∨
        (current.fence < request.fence ∧
          db' = { db with sessions := db.sessions.map (adoptRow request) })) := by
  unfold adoptFence at h
  split at h
  · contradiction
  rename_i current hcurrent
  split at h
  · rename_i hheld
    simp only [Except.ok.injEq, Prod.mk.injEq] at h
    exact ⟨current, hcurrent, h.1.symm, .inl ⟨hheld.1, hheld.2, h.2.symm⟩⟩
  split at h
  · contradiction
  rename_i hlower
  simp only [Except.ok.injEq, Prod.mk.injEq] at h
  exact ⟨current, hcurrent, h.1.symm, .inr ⟨by omega, h.2.symm⟩⟩

lemma adoptFence_chainInv (h : adoptFence db request = .ok (fence, db')) (hdb : ChainInv db) :
    ChainInv db' ∧ FencesKept db db' := by
  obtain ⟨current, -, -, ⟨-, -, rfl⟩ | ⟨-, rfl⟩⟩ := adoptFence_ok h
  · exact ⟨hdb, FencesKept.refl _⟩
  · exact ⟨hdb.of_map_sessions _ (adoptRow_id request) (adoptRow_revision request) rfl rfl,
      FencesKept.of_map _ (adoptRow_id request) (adoptRow_fenceKept request) rfl⟩

lemma commitValidated_ok {c : Commit} {current : Row} {receipts : List Receipt}
    (h : commitValidated db c current = .ok (some (.ok row receipts), db')) :
    ∃ mid, AppendedAll db current.revision c.actions receipts mid ∧ db'.actions = mid.actions ∧
      db'.armed = mid.armed ∧ db'.sessions = mid.sessions.map (settleRow c current) ∧
      db'.selectSession c.sessionId = some row := by
  simp only [commitValidated, pure, Except.pure, bind, Except.bind] at h
  split at h
  · contradiction
  rename_i appended happended
  obtain ⟨receipts', mid⟩ := appended
  cases receipts' with
  | none => simp at h
  | some receipts' =>
    simp only at h
    split at h
    · simp at h
    split at h
    · simp [throw, throwThe, MonadExceptOf.throw] at h
    rename_i row' hrow
    simp only [Except.ok.injEq, Prod.mk.injEq, Option.some.injEq, CommitResult.ok.injEq] at h
    obtain ⟨⟨rfl, rfl⟩, rfl⟩ := h
    exact ⟨mid, appendValidatedActions_ok happended, rfl, rfl, rfl, hrow⟩

end

section
variable [PlainCoding] {cap : ℕ} {db db' : Db}

structure Committed (cap : ℕ) (db : Db) (c : Commit) (row : Row) (receipts : List Receipt)
    (db' : Db) : Prop where
  authority : ∃ current, db.selectSession c.sessionId = some current ∧
    current.fenceOwner = some c.owner ∧ current.fence = c.fence ∧
    current.revision = c.expectedRevision ∧
    ∃ mid, AppendedAll db current.revision c.actions receipts mid ∧ db'.actions = mid.actions ∧
      db'.armed = mid.armed ∧ db'.sessions = mid.sessions.map (settleRow c current)
  approvals : ∀ r, c.requestCount = some r → db.sessionOpenApprovalCount r.since = r.count
  rows : ∀ a ∈ c.actions, refuseRow cap a = none
  batch : validActionBatch db c.actions c.sessionId = true
  row : db'.selectSession c.sessionId = some row

variable {c : Commit} {current row : Row} {receipts : List Receipt} {action : Append} {revision : ℕ}
  {receipt head : Receipt} {input : Materialize} {result : MaterializeResult} {copies : List Append}
  {out : WriteOutcome} {a : AdoptFence} {op : WriteOp}

lemma sessionAuthorityRefusal_none (h : sessionAuthorityRefusal db c current = none) :
    current.fenceOwner = some c.owner ∧ current.fence = c.fence ∧
      current.revision = c.expectedRevision ∧
      ∀ r, c.requestCount = some r → db.sessionOpenApprovalCount r.since = r.count := by
  unfold sessionAuthorityRefusal at h
  split at h
  · contradiction
  rename_i howner
  split at h
  · contradiction
  rename_i hrevision
  split at h
  · contradiction
  rename_i happrovals
  simp only [not_or, not_not] at howner hrevision
  refine ⟨howner.1, howner.2, hrevision, fun r hr => ?_⟩
  simpa [hr] using happrovals

lemma sessionAuthorityRefusal_ne_ok : sessionAuthorityRefusal db c current ≠ some (.ok row receipts) := by
  unfold sessionAuthorityRefusal
  split
  · simp
  split
  · simp
  split <;> simp

lemma commitSession_ok (h : commitSession cap db c = .ok (some (.ok row receipts), db')) :
    Committed cap db c row receipts db' := by
  unfold commitSession at h
  split at h
  · simp at h
  rename_i current hcurrent
  split at h
  · rename_i refusal hrefusal
    simp only [Except.ok.injEq, Prod.mk.injEq, Option.some.injEq] at h
    rw [h.1] at hrefusal
    exact (sessionAuthorityRefusal_ne_ok hrefusal).elim
  rename_i hauthority
  obtain ⟨howner, hfence, hrevision, happrovals⟩ := sessionAuthorityRefusal_none hauthority
  split at h
  · contradiction
  rename_i hrows
  split at h
  · simp at h
  rename_i hbatch
  obtain ⟨mid, happended, hactions, harmed, hsessions, hrow⟩ := commitValidated_ok h
  exact ⟨⟨current, hcurrent, howner, hfence, hrevision, mid, happended, hactions, harmed,
    hsessions⟩, happrovals, findSome?_eq_none_iff.mp hrows, by simpa using hbatch, hrow⟩

lemma Committed.chainInv (h : Committed cap db c row receipts db') (hdb : ChainInv db) : ChainInv db' := by
  obtain ⟨current, -, -, -, -, mid, happ, hactions, -, hsessions⟩ := h.authority
  have hmid : ChainInv mid := happ.chainInv hdb h.batch (fun _ ha => ha) (by simp)
  exact hmid.of_map_sessions _ (settleRow_id c current) (settleRow_revision c current) hactions
    hsessions

lemma Committed.fencesKept (h : Committed cap db c row receipts db') : FencesKept db db' := by
  obtain ⟨current, -, -, -, -, mid, happ, -, -, hsessions⟩ := h.authority
  exact happ.fencesKept.trans
    (FencesKept.of_map _ (settleRow_id c current) (settleRow_fenceKept c current)
      hsessions)

lemma appendAction_ok (h : appendAction cap db action revision = .ok (some (receipt, db'))) :
    refuseRow cap action = none ∧ validActionBatch db [action] action.sessionId = true ∧
      Appended db action revision receipt db' := by
  unfold appendAction at h
  split at h
  · contradiction
  rename_i hrow
  split at h
  · rename_i hbatch
    exact ⟨hrow, hbatch, appendValidatedAction_ok h⟩
  · simp at h

lemma appendAction_chainInv (h : appendAction cap db action revision = .ok (some (receipt, db')))
    (hdb : ChainInv db) : ChainInv db' := by
  obtain ⟨-, hbatch, happ⟩ := appendAction_ok h
  exact (AppendedAll.cons happ (.nil _ _)).chainInv hdb hbatch (fun _ ha => ha) (by simp)

theorem materializeSession_ok (h : materializeSession cap db input = .ok (result, db')) :
    (∃ row, result = .existing row ∧ db' = db) ∨
      ∃ row receipt inserted, result = .created row receipt ∧ input.row.revision = 0 ∧
        input.initialAction.sessionId = input.row.id ∧
        input.initialAction.kind = .sessionConfigure ∧ input.initialAction.parentId = none ∧
        db.insertSession input.row = some inserted ∧
        appendAction cap inserted input.initialAction 0 = .ok (some (receipt, db')) ∧
        db'.selectSession input.row.id = some row := by
  unfold materializeSession at h
  split at h
  · contradiction
  rename_i hinput
  simp only [not_or, not_not] at hinput
  obtain ⟨hsession, hkind, hparent, hrevision⟩ := hinput
  split at h
  · split at h
    · contradiction
    · rename_i existing hexisting
      simp only [Except.ok.injEq, Prod.mk.injEq] at h
      exact .inl ⟨existing, h.1.symm, h.2.symm⟩
  · rename_i inserted hinserted
    simp only [bind, Except.bind] at h
    split at h
    · contradiction
    rename_i first hfirst
    cases first with
    | none => simp [throw, throwThe, MonadExceptOf.throw] at h
    | some pair =>
      obtain ⟨receipt, next⟩ := pair
      simp only at h
      split at h
      · simp [throw, throwThe, MonadExceptOf.throw] at h
      rename_i row hrow
      simp only [pure, Except.pure, Except.ok.injEq, Prod.mk.injEq] at h
      obtain ⟨rfl, rfl⟩ := h
      exact .inr ⟨row, receipt, inserted, rfl, hrevision, hsession, hkind, hparent, hinserted,
        hfirst, hrow⟩

lemma materializeSession_chainInv (h : materializeSession cap db input = .ok (result, db')) (hdb : ChainInv db) :
    ChainInv db' ∧ FencesKept db db' := by
  rcases materializeSession_ok h with ⟨row, -, rfl⟩ | hcreated
  · exact ⟨hdb, FencesKept.refl _⟩
  · obtain ⟨row, receipt, inserted, -, hrev, -, -, -, hins, happ, -⟩ := hcreated
    have hinserted := hdb.insertSession hins hrev
    exact ⟨appendAction_chainInv happ hinserted,
      (FencesKept.insertSession hins).trans (appendAction_ok happ).2.2.fencesKept⟩

lemma forkCopies_cons {copy : Append} (h : forkCopies cap db receipt (copy :: copies) = .ok (head, db')) :
    ∃ appended next, appendAction cap db copy receipt.revision = .ok (some (appended, next)) ∧
      forkCopies cap next appended copies = .ok (head, db') := by
  unfold forkCopies at h
  split at h
  · contradiction
  simp only [bind, Except.bind] at h
  split at h
  · contradiction
  rename_i first hfirst
  cases first with
  | none => simp [throw, throwThe, MonadExceptOf.throw] at h
  | some pair =>
    obtain ⟨appended, next⟩ := pair
    exact ⟨appended, next, hfirst, h⟩

lemma forkCopies_chainInv (h : forkCopies cap db receipt copies = .ok (head, db')) (hdb : ChainInv db) :
    ChainInv db' ∧ FencesKept db db' := by
  induction copies generalizing db receipt with
  | nil =>
    simp only [forkCopies, Except.ok.injEq, Prod.mk.injEq] at h
    obtain ⟨-, rfl⟩ := h
    exact ⟨hdb, FencesKept.refl _⟩
  | cons copy copies ih =>
    obtain ⟨appended, next, hfirst, hrest⟩ := forkCopies_cons h
    obtain ⟨hchain, hkept⟩ := ih hrest (appendAction_chainInv hfirst hdb)
    exact ⟨hchain, (appendAction_ok hfirst).2.2.fencesKept.trans hkept⟩

theorem forkSession_ok {out : Row × String × ℕ} (h : forkSession cap db input copies = .ok (out, db')) :
    ∃ row receipt mid head, materializeSession cap db input = .ok (.created row receipt, mid) ∧
      forkCopies cap mid receipt copies = .ok (head, db') ∧
      out.2 = (head.action.id, copies.length) := by
  simp only [forkSession, bind, Except.bind] at h
  split at h
  · contradiction
  rename_i first hfirst
  obtain ⟨created, mid⟩ := first
  cases created with
  | existing row => simp [throw, throwThe, MonadExceptOf.throw] at h
  | created row receipt =>
    simp only at h
    split at h
    · contradiction
    rename_i last hlast
    obtain ⟨head, final⟩ := last
    simp only at h
    split at h
    · simp [throw, throwThe, MonadExceptOf.throw] at h
    simp only [pure, Except.pure, Except.ok.injEq, Prod.mk.injEq] at h
    obtain ⟨rfl, rfl⟩ := h
    exact ⟨row, receipt, mid, head, hfirst, hlast, rfl⟩

/-- A write that wrote nothing: a throw, or the `undefined` of an append. -/
def refused : Except Refusal WriteOutcome → Bool
  | .error _ => true
  | .ok (.appended none) => true
  | .ok _ => false

theorem runWrite_commit (h : runWrite cap (.commit c) db = .ok (out, db')) :
    ∃ row receipts, out = .committed row receipts ∧ c.valid = true ∧
      Committed cap db c row receipts db' := by
  simp only [runWrite] at h
  split at h
  · contradiction
  rename_i hvalid
  simp only [bind, Except.bind] at h
  split at h
  · contradiction
  rename_i result hresult
  obtain ⟨result, next⟩ := result
  match result with
  | none => simp [throw, throwThe, MonadExceptOf.throw] at h
  | some (.refused ..) => simp [throw, throwThe, MonadExceptOf.throw] at h
  | some (.ok row receipts) =>
    simp only [pure, Except.pure, Except.ok.injEq, Prod.mk.injEq] at h
    obtain ⟨rfl, rfl⟩ := h
    exact ⟨row, receipts, rfl, by simpa using hvalid, commitSession_ok hresult⟩

lemma runWrite_append (h : runWrite cap (.append action revision) db = .ok (out, db')) :
    (out = .appended none ∧ db' = db) ∨ ∃ receipt, out = .appended (some receipt) ∧
      appendAction cap db action revision = .ok (some (receipt, db')) := by
  simp only [runWrite] at h
  split at h
  · contradiction
  simp only [bind, Except.bind] at h
  split at h
  · contradiction
  rename_i result hresult
  match result with
  | none =>
    simp only [pure, Except.pure, Except.ok.injEq, Prod.mk.injEq] at h
    exact .inl ⟨h.1.symm, h.2.symm⟩
  | some (receipt, next) =>
    simp only [pure, Except.pure, Except.ok.injEq, Prod.mk.injEq] at h
    obtain ⟨rfl, rfl⟩ := h
    exact .inr ⟨receipt, rfl, hresult⟩

lemma runWrite_adoptFence (h : runWrite cap (.adoptFence a) db = .ok (out, db')) :
    ∃ fence, out = .adopted fence ∧ adoptFence db a = .ok (fence, db') := by
  simp only [runWrite] at h
  split at h
  · contradiction
  cases hadopt : adoptFence db a with
  | error refusal => simp [hadopt, Except.map] at h
  | ok result =>
    simp only [hadopt, Except.map, Except.ok.injEq, Prod.mk.injEq] at h
    obtain ⟨rfl, rfl⟩ := h
    exact ⟨result.1, rfl, rfl⟩

lemma runWrite_materialize (h : runWrite cap (.materialize input) db = .ok (out, db')) :
    ∃ result, out = .materialized result ∧
      materializeSession cap db input = .ok (result, db') := by
  simp only [runWrite] at h
  split at h
  · contradiction
  cases hmat : materializeSession cap db input with
  | error refusal => simp [hmat, Except.map] at h
  | ok result =>
    simp only [hmat, Except.map, Except.ok.injEq, Prod.mk.injEq] at h
    obtain ⟨rfl, rfl⟩ := h
    exact ⟨result.1, rfl, rfl⟩

lemma runWrite_fork (h : runWrite cap (.fork input copies) db = .ok (out, db')) :
    ∃ result, out = .forked result.1 result.2.1 result.2.2 ∧
      forkSession cap db input copies = .ok (result, db') := by
  simp only [runWrite] at h
  split at h
  · contradiction
  cases hfork : forkSession cap db input copies with
  | error refusal => simp [hfork, Except.map] at h
  | ok result =>
    simp only [hfork, Except.map, Except.ok.injEq, Prod.mk.injEq] at h
    obtain ⟨rfl, rfl⟩ := h
    exact ⟨result.1, rfl, rfl⟩

theorem runWrite_chainInv (h : runWrite cap op db = .ok (out, db')) (hdb : ChainInv db) :
    ChainInv db' ∧ FencesKept db db' := by
  cases op with
  | materialize input =>
    obtain ⟨result, -, hmat⟩ := runWrite_materialize h
    exact materializeSession_chainInv hmat hdb
  | adoptFence input =>
    obtain ⟨fence, -, hadopt⟩ := runWrite_adoptFence h
    exact adoptFence_chainInv hadopt hdb
  | commit input =>
    obtain ⟨row, receipts, -, -, hcommit⟩ := runWrite_commit h
    exact ⟨hcommit.chainInv hdb, hcommit.fencesKept⟩
  | append input revision =>
    rcases runWrite_append h with ⟨-, rfl⟩ | ⟨receipt, -, happ⟩
    · exact ⟨hdb, FencesKept.refl _⟩
    · exact ⟨appendAction_chainInv happ hdb, (appendAction_ok happ).2.2.fencesKept⟩
  | fork input copies =>
    obtain ⟨result, -, hfork⟩ := runWrite_fork h
    obtain ⟨row, receipt, mid, head, hmat, hcopies, -⟩ := forkSession_ok hfork
    obtain ⟨hmid, hkept⟩ := materializeSession_chainInv hmat hdb
    obtain ⟨hchain, hkept'⟩ := forkCopies_chainInv hcopies hmid
    exact ⟨hchain, hkept.trans hkept'⟩

lemma write_chainInv (cap : ℕ) (op : WriteOp) (hdb : ChainInv db) :
    ChainInv (write cap op db).2 ∧ FencesKept db (write cap op db).2 := by
  unfold write transaction
  cases h : runWrite cap op db with
  | error refusal => exact ⟨hdb, FencesKept.refl _⟩
  | ok result =>
    obtain ⟨out, next⟩ := result
    exact runWrite_chainInv h hdb

lemma writes_chainInv (cap : ℕ) (ops : List WriteOp) (hdb : ChainInv db) :
    ChainInv (writes cap ops db) ∧ FencesKept db (writes cap ops db) := by
  induction ops generalizing db with
  | nil => exact ⟨hdb, FencesKept.refl _⟩
  | cons op ops ih =>
    obtain ⟨hchain, hkept⟩ := write_chainInv cap op hdb
    obtain ⟨hchain', hkept'⟩ := ih hchain
    exact ⟨hchain', hkept.trans hkept'⟩

theorem write_refused (h : refused (write cap op db).1 = true) : (write cap op db).2 = db := by
  unfold write transaction at h ⊢
  cases hrun : runWrite cap op db with
  | error refusal => rfl
  | ok result =>
    obtain ⟨out, next⟩ := result
    simp only [hrun] at h ⊢
    cases op with
    | append input revision =>
      rcases runWrite_append hrun with ⟨-, rfl⟩ | ⟨receipt, rfl, -⟩
      · rfl
      · simp [refused] at h
    | materialize input =>
      obtain ⟨result, rfl, -⟩ := runWrite_materialize hrun
      simp [refused] at h
    | adoptFence input =>
      obtain ⟨fence, rfl, -⟩ := runWrite_adoptFence hrun
      simp [refused] at h
    | commit input =>
      obtain ⟨row, receipts, rfl, -, -⟩ := runWrite_commit hrun
      simp [refused] at h
    | fork input copies =>
      obtain ⟨result, rfl, -⟩ := runWrite_fork hrun
      simp [refused] at h

theorem write_commit_authority (h : refused (write cap (.commit c) db).1 = false) :
    ∃ row ∈ db.sessions, row.id = c.sessionId ∧ row.fenceOwner = some c.owner ∧
      row.fence = c.fence ∧ row.revision = c.expectedRevision := by
  unfold write transaction at h
  cases hrun : runWrite cap (.commit c) db with
  | error refusal => simp [hrun, refused] at h
  | ok result =>
    obtain ⟨out, next⟩ := result
    obtain ⟨row, receipts, -, -, hcommit⟩ := runWrite_commit hrun
    obtain ⟨current, hcurrent, howner, hfence, hrevision, -⟩ := hcommit.authority
    obtain ⟨hmem, hid⟩ := selectSession_some hcurrent
    exact ⟨current, hmem, hid, howner, hfence, hrevision⟩

theorem write_adoptFence_sessions (cap : ℕ) (db : Db) (a : AdoptFence) :
    (write cap (.adoptFence a) db).2.sessions = db.sessions ∨
      (a.valid = true ∧ (write cap (.adoptFence a) db).2.sessions = db.sessions.map (adoptRow a)) := by
  unfold write transaction
  cases hrun : runWrite cap (.adoptFence a) db with
  | error refusal => exact .inl rfl
  | ok result =>
    obtain ⟨out, next⟩ := result
    have hvalid : a.valid = true := by
      by_contra hinvalid
      simp [runWrite, Bool.eq_false_iff.mpr hinvalid] at hrun
    obtain ⟨fence, -, hadopt⟩ := runWrite_adoptFence hrun
    obtain ⟨current, -, -, ⟨-, -, rfl⟩ | ⟨-, rfl⟩⟩ := adoptFence_ok hadopt
    · exact .inl rfl
    · exact .inr ⟨hvalid, rfl⟩

theorem write_adoptFence_raises (cap : ℕ) (hdb : ChainInv db) (hvalid : a.valid = true) (hrow : row ∈ db.sessions)
    (hid : row.id = a.sessionId) (hlower : row.fence < a.fence) : write cap (.adoptFence a) db =
      (.ok (.adopted a.fence), { db with sessions := db.sessions.map (adoptRow a) }) := by
  have hselect : db.selectSession a.sessionId = some row := by
    cases hfind : db.selectSession a.sessionId with
    | none =>
      have hnone := find?_eq_none.mp hfind row hrow
      simp [hid] at hnone
    | some found =>
      obtain ⟨hmem, hfound⟩ := selectSession_some hfind
      rw [hdb.session_unique hmem hrow (hfound.trans hid.symm)]
  have hheld : ¬ (row.fenceOwner = some a.owner ∧ row.fence = a.fence) := by
    rintro ⟨-, heq⟩
    omega
  have hadopt : adoptFence db a =
      .ok (a.fence, { db with sessions := db.sessions.map (adoptRow a) }) := by
    rw [adoptFence, hselect]
    simp only [if_neg hheld, if_neg (Nat.not_le.mpr hlower)]
    rfl
  simp [write, transaction, runWrite, hvalid, hadopt, Except.map]

theorem write_adopted {fence : ℕ} (h : (write cap (.adoptFence a) db).1 = .ok (.adopted fence)) :
    ∃ row ∈ (write cap (.adoptFence a) db).2.sessions, row.id = a.sessionId ∧ a.fence ≤ row.fence := by
  unfold write transaction at h ⊢
  cases hrun : runWrite cap (.adoptFence a) db with
  | error refusal => simp [hrun] at h
  | ok result =>
    obtain ⟨out, next⟩ := result
    obtain ⟨fence', -, hadopt⟩ := runWrite_adoptFence hrun
    obtain ⟨current, hcurrent, -, ⟨-, hfence, rfl⟩ | ⟨hlower, rfl⟩⟩ := adoptFence_ok hadopt
    · obtain ⟨hmem, hid⟩ := selectSession_some hcurrent
      exact ⟨current, hmem, hid, hfence.ge⟩
    · obtain ⟨hmem, hid⟩ := selectSession_some hcurrent
      refine ⟨adoptRow a current, mem_map_of_mem hmem, (adoptRow_id a current).trans hid, ?_⟩
      simp [adoptRow, hid, hlower]

/-- The ledger of a session file, over every sequence of writes: the chain holds, fences only rise,
a commit needs the stored owner, fence and revision, a refusal changes nothing, and once a fence is
adopted no lower one commits again. -/
theorem ledger_chain (cap : ℕ) (ops : List WriteOp) :
    ChainInv (writes cap ops {}) ∧
      ∀ op, FencesKept (writes cap ops {}) (write cap op (writes cap ops {})).2 ∧
        (refused (write cap op (writes cap ops {})).1 = true →
          (write cap op (writes cap ops {})).2 = writes cap ops {}) ∧
        (∀ c, op = .commit c → (∀ row ∈ (writes cap ops {}).sessions, row.id = c.sessionId →
            row.fenceOwner ≠ some c.owner ∨ row.fence ≠ c.fence ∨
              row.revision ≠ c.expectedRevision) →
          refused (write cap op (writes cap ops {})).1 = true) ∧
        ∀ a fence, op = .adoptFence a →
          (write cap op (writes cap ops {})).1 = .ok (.adopted fence) →
          ∀ later c, c.sessionId = a.sessionId → c.fence < a.fence →
            refused (write cap (.commit c)
              (writes cap later (write cap op (writes cap ops {})).2)).1 = true := by
  obtain ⟨hchain, -⟩ := writes_chainInv cap ops ChainInv.empty
  refine ⟨hchain, fun op => ⟨(write_chainInv cap op hchain).2, write_refused, ?_, ?_⟩⟩
  · rintro c rfl hmismatch
    by_contra hok
    obtain ⟨row, hmem, hid, howner, hfence, hrevision⟩ :=
      write_commit_authority (Bool.eq_false_iff.mpr hok)
    rcases hmismatch row hmem hid with h | h | h
    · exact h howner
    · exact h hfence
    · exact h hrevision
  · rintro a fence rfl hadopted later c hsession hlower
    obtain ⟨held, hheld, hid, hle⟩ := write_adopted hadopted
    obtain ⟨hafter, -⟩ := write_chainInv cap (.adoptFence a) hchain
    obtain ⟨hlater, hkept⟩ := writes_chainInv cap later hafter
    obtain ⟨kept, hkeptMem, hkeptId, hkeptFence, -⟩ := hkept held hheld
    by_contra hok
    obtain ⟨row, hmem, hrowId, -, hfence, -⟩ := write_commit_authority (Bool.eq_false_iff.mpr hok)
    obtain rfl := hlater.session_unique hmem hkeptMem
      (hrowId.trans (hsession.trans (hid.symm.trans hkeptId.symm)))
    omega

end

end OpenOmni
