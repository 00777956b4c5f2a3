import OpenOmni.Protocol.SessionTurn

/-! The rows of a turn's life, and what the fold writer adds to a batch of them. -/
namespace OpenOmni
open List

open PlainValue SessionTurn

/-- `SessionTurn.Pending`. -/
def turnPending : PlainValue := record [("phase", some (.str "pending"))]

def turnEnvelopeAction (id : String) (parentId : Option String) (sessionId : String) («at» : ℚ)
    (intent : PlainValue) : Append where
  id := id
  parentId := parentId
  sessionId := sessionId
  kind := .turn
  intent := intent
  effect := turnPending
  ts := «at»

def nonemptyIds (ids : List String) : Option (List String) := if ids = [] then none else some ids

def turnIntentAction (id : String) (parentId : Option String) (sessionId resultId : String)
    (deliveryIds consumedStale : List String) (pinned : Pinned) (resumeCount : ℕ)
    (boundaryActionId : Option String) («at» : ℚ) : Append :=
  turnEnvelopeAction id parentId sessionId «at»
    (Intent.toPlain ⟨pinned, resultId, deliveryIds, nonemptyIds consumedStale, resumeCount, boundaryActionId, none⟩)

def turnResumeAction (id : String) (parentId : Option String) (sessionId turnId resultId : String) (pinned : Pinned)
    (resumeCount : ℕ) (boundaryActionId : Option String) («at» : ℚ) : Append :=
  turnEnvelopeAction id parentId sessionId «at»
    (Resume.toPlain ⟨pinned, turnId, resultId, resumeCount, boundaryActionId, none⟩)

def turnCheckpointAction (id : String) (parentId : Option String) (sessionId : String) (checkpoint : Checkpoint)
    (deliveryIds consumedStale : List String) («at» : ℚ) : Append where
  id := id
  parentId := parentId
  sessionId := sessionId
  kind := .turn
  intent := record [("phase", some (.str "checkpoint")), ("turnId", some (.str checkpoint.turnId)),
    ("deliveryIds", some (.arr (deliveryIds.map .str))),
    ("consumedStale", (nonemptyIds consumedStale).map fun ids => .arr (ids.map .str))]
  effect := checkpoint.toPlain
  ts := «at»

def turnTerminalAction (id : String) (parentId : Option String) (sessionId : String) (terminal : Terminal) («at» : ℚ) :
    Append where
  id := id
  parentId := parentId
  sessionId := sessionId
  kind := .turn
  intent := record [("phase", some (.str "terminal")), ("turnId", some (.str terminal.turnId))]
  effect := terminal.toPlain
  ts := «at»

/-- What `pinContext` and `pinThroughPort` leave of a draft: an intent or a resume gets its context, and a
compaction row what the composed port puts there. -/
inductive Decorated (draft : Append) : Append → Prop where
  | same : Decorated draft draft
  | intent (t : Intent) (context : Context) (hkind : draft.kind = .turn) (hintent : draft.intent = t.toPlain)
      (hvalid : context.valid) : Decorated draft { draft with intent := { t with context := some context }.toPlain }
  | resume (t : Resume) (context : Context) (hkind : draft.kind = .turn) (hintent : draft.intent = t.toPlain)
      (hvalid : context.valid) : Decorated draft { draft with intent := { t with context := some context }.toPlain }
  | compaction (action : Append) (hkind : draft.kind = .compaction) (hsame : action.kind = .compaction)
      (hid : action.id = draft.id) : Decorated draft action

/-- The rows that `commitFoldBatch` commits for a batch: the drafts, pinned, with checkpoints between. -/
inductive Decorates : List Append → List Append → Prop where
  | nil : Decorates [] []
  | draft {draft action : Append} {drafts actions : List Append} : Decorated draft action → Decorates drafts actions →
      Decorates (draft :: drafts) (action :: actions)
  | checkpoint {checkpoint : Append} {drafts actions : List Append} : checkpoint.kind = .foldCheckpoint →
      Decorates drafts actions → Decorates drafts (checkpoint :: actions)

lemma Decorates.refl : ∀ drafts : List Append, Decorates drafts drafts
  | [] => .nil
  | _ :: drafts => .draft .same (Decorates.refl drafts)

section
variable {draft action : Append} {drafts actions : List Append}

lemma Decorated.kind (h : Decorated draft action) : action.kind = draft.kind := by
  cases h with
  | same | intent | resume => rfl
  | compaction _ hkind hsame => rw [hkind, hsame]

lemma Decorated.id (h : Decorated draft action) : action.id = draft.id := by
  cases h with
  | same | intent | resume => rfl
  | compaction _ _ _ hid => exact hid

theorem Decorated.get? (h : Decorated draft action) (hkind : draft.kind ≠ .compaction) {key : String}
    (hkey : key ≠ "context") : action.intent.get? key = draft.intent.get? key ∧ action.effect = draft.effect := by
  cases h with
  | same => exact ⟨rfl, rfl⟩
  | intent t context _ hintent =>
    refine ⟨?_, rfl⟩
    have hfalse : (key == "context") = false := by simpa using hkey
    rw [hintent, Intent.get?_toPlain, Intent.get?_toPlain]
    simp [Intent.slots, lookup_cons, hfalse]
  | resume t context _ hintent =>
    refine ⟨?_, rfl⟩
    have hfalse : (key == "context") = false := by simpa using hkey
    rw [hintent, Resume.get?_toPlain, Resume.get?_toPlain]
    simp [Resume.slots, lookup_cons, hfalse]
  | compaction _ hcompaction => exact absurd hcompaction hkind

theorem Decorates.exists_decorated (h : Decorates drafts actions) (hmem : draft ∈ drafts) :
    ∃ action ∈ actions, Decorated draft action := by
  induction h with
  | nil => simp at hmem
  | @draft first action _ _ hdecorated _ ih =>
    rcases mem_cons.mp hmem with rfl | hmem
    · exact ⟨action, mem_cons_self, hdecorated⟩
    · obtain ⟨other, hother, hsame⟩ := ih hmem
      exact ⟨other, mem_cons_of_mem _ hother, hsame⟩
  | checkpoint _ _ ih =>
    obtain ⟨other, hother, hsame⟩ := ih hmem
    exact ⟨other, mem_cons_of_mem _ hother, hsame⟩

theorem Decorates.of_mem (h : Decorates drafts actions) (hmem : action ∈ actions) :
    action.kind = .foldCheckpoint ∨ ∃ draft ∈ drafts, Decorated draft action := by
  induction h with
  | nil => simp at hmem
  | @draft first _ _ _ hdecorated _ ih =>
    rcases mem_cons.mp hmem with rfl | hmem
    · exact Or.inr ⟨first, mem_cons_self, hdecorated⟩
    · rcases ih hmem with hcheckpoint | ⟨other, hother, hsame⟩
      · exact Or.inl hcheckpoint
      · exact Or.inr ⟨other, mem_cons_of_mem _ hother, hsame⟩
  | checkpoint hkind _ ih =>
    rcases mem_cons.mp hmem with rfl | hmem
    · exact Or.inl hkind
    · exact ih hmem

end

end OpenOmni
