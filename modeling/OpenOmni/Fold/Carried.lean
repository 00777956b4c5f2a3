import OpenOmni.Compaction.Pin
import OpenOmni.Fold.Hydrate

/-! The tail that a writer carries against the tail it would read: every commit comes to the same from both. -/
namespace OpenOmni
open List
open Option (bind_eq_some_iff bind_some map_some)

open PlainValue SessionTransition FoldCheckpoint Transition

def atOrdinals (base : ℕ) : List Append → List Node
  | [] => []
  | action :: actions => { action with ordinal := base + 1 } :: atOrdinals (base + 1) actions

@[simp] theorem atOrdinals_cons (base : ℕ) (action : Append) (actions : List Append) :
    atOrdinals base (action :: actions) = { action with ordinal := base + 1 } :: atOrdinals (base + 1) actions := rfl

lemma atOrdinals_append (base : ℕ) (front rest : List Append) :
    atOrdinals base (front ++ rest) = atOrdinals base front ++ atOrdinals (base + front.length) rest := by
  induction front generalizing base with
  | nil => rfl
  | cons action front ih =>
    have hbase : base + 1 + front.length = base + (action :: front).length := by
      rw [length_cons]
      omega
    rw [cons_append, atOrdinals_cons, ih, atOrdinals_cons, hbase, cons_append]

lemma atOrdinals_length (base : ℕ) (actions : List Append) : (atOrdinals base actions).length = actions.length := by
  induction actions generalizing base with
  | nil => rfl
  | cons action actions ih => rw [atOrdinals_cons, length_cons, length_cons, ih]

lemma atOrdinals_ordinal (base : ℕ) (actions : List Append) :
    (atOrdinals base actions).map (·.ordinal) = List.range' (base + 1) actions.length := by
  induction actions generalizing base with
  | nil => rfl
  | cons action actions ih => rw [atOrdinals_cons, map_cons, ih, length_cons, range'_succ]

theorem eq_atOrdinals {base : ℕ} {nodes : List Node}
    (h : nodes.map (·.ordinal) = List.range' (base + 1) nodes.length) :
    nodes = atOrdinals base (nodes.map (·.toAppend)) := by
  induction nodes generalizing base with
  | nil => rfl
  | cons node nodes ih =>
    rw [map_cons, length_cons, range'_succ] at h
    obtain ⟨hnode, hnodes⟩ := List.cons.inj h
    rw [map_cons, atOrdinals_cons, ← ih hnodes, ← hnode]

variable {rows : List Node} {action : Append}

lemma Numbered.extend (h : Numbered rows) (actions : List Append) :
    Numbered (rows ++ atOrdinals rows.length actions) := by
  unfold Numbered at h ⊢
  rw [map_append, h, atOrdinals_ordinal, length_append, atOrdinals_length, ← List.range'_append_1,
    Nat.add_comm 1 rows.length]

lemma Numbered.written {new : List Node} (h : Numbered (rows ++ new)) :
    new = atOrdinals rows.length (new.map (·.toAppend)) := by
  unfold Numbered at h
  rw [map_append, length_append, ← List.range'_append_1] at h
  obtain ⟨-, hnew⟩ := append_inj h (by simp)
  apply eq_atOrdinals
  rw [hnew, Nat.add_comm 1 rows.length]

variable [PlainCoding]

def PinnedTo (port : Option PinAction) (db : Db) (draft : Append) (state : State) (sourceRevision : ℕ) (action : Append) :
    Prop :=
  ∃ contextPinned, pinContext draft state sourceRevision = some contextPinned ∧
    pinThroughPort port db contextPinned state sourceRevision = some action

lemma PinnedTo.same {port : Option PinAction} (hport : ComposedPort port) {db : Db} {draft : Append} {state : State}
    {sourceRevision : ℕ} (h : PinnedTo port db draft state sourceRevision action) : SameRow draft action := by
  obtain ⟨contextPinned, hcontext, hpin⟩ := h
  have hfirst := pinContext_same hcontext
  have hsecond := pinThroughPort_same hport hpin
  exact ⟨hsecond.id.trans hfirst.id, hsecond.parentId.trans hfirst.parentId, hsecond.sessionId.trans hfirst.sessionId,
    hsecond.kind.trans hfirst.kind⟩

/-- One more row in a plan: a pinned draft, through which the state is folded, or a checkpoint of the state. -/
inductive FoldPlan.Extends (port : Option PinAction) (db : Db) (input : Commit) : FoldPlan → FoldPlan → Prop where
  | taken {plan : FoldPlan} {draft action : Append} {state : State} :
      draft ∈ input.actions →
      PinnedTo port db draft plan.state (input.expectedRevision + plan.actions.length) action →
      foldHistoryState input.sessionId [{ action with ordinal := input.expectedRevision + plan.actions.length + 1 }]
        plan.state = some state →
      FoldPlan.Extends port db input plan (plan.take action state)
  | added {plan : FoldPlan} {parentId : Option String} {reason : Reason} {interval : Append} :
      foldCheckpointAction input.sessionId parentId (input.expectedRevision + plan.actions.length) input.now reason
        plan.state = some interval →
      FoldPlan.Extends port db input plan { plan with
        actions := plan.actions ++ [interval], added := plan.added ++ [interval], count := 0,
        bytes := actionPayloadBytes interval }

section
variable {port : Option PinAction} {db : Db} {input : Commit} {policy : CheckpointPolicy} {checkpoints : CheckpointMode}
  {plan next : FoldPlan}

lemma FoldPlan.add_extends {parentId : Option String} {revision : ℕ} {reason : Reason}
    (hrevision : revision = input.expectedRevision + plan.actions.length)
    (h : plan.add input checkpoints parentId revision reason = some next) :
    Relation.ReflTransGen (FoldPlan.Extends port db input) plan next := by
  unfold FoldPlan.add at h
  split at h
  · obtain ⟨interval, hinterval, h⟩ := bind_eq_some_iff.mp h
    cases h
    rw [hrevision] at hinterval
    exact .single (.added hinterval)
  · cases h
    exact .refl

lemma FoldPlan.step_extends {draft : Append} (hdraft : draft ∈ input.actions)
    (h : plan.step port db input policy checkpoints draft = some next) :
    Relation.ReflTransGen (FoldPlan.Extends port db input) plan next := by
  unfold FoldPlan.step at h
  obtain ⟨contextPinned, hcontext, h⟩ := bind_eq_some_iff.mp h
  obtain ⟨action, hpin, h⟩ := bind_eq_some_iff.mp h
  obtain ⟨state, hstate, h⟩ := bind_eq_some_iff.mp h
  have htaken : FoldPlan.Extends port db input plan (plan.take action state) :=
    .taken hdraft ⟨contextPinned, hcontext, hpin⟩ hstate
  have hrevision : input.expectedRevision + plan.actions.length + 1 =
      input.expectedRevision + (plan.take action state).actions.length := by
    unfold FoldPlan.take
    rw [length_append, length_singleton, Nat.add_assoc]
  dsimp only at h
  split at h
  · exact .head htaken (FoldPlan.add_extends hrevision h)
  split at h
  · exact .head htaken (FoldPlan.add_extends hrevision h)
  · cases h
    exact .single htaken

lemma FoldPlan.steps_extends {drafts : List Append} (hdrafts : ∀ draft ∈ drafts, draft ∈ input.actions)
    (h : drafts.foldlM (FoldPlan.step port db input policy checkpoints) plan = some next) :
    Relation.ReflTransGen (FoldPlan.Extends port db input) plan next := by
  induction drafts generalizing plan with
  | nil =>
    cases h
    exact .refl
  | cons draft drafts ih =>
    rw [foldlM_cons] at h
    obtain ⟨mid, hmid, hrest⟩ := bind_eq_some_iff.mp h
    have hfirst := FoldPlan.step_extends (hdrafts draft mem_cons_self) hmid
    exact hfirst.trans (ih (fun later hlater => hdrafts later (mem_cons_of_mem _ hlater)) hrest)

theorem planFoldBatch_extends {seed : FoldPlan} (h : planFoldBatch port db input seed policy checkpoints = some plan) :
    Relation.ReflTransGen (FoldPlan.Extends port db input) seed plan := by
  unfold planFoldBatch at h
  obtain ⟨last, hlast, h⟩ := bind_eq_some_iff.mp h
  have hdrafts := FoldPlan.steps_extends (fun _ hdraft => hdraft) hlast
  split at h
  · rename_i hempty
    apply hdrafts.trans
    apply FoldPlan.add_extends _ h
    rw [hempty.1]
    rfl
  · cases h
    exact hdrafts

end

/-- What every plan behind a session's rows keeps: its rows fold to its state, and its drafts were each pinned to the
fold of the rows before. -/
structure PlanFolds (port : Option PinAction) (db : Db) (input : Commit) (base : State) (plan : FoldPlan) : Prop where
  fold : foldHistoryState input.sessionId (atOrdinals input.expectedRevision plan.actions) base = some plan.state
  pinned : ∀ front action rest, plan.actions = front ++ action :: rest → action.kind = .foldCheckpoint ∨
    ∃ draft ∈ input.actions, ∃ state,
      foldHistoryState input.sessionId (atOrdinals input.expectedRevision front) base = some state ∧
        PinnedTo port db draft state (input.expectedRevision + front.length) action

omit [PlainCoding] in
lemma concat_split {front rest actions : List Append} {last : Append}
    (h : actions ++ [last] = front ++ action :: rest) :
    (rest = [] ∧ front = actions ∧ action = last) ∨ ∃ rest', rest = rest' ++ [last] ∧ actions = front ++ action :: rest' := by
  rcases eq_nil_or_concat rest with rfl | ⟨rest', end', rfl⟩
  · obtain ⟨hfront, hlast⟩ := append_inj' h rfl
    exact Or.inl ⟨rfl, hfront.symm, (List.cons.inj hlast).1.symm⟩
  · right
    rw [concat_eq_append, ← cons_append, ← append_assoc] at h
    obtain ⟨hactions, hlast⟩ := append_inj' h rfl
    refine ⟨rest', ?_, hactions⟩
    rw [concat_eq_append, (List.cons.inj hlast).1]

section
variable {port : Option PinAction} {db : Db} {input : Commit} {base : State} {plan next : FoldPlan}

lemma PlanFolds.stands (hbase : Stands input.sessionId base) (h : PlanFolds port db input base plan) :
    Stands input.sessionId plan.state :=
  ⟨foldHistoryState_settled hbase.settled h.fold, foldHistoryState_nil h.fold⟩

lemma PlanFolds.extend (hbase : Stands input.sessionId base) (h : PlanFolds port db input base plan)
    (hext : FoldPlan.Extends port db input plan next) : PlanFolds port db input base next := by
  cases hext with
  | @taken draft action state hdraft hpinned hstate =>
    constructor
    · unfold FoldPlan.take
      dsimp only
      rw [atOrdinals_append, foldHistoryState_append, h.fold, bind_some]
      exact hstate
    · intro front a rest hsplit
      rcases concat_split hsplit with ⟨-, rfl, rfl⟩ | ⟨rest', -, hbefore⟩
      · exact Or.inr ⟨draft, hdraft, plan.state, h.fold, hpinned⟩
      · exact h.pinned front a rest' hbefore
  | @added parentId reason interval hinterval =>
    have hkind := foldCheckpointAction_kind hinterval
    constructor
    · dsimp only
      rw [atOrdinals_append, foldHistoryState_append, h.fold, bind_some]
      exact (h.stands hbase).checkpoint hkind
    · intro front a rest hsplit
      rcases concat_split hsplit with ⟨-, rfl, rfl⟩ | ⟨rest', -, hbefore⟩
      · exact Or.inl hkind
      · exact h.pinned front a rest' hbefore

variable {seed : FoldPlan} {rows : List Node}

lemma PlanFolds.of_extends (hbase : Stands input.sessionId base) (hseed : PlanFolds port db input base seed)
    (h : Relation.ReflTransGen (FoldPlan.Extends port db input) seed plan) : PlanFolds port db input base plan := by
  induction h with
  | refl => exact hseed
  | tail _ hext ih => exact ih.extend hbase hext

/-- Behind the rows of a ledger, a plan without checkpoints of its own is what a reader would find of it. -/
structure PlanCold (sessionId : String) (rows : List Node) (plan : FoldPlan) : Prop where
  fold : coldFold sessionId (rows ++ atOrdinals rows.length plan.actions) = some plan.state
  size : tailSize (rows.map (·.toAppend) ++ plan.actions) = ⟨plan.count, plan.bytes⟩

section
variable (hport : ComposedPort port) (hnumbered : Numbered rows) (hexpected : rows.length = input.expectedRevision)
  (hdrafts : ∀ draft ∈ input.actions, draft.kind ≠ .foldCheckpoint)
include hport hnumbered hexpected hdrafts

lemma PlanCold.extend (h : PlanCold input.sessionId rows plan)
    (hext : FoldPlan.Extends port db input plan next) : PlanCold input.sessionId rows next := by
  have hconcat : ∀ action : Append, rows ++ atOrdinals rows.length (plan.actions ++ [action]) =
      (rows ++ atOrdinals rows.length plan.actions) ++
        ([{ action with ordinal := input.expectedRevision + plan.actions.length + 1 }] : List Node) := by
    intro action
    rw [atOrdinals_append, ← append_assoc, ← hexpected]
    rfl
  have hrows : ∀ action : Append, Numbered ((rows ++ atOrdinals rows.length plan.actions) ++
      [{ action with ordinal := input.expectedRevision + plan.actions.length + 1 }]) := by
    intro action
    rw [← hconcat]
    exact hnumbered.extend _
  cases hext with
  | @taken draft action state hdraft hpinned hstate =>
    have hkind : action.kind ≠ .foldCheckpoint := by
      rw [(hpinned.same hport).kind]
      exact hdrafts draft hdraft
    constructor
    · unfold FoldPlan.take
      dsimp only
      rw [hconcat, coldFold_row (hrows action) hkind, h.fold, bind_some]
      exact hstate
    · unfold FoldPlan.take
      dsimp only
      rw [← append_assoc, tailSize_concat, h.size, TailSize.step, if_neg hkind, if_neg hkind]
  | @added parentId reason interval hinterval =>
    have hkind := foldCheckpointAction_kind hinterval
    have hstands := coldFold_stands h.fold
    constructor
    · dsimp only
      rw [hconcat, coldFold_checkpoint (hrows interval) hkind, checkpointSeed_foldCheckpointAction hinterval]
      exact hstands.checkpoint hkind
    · dsimp only
      rw [← append_assoc, tailSize_checkpoint hkind]

lemma PlanCold.of_extends (hseed : PlanCold input.sessionId rows seed)
    (h : Relation.ReflTransGen (FoldPlan.Extends port db input) seed plan) : PlanCold input.sessionId rows plan := by
  induction h with
  | refl => exact hseed
  | tail _ hext ih => exact ih.extend hport hnumbered hexpected hdrafts hext

end

end

section
variable {sessionId : String} {rows : List Node}

variable {actions : List Append}

theorem coldFold_rows (sessionId : String) (hnumbered : Numbered rows)
    (hkinds : ∀ action ∈ actions, action.kind ≠ .foldCheckpoint) :
    coldSeed sessionId (rows ++ atOrdinals rows.length actions) = coldSeed sessionId rows ∧
      coldFold sessionId (rows ++ atOrdinals rows.length actions) =
        (coldFold sessionId rows).bind (foldHistoryState sessionId (atOrdinals rows.length actions)) := by
  induction actions using List.reverseRecOn with
  | nil =>
    rw [atOrdinals, append_nil]
    refine ⟨rfl, ?_⟩
    cases hfold : coldFold sessionId rows with
    | none => rfl
    | some state => exact (coldFold_stands hfold).same.symm
  | append_singleton actions action ih =>
    have hkind := hkinds action (mem_append_right _ mem_cons_self)
    obtain ⟨hseed, hfold⟩ := ih fun earlier hearlier => hkinds earlier (mem_append_left _ hearlier)
    have hrow : Numbered ((rows ++ atOrdinals rows.length actions) ++
        ([{ action with ordinal := rows.length + actions.length + 1 }] : List Node)) := by
      have hextend := hnumbered.extend (actions ++ [action])
      rwa [atOrdinals_append, ← append_assoc] at hextend
    have hconcat : rows ++ atOrdinals rows.length (actions ++ [action]) =
        (rows ++ atOrdinals rows.length actions) ++
          ([{ action with ordinal := rows.length + actions.length + 1 }] : List Node) := by
      rw [atOrdinals_append, ← append_assoc]
      rfl
    constructor
    · rw [hconcat, coldSeed_concat hrow, if_neg hkind, hseed]
    · rw [hconcat, coldFold_row hrow hkind, hfold, atOrdinals_append, Option.bind_assoc]
      congr 1
      funext state
      exact (foldHistoryState_append _ _ state).symm

lemma tailSize_rows {rows : List Append} {count bytes : ℕ} (h : tailSize rows = ⟨count, bytes⟩)
    (hkinds : ∀ action ∈ actions, action.kind ≠ .foldCheckpoint) : tailSize (rows ++ actions) =
      ⟨count + actions.countP (·.kind ≠ .foldCheckpoint), bytes + (actions.map actionPayloadBytes).sum⟩ := by
  induction actions using List.reverseRecOn with
  | nil => simpa using h
  | append_singleton actions action ih =>
    have hkind := hkinds action (mem_append_right _ mem_cons_self)
    rw [← append_assoc, tailSize_concat, ih fun earlier hearlier => hkinds earlier (mem_append_left _ hearlier),
      TailSize.step, if_neg hkind]
    simp only [countP_append, map_append, sum_append, countP_singleton, hkind, ne_eq,
      not_false_eq_true, decide_true, if_true, map_singleton, sum_singleton, Nat.add_assoc]

/-- A tail is of the rows: it has their size, and its suffix folds from its state to what a reader would find. -/
structure CarriedAt (sessionId : String) (rows : List Node) (tail : WriterTail) : Prop where
  seed : (coldSeed sessionId rows).isSome
  size : tailSize (rows.map (·.toAppend)) = ⟨tail.count, tail.bytes⟩
  fold : ∀ state, tail.state = some state → foldHistoryState sessionId tail.suffix state = coldFold sessionId rows

structure ResolvedAt (db : Db) (input : Commit) (tail : ResolvedTail) : Prop where
  seed : (coldSeed input.sessionId (db.rows input.sessionId)).isSome
  size : db.tailSize input.sessionId = ⟨tail.count, tail.bytes⟩
  state : (tail.state db input).toOption = coldFold input.sessionId (db.rows input.sessionId)
  memo : ∀ memo, tail.memo = some memo → CarriedAt input.sessionId (db.rows input.sessionId) memo

end

section
variable {db : Db} {input : Commit} {row : Row}

theorem freshState (hdb : ChainInv db) (hrow : db.selectSession input.sessionId = some row)
    (hexpected : (db.rows input.sessionId).length = input.expectedRevision)
    (hseed : (coldSeed input.sessionId (db.rows input.sessionId)).isSome) :
    ∃ read, readHistoryCheckpoint db input.sessionId (some input.expectedRevision) = .ok read ∧
      readState (read.read db input.sessionId none) = coldFold input.sessionId (db.rows input.sessionId) := by
  have hthrough : (some input.expectedRevision).all fun r => decide ((db.rows input.sessionId).length ≤ r) := by
    simp [hexpected]
  have hcold := readHistoryCheckpoint_cold hdb hrow hthrough
  obtain ⟨seed, hseed⟩ := Option.isSome_iff_exists.mp hseed
  rw [hseed] at hcold
  exact hcold

def keptRefusal (carried : Option WriterTail) (input : Commit) (external : Bool) : Bool :=
  (carried.filter fun tail => !external && decide (tail.revision = input.expectedRevision)).elim false (·.refused)

variable {carried : Option WriterTail}

section
variable (hdb : ChainInv db) (hrow : db.selectSession input.sessionId = some row)
  (hexpected : (db.rows input.sessionId).length = input.expectedRevision)
  (hcarried : ∀ tail, carried = some tail → tail.revision = (db.rows input.sessionId).length → CarriedAt input.sessionId (db.rows input.sessionId) tail)
include hdb hrow hexpected hcarried

theorem resolveTail_at (external : Bool) :
    if (coldSeed input.sessionId (db.rows input.sessionId)).isSome then
      ∃ tail, resolveTail db carried input external = .ok tail ∧ ResolvedAt db input tail ∧
        tail.refused = keptRefusal carried input external
    else ∃ failure, resolveTail db carried input external = .error failure := by
  have hthrough : (some input.expectedRevision).all fun r => decide ((db.rows input.sessionId).length ≤ r) := by
    simp [hexpected]
  unfold resolveTail keptRefusal
  cases hmemo : carried.filter fun tail => !external && decide (tail.revision = input.expectedRevision) with
  | some memo =>
    obtain ⟨hsome, hcurrent⟩ := Option.filter_eq_some_iff.mp hmemo
    have hrevision : memo.revision = input.expectedRevision := by
      simp only [Bool.and_eq_true, decide_eq_true_eq] at hcurrent
      exact hcurrent.2
    have hat := hcarried memo hsome (hrevision.trans hexpected.symm)
    rw [if_pos hat.seed]
    refine ⟨_, rfl, ⟨hat.seed, hat.size, ?_, ?_⟩, rfl⟩
    · unfold ResolvedTail.state
      dsimp only
      cases hstate : memo.state with
      | some state =>
        simp only [bind_some, hstate, map_some]
        rw [← hat.fold state hstate]
        cases foldHistoryState input.sessionId memo.suffix state <;> rfl
      | none =>
        obtain ⟨read, hread, hstate'⟩ := freshState hdb hrow hexpected hat.seed
        simp only [bind_some, hstate, Option.map_none, hread, Except.bind]
        rw [← hstate']
        unfold readState
        cases read.read db input.sessionId none <;> rfl
    · intro memo' hmemo'
      cases hmemo'
      exact hat
  | none =>
    have hcold := readHistoryCheckpoint_cold hdb hrow hthrough
    cases hseed : coldSeed input.sessionId (db.rows input.sessionId) with
    | none =>
      rw [hseed] at hcold
      obtain ⟨reason, hread⟩ := hcold
      simp only [Option.isSome_none, Bool.false_eq_true, if_false, hread, bind, Except.bind]
      exact ⟨_, rfl⟩
    | some seed =>
      rw [hseed] at hcold
      obtain ⟨read, hread, hstate⟩ := hcold
      obtain ⟨-, -, -, hsize⟩ := readHistoryCheckpoint_tail hdb hthrough hread
      simp only [Option.isSome_some, if_true, hread, bind, Except.bind, pure, Except.pure]
      refine ⟨_, rfl, ⟨by rw [hseed]; rfl, hsize, ?_, by simp⟩, rfl⟩
      unfold ResolvedTail.state
      simp only [Option.bind_none, Except.bind]
      rw [← hstate]
      unfold readState
      cases read.read db input.sessionId none <;> rfl

lemma resolveTail_resolved {external : Bool} {tail : ResolvedTail}
    (h : resolveTail db carried input external = .ok tail) : ResolvedAt db input tail := by
  have hat := resolveTail_at hdb hrow hexpected hcarried external
  split at hat
  · obtain ⟨tail', htail', hat, -⟩ := hat
    rw [h] at htail'
    cases htail'
    exact hat
  · obtain ⟨failure, hfailed⟩ := hat
    rw [h] at hfailed
    cases hfailed

end

end

section
variable {cap : ℕ} {port : Option PinAction} {db : Db} {input : Commit}

variable {a b : ResolvedTail}

omit [PlainCoding] in
lemma internal_kinds (h : isExternal input = false) : ∀ draft ∈ input.actions, draft.kind ≠ .foldCheckpoint := by
  intro draft hdraft hkind
  have hexternal : isExternal input = true := any_eq_true.mpr ⟨draft, hdraft, by simpa using hkind⟩
  rw [h] at hexternal
  cases hexternal

theorem plannedTail_carried (hdb : ChainInv db) (hport : ComposedPort port) {plan : FoldPlan} {seed : FoldPlan}
    {row : Row} {receipts : List Receipt} {db' : Db} (hinternal : isExternal input = false) (hactions : seed.actions = [])
    (hsize : db.tailSize input.sessionId = ⟨seed.count, seed.bytes⟩)
    (hstate : coldFold input.sessionId (db.rows input.sessionId) = some seed.state)
    (hplan : Relation.ReflTransGen (FoldPlan.Extends port db input) seed plan)
    (hcommit : kernelCommit cap { input with actions := plan.actions } db = (.ok (row, receipts), db')) (refused : Bool) :
    CarriedAt input.sessionId (db'.rows input.sessionId) (plannedTail plan refused row) := by
  have hwritten := kernelCommit_ok hdb hcommit
  obtain ⟨current, hcurrent⟩ := hwritten.present
  have hnumbered := numbered_rows hdb hcurrent
  have hnumbered' := numbered_rows hwritten.chain hwritten.session
  have hrows : db'.rows input.sessionId = db.rows input.sessionId ++ receipts.map (·.action) := hwritten.rows
  have happends : receipts.map (·.action.toAppend) = plan.actions := hwritten.actions
  have hnew : receipts.map (·.action) = atOrdinals (db.rows input.sessionId).length plan.actions := by
    rw [hrows] at hnumbered'
    rw [← happends, hnumbered'.written, map_map]
    rfl
  have hseed : PlanCold input.sessionId (db.rows input.sessionId) seed := by
    constructor
    · rw [hactions, atOrdinals, append_nil, hstate]
    · rw [hactions, append_nil]
      exact hsize
  have hexpected : (db.rows input.sessionId).length = input.expectedRevision := hwritten.expected
  have hcold : PlanCold input.sessionId (db.rows input.sessionId) plan :=
    PlanCold.of_extends hport hnumbered hexpected (internal_kinds hinternal) hseed hplan
  have hfold := hcold.fold
  rw [← hnew, ← hrows] at hfold
  refine ⟨?_, ?_, ?_⟩
  · unfold coldFold at hfold
    obtain ⟨state, hsome, -⟩ := bind_eq_some_iff.mp hfold
    rw [hsome]
    rfl
  · rw [hrows, map_append, map_map]
    have hsized := hcold.size
    rw [← happends] at hsized
    exact hsized
  · intro state hstate
    cases hstate
    rw [hfold]
    exact (coldFold_stands hfold).same

theorem commitFoldBatch_carried (hdb : ChainInv db) (hport : ComposedPort port) {carried : Option WriterTail}
    (hcarried : ∀ tail, carried = some tail → tail.revision = (db.rows input.sessionId).length →
      CarriedAt input.sessionId (db.rows input.sessionId) tail) {next : WriterTail}
    (h : (commitFoldBatch cap port db carried input).tail = some next) :
    next.revision = ((commitFoldBatch cap port db carried input).db.rows input.sessionId).length ∧
      CarriedAt input.sessionId ((commitFoldBatch cap port db carried input).db.rows input.sessionId) next := by
  have hcase := commitFoldBatch_cases cap port db carried input
  generalize hcommitted : commitFoldBatch cap port db carried input = committed at h hcase ⊢
  cases hcase with
  | failed failure warned => cases h
  | @counted tail row receipts db' htail _ _ hcommit =>
    have hwritten := kernelCommit_ok hdb hcommit
    have hexpected : (db.rows input.sessionId).length = input.expectedRevision := hwritten.expected
    have hpresent : ∃ current, db.selectSession input.sessionId = some current := hwritten.present
    obtain ⟨current, hcurrent⟩ := hpresent
    have hat := resolveTail_resolved hdb hcurrent hexpected hcarried htail
    dsimp only at h ⊢
    split at h
    · cases h
    rename_i hinternal
    cases h
    have hkinds := internal_kinds (Bool.eq_false_iff.mpr hinternal)
    have hnumbered := numbered_rows hdb hcurrent
    have hnumbered' := numbered_rows hwritten.chain hwritten.session
    rw [hwritten.rows] at hnumbered'
    have hnew : receipts.map (·.action) = atOrdinals (db.rows input.sessionId).length input.actions := by
      rw [← hwritten.actions, hnumbered'.written, map_map]
      rfl
    obtain ⟨hseed, hfold⟩ := coldFold_rows input.sessionId hnumbered hkinds
    refine ⟨hwritten.revision, ?_, ?_, ?_⟩
    · rw [hwritten.rows, hnew, hseed]
      exact hat.seed
    · rw [hwritten.appends]
      exact tailSize_rows hat.size hkinds
    · intro state hstate
      obtain ⟨memo, hmemo, hmemoState⟩ := bind_eq_some_iff.mp hstate
      have hsuffix : (countedTail tail row receipts (tail.count + incomingRows input)
          (tail.bytes + incomingBytes input)).suffix = memo.suffix ++ receipts.map (·.action) := by
        unfold countedTail
        simp only [hmemo, bind_some, hmemoState, map_some]
      rw [hsuffix, hwritten.rows, hnew, hfold, foldHistoryState_append,
        (hat.memo memo hmemo).fold state hmemoState]
  | @planned tail state plan row receipts db' htail hstate hplan hcommit
  | @fallback tail state planned plan row receipts db' checkpoint htail hstate _ _ hplan hcommit =>
    have hwritten := kernelCommit_ok hdb hcommit
    have hexpected : (db.rows input.sessionId).length = input.expectedRevision := hwritten.expected
    have hpresent : ∃ current, db.selectSession input.sessionId = some current := hwritten.present
    obtain ⟨current, hcurrent⟩ := hpresent
    have hat := resolveTail_resolved hdb hcurrent hexpected hcarried htail
    have hcold : some (tail.seed state).state = coldFold input.sessionId (db.rows input.sessionId) := by
      rw [← hat.state, hstate]
      rfl
    dsimp only at h ⊢
    split at h
    · cases h
    rename_i hinternal
    cases h
    refine ⟨hwritten.revision, ?_⟩
    exact plannedTail_carried hdb hport (Bool.eq_false_iff.mpr hinternal) rfl hat.size hcold.symm
      (planFoldBatch_extends hplan) hcommit _

end

end OpenOmni
