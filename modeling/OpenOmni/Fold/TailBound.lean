import OpenOmni.Fold.Tail

/-! The tail of a session that only its writer writes: within the policy's limits wherever the checkpoint that ends a
batch is itself within them. -/
namespace OpenOmni
open List
open Option (bind_eq_some_iff)

open PlainValue SessionTransition FoldCheckpoint Transition

section
variable [PlainCoding]

structure TailSize.Fits (t : TailSize) (policy : CheckpointPolicy) : Prop where
  rows : t.rows ≤ policy.everyActions
  bytes : t.bytes ≤ policy.maxTailBytes

def endsInCheckpoint (rows : List Append) : Prop := ∃ front row, rows = front ++ [row] ∧ row.kind = .foldCheckpoint

/-- Behind the base rows, a plan's counters cover the tail, and a batch ends within the limits or in a checkpoint. -/
structure PlanInv (base : List Append) (policy : CheckpointPolicy) (plan : FoldPlan) : Prop where
  below : (tailSize (base ++ plan.actions)).Below plan.count plan.bytes
  ends : plan.actions = [] ∨ plan.past policy = false ∨ endsInCheckpoint plan.actions

variable {plan next : FoldPlan} {input : Commit} {parentId : Option String} {revision : ℕ} {reason : Reason}
  {base : List Append} {policy : CheckpointPolicy} {port : Option PinAction} {db : Db}

lemma FoldPlan.add_all (h : plan.add input .all parentId revision reason = some next) :
    ∃ interval, foldCheckpointAction input.sessionId parentId revision input.now reason plan.state = some interval ∧
      next = { plan with
        actions := plan.actions ++ [interval], added := plan.added ++ [interval], count := 0,
        bytes := actionPayloadBytes interval } := by
  have hadmits : CheckpointMode.all.admits reason = true := rfl
  unfold FoldPlan.add at h
  rw [if_pos hadmits] at h
  obtain ⟨interval, hinterval, h⟩ := bind_eq_some_iff.mp h
  exact ⟨interval, hinterval, (Option.some.inj h).symm⟩

theorem PlanInv.add (h : plan.add input .all parentId revision reason = some next) : PlanInv base policy next := by
  obtain ⟨interval, hinterval, rfl⟩ := FoldPlan.add_all h
  have hkind := foldCheckpointAction_kind hinterval
  refine ⟨?_, Or.inr (Or.inr ⟨plan.actions, interval, rfl, hkind⟩)⟩
  dsimp only
  rw [← append_assoc, tailSize_checkpoint hkind]
  exact ⟨le_rfl, le_rfl⟩

lemma PlanInv.step {draft : Append} (hplan : PlanInv base policy plan)
    (h : plan.step port db input policy .all draft = some next) : PlanInv base policy next := by
  unfold FoldPlan.step at h
  obtain ⟨contextPinned, -, h⟩ := bind_eq_some_iff.mp h
  obtain ⟨action, -, h⟩ := bind_eq_some_iff.mp h
  obtain ⟨state, -, h⟩ := bind_eq_some_iff.mp h
  dsimp only at h
  split at h
  · exact PlanInv.add h
  split at h
  · exact PlanInv.add h
  · rename_i hpast
    cases h
    refine ⟨?_, Or.inr (Or.inl (by simpa using hpast))⟩
    unfold FoldPlan.take
    dsimp only
    rw [← append_assoc, tailSize_concat]
    exact hplan.below.step action

lemma PlanInv.drafts {drafts : List Append} (hplan : PlanInv base policy plan)
    (h : drafts.foldlM (FoldPlan.step port db input policy .all) plan = some next) : PlanInv base policy next := by
  induction drafts generalizing plan with
  | nil =>
    cases h
    exact hplan
  | cons draft drafts ih =>
    rw [foldlM_cons] at h
    obtain ⟨mid, hmid, hrest⟩ := bind_eq_some_iff.mp h
    exact ih (hplan.step hmid) hrest

theorem planFoldBatch_ends {seed : FoldPlan} (hactions : seed.actions = [])
    (hseed : (tailSize base).Below seed.count seed.bytes)
    (h : planFoldBatch port db input seed policy .all = some plan) :
    (tailSize (base ++ plan.actions)).Below plan.count plan.bytes ∧
      (plan.past policy = false ∨ endsInCheckpoint plan.actions) := by
  unfold planFoldBatch at h
  obtain ⟨last, hlast, h⟩ := bind_eq_some_iff.mp h
  have hstart : PlanInv base policy seed := ⟨by rw [hactions, append_nil]; exact hseed, Or.inl hactions⟩
  have hinv := hstart.drafts hlast
  split at h
  · have hadded : PlanInv base policy plan := PlanInv.add h
    refine ⟨hadded.below, ?_⟩
    obtain ⟨interval, hinterval, rfl⟩ := FoldPlan.add_all h
    exact Or.inr ⟨last.actions, interval, rfl, foldCheckpointAction_kind hinterval⟩
  · rename_i hdue
    cases h
    refine ⟨hinv.below, ?_⟩
    rcases hinv.ends with hempty | hends
    · left
      by_contra hpast
      exact hdue ⟨hempty, by simpa using hpast⟩
    · exact hends

end

section
variable [PlainCoding]

structure SessionWriter where
  db : Db
  tail : Option WriterTail

inductive WriterEvent where
  | commit (port : Option PinAction) (input : Commit)
  | adopt (input : AdoptFence)
  | restart

def Materialized (cap : ℕ) (sessionId : String) (policy : CheckpointPolicy) (s : SessionWriter) : Prop :=
  ∃ input row receipt, write cap (.materialize input) {} = (.ok (.materialized (.created row receipt)), s.db) ∧
    input.row.id = sessionId ∧ s.tail = none ∧ checkpointPolicy (s.db.rows sessionId) = policy

/-- A step that keeps the policy and has no checkpoint refused at the row cap. -/
inductive WriterStep (cap : ℕ) (sessionId : String) (policy : CheckpointPolicy) :
    SessionWriter → WriterEvent → SessionWriter → Prop where
  | commit {a : SessionWriter} {port : Option PinAction} {input : Commit} :
      input.sessionId = sessionId → checkpointPolicy (a.db.rows sessionId) = policy →
      (commitFoldBatch cap port a.db a.tail input).warned = none →
      checkpointPolicy ((commitFoldBatch cap port a.db a.tail input).db.rows sessionId) = policy →
      WriterStep cap sessionId policy a (.commit port input)
        ⟨(commitFoldBatch cap port a.db a.tail input).db, (commitFoldBatch cap port a.db a.tail input).tail⟩
  | adopt {a : SessionWriter} {input : AdoptFence} :
      WriterStep cap sessionId policy a (.adopt input) ⟨(write cap (.adoptFence input) a.db).2, a.tail⟩
  | restart {a : SessionWriter} : WriterStep cap sessionId policy a .restart ⟨a.db, none⟩

def SessionWriter.appends (s : SessionWriter) (sessionId : String) : List Append :=
  (s.db.rows sessionId).map (·.toAppend)

structure TailInv (sessionId : String) (policy : CheckpointPolicy) (s : SessionWriter) : Prop where
  chain : ChainInv s.db
  constant : checkpointPolicy (s.db.rows sessionId) = policy
  carried : ∀ tail, s.tail = some tail → tail.refused = false ∧ (s.db.tailSize sessionId).Below tail.count tail.bytes
  ends : (∃ row, s.appends sessionId = [row]) ∨ endsInCheckpoint (s.appends sessionId) ∨
    (s.db.tailSize sessionId).Fits policy

variable {input : Commit} {policy : CheckpointPolicy} {cap : ℕ} {s : SessionWriter} {sessionId : String}

lemma resolveTail_below {db : Db} (hdb : ChainInv db) {carried : Option WriterTail} {external : Bool}
    {tail : ResolvedTail} (hexpected : (db.rows input.sessionId).length = input.expectedRevision)
    (hcarried : ∀ t, carried = some t → t.refused = false ∧ (db.tailSize input.sessionId).Below t.count t.bytes)
    (h : resolveTail db carried input external = .ok tail) :
    tail.refused = false ∧ (db.tailSize input.sessionId).Below tail.count tail.bytes := by
  unfold resolveTail at h
  split at h
  · rename_i memo hmemo
    cases h
    exact hcarried memo (Option.filter_eq_some_iff.mp hmemo).1
  · simp only [bind, Except.bind] at h
    split at h
    · cases h
    · rename_i read hread
      cases h
      have hthrough : (some input.expectedRevision).all fun r => decide ((db.rows input.sessionId).length ≤ r) := by
        simp [hexpected]
      obtain ⟨-, -, -, hsize⟩ := readHistoryCheckpoint_tail hdb hthrough hread
      rw [hsize]
      exact ⟨rfl, le_rfl, le_rfl⟩

omit [PlainCoding] in
lemma FoldPlan.within_of_past {plan : FoldPlan} (h : plan.past policy = false) :
    plan.count < policy.everyActions ∧ plan.bytes ≤ policy.maxTailBytes := by
  unfold FoldPlan.past at h
  simpa using h

omit [PlainCoding] in
lemma TailSize.Below.fits {t : TailSize} {count bytes : ℕ} (h : t.Below count bytes)
    (hcount : count < policy.everyActions) (hbytes : bytes ≤ policy.maxTailBytes) : t.Fits policy :=
  ⟨h.rows.trans hcount.le, h.bytes.trans hbytes⟩

omit [PlainCoding] in
lemma endsInCheckpoint_append {rows actions : List Append} (h : endsInCheckpoint actions) :
    endsInCheckpoint (rows ++ actions) := by
  obtain ⟨front, row, rfl, hkind⟩ := h
  exact ⟨rows ++ front, row, by rw [append_assoc], hkind⟩

lemma TailInv.commit {port : Option PinAction} {committed : FoldCommit} (hs : TailInv input.sessionId policy s)
    (hwarned : committed.warned = none) (hpolicy : checkpointPolicy (committed.db.rows input.sessionId) = policy)
    (h : CommitCase cap port s.db s.tail input committed) :
    TailInv input.sessionId policy ⟨committed.db, committed.tail⟩ := by
  have hcurrent := hs.constant
  cases h with
  | failed failure warned => exact ⟨hs.chain, hs.constant, by simp, hs.ends⟩
  | @counted tail row receipts db' htail hwithin _ hcommit =>
    have hwritten := kernelCommit_ok hs.chain hcommit
    obtain ⟨hrefused, hbelow⟩ := resolveTail_below hs.chain hwritten.expected hs.carried htail
    have hsize : (db'.tailSize input.sessionId).Below (tail.count + incomingRows input)
        (tail.bytes + incomingBytes input) := by
      unfold Db.tailSize
      rw [hwritten.appends]
      exact hbelow.append input.actions
    have hlimits := hwithin hrefused
    rw [hcurrent] at hlimits
    refine ⟨hwritten.chain, hpolicy, ?_, Or.inr (Or.inr (hsize.fits hlimits.1 hlimits.2))⟩
    intro carried hcarried
    dsimp only at hcarried
    split at hcarried
    · cases hcarried
    · cases hcarried
      exact ⟨hrefused, hsize⟩
  | @planned tail state plan row receipts db' htail _ hplan hcommit =>
    have hwritten := kernelCommit_ok hs.chain hcommit
    obtain ⟨hrefused, hbelow⟩ := resolveTail_below hs.chain hwritten.expected hs.carried htail
    rw [hrefused, hcurrent] at hplan
    have hbase : (tailSize ((s.db.rows input.sessionId).map (·.toAppend))).Below tail.count tail.bytes := hbelow
    obtain ⟨hcover, hends⟩ := planFoldBatch_ends rfl hbase hplan
    have happends : (db'.rows input.sessionId).map (·.toAppend) =
        (s.db.rows input.sessionId).map (·.toAppend) ++ plan.actions := hwritten.appends
    have hsize : (db'.tailSize input.sessionId).Below plan.count plan.bytes := by
      unfold Db.tailSize
      rw [happends]
      exact hcover
    refine ⟨hwritten.chain, hpolicy, ?_, ?_⟩
    · intro carried hcarried
      dsimp only at hcarried
      split at hcarried
      · cases hcarried
      · cases hcarried
        exact ⟨by simp [plannedTail, hrefused], hsize⟩
    · right
      rcases hends with hpast | hcheckpoint
      · have hlimits := FoldPlan.within_of_past hpast
        exact Or.inr (hsize.fits hlimits.1 hlimits.2)
      · left
        unfold SessionWriter.appends
        rw [happends]
        exact endsInCheckpoint_append hcheckpoint
  | fallback => cases hwarned

lemma adoptFence_actions (cap : ℕ) (db : Db) (input : AdoptFence) :
    (write cap (.adoptFence input) db).2.actions = db.actions := by
  unfold write transaction
  cases hrun : runWrite cap (.adoptFence input) db with
  | error refusal => rfl
  | ok result =>
    obtain ⟨out, next⟩ := result
    obtain ⟨fence, -, hadopt⟩ := runWrite_adoptFence hrun
    unfold adoptFence at hadopt
    split at hadopt
    · cases hadopt
    · split at hadopt
      · obtain ⟨-, rfl⟩ := Prod.mk.inj (Except.ok.inj hadopt)
        rfl
      · split at hadopt
        · cases hadopt
        · obtain ⟨-, rfl⟩ := Prod.mk.inj (Except.ok.inj hadopt)
          rfl

lemma TailInv.step {a b : SessionWriter} {event : WriterEvent} (ha : TailInv sessionId policy a)
    (h : WriterStep cap sessionId policy a event b) : TailInv sessionId policy b := by
  cases h with
  | commit hsession _ hwarned hpolicy =>
    subst hsession
    exact ha.commit hwarned hpolicy (commitFoldBatch_cases ..)
  | @adopt input =>
    have hrows : (write cap (.adoptFence input) a.db).2.rows sessionId = a.db.rows sessionId := by
      unfold Db.rows
      rw [adoptFence_actions]
    have hsize : (write cap (.adoptFence input) a.db).2.tailSize sessionId = a.db.tailSize sessionId := by
      unfold Db.tailSize
      rw [hrows]
    refine ⟨(write_chainInv cap _ ha.chain).1, ?_, ?_, ?_⟩
    · rw [hrows]
      exact ha.constant
    · rw [hsize]
      exact ha.carried
    · unfold SessionWriter.appends
      rw [hsize, hrows]
      exact ha.ends
  | restart => exact ⟨ha.chain, ha.constant, by simp, ha.ends⟩

lemma Materialized.tailInv (h : Materialized cap sessionId policy s) : TailInv sessionId policy s := by
  obtain ⟨input, row, receipt, hwrite, hid, htail, hpolicy⟩ := h
  have hchain : ChainInv s.db := by
    have hstart := (write_chainInv cap (.materialize input) ChainInv.empty).1
    rwa [hwrite] at hstart
  have hmaterialized : materializeSession cap {} input = .ok (.created row receipt, s.db) := by
    unfold write transaction at hwrite
    cases hrun : runWrite cap (.materialize input) {} with
    | error refusal => simp [hrun] at hwrite
    | ok result =>
      obtain ⟨out, next⟩ := result
      obtain ⟨created, rfl, hmat⟩ := runWrite_materialize hrun
      simp only [hrun, Prod.mk.injEq, Except.ok.injEq, WriteOutcome.materialized.injEq] at hwrite
      obtain ⟨rfl, rfl⟩ := hwrite
      exact hmat
  obtain ⟨new, hactions, hnew⟩ := (materializeSession_wrote hmaterialized).actions
  have hsession : input.initialAction.sessionId = sessionId := by
    by_contra hne
    have hother : input.initialAction.sessionId ≠ input.row.id := by rwa [hid]
    unfold materializeSession at hmaterialized
    rw [if_pos (Or.inl hother)] at hmaterialized
    cases hmaterialized
  refine ⟨hchain, hpolicy, by simp [htail], Or.inl ⟨input.initialAction, ?_⟩⟩
  unfold SessionWriter.appends Db.rows
  rw [hactions, nil_append]
  obtain ⟨node, rfl, hnode⟩ := map_eq_singleton_iff.mp hnew
  have hown : node.sessionId = sessionId := by
    rw [hnode]
    exact hsession
  rw [filter_cons_of_pos (by simpa using hown), filter_nil, map_singleton, hnode]

omit [PlainCoding] in
lemma CheckpointPolicy.ofPlain_positive {v : PlainValue} (h : CheckpointPolicy.ofPlain v = some policy) :
    0 < policy.everyActions := by
  unfold CheckpointPolicy.ofPlain at h
  simp only [Option.bind_eq_bind, bind_eq_some_iff] at h
  obtain ⟨_, -, every, hevery, bytes, -, h⟩ := h
  cases h
  obtain ⟨w, -, hread⟩ := bind_eq_some_iff.mp hevery
  have hpositive := (Option.filter_eq_some_iff.mp hread).2
  simpa using hpositive

omit [PlainCoding] in
lemma checkpointPolicy_positive (rows : List Node) : 0 < (checkpointPolicy rows).everyActions := by
  unfold checkpointPolicy
  cases hread : (latestSettings rows).bind fun settings => field settings "checkpoint" CheckpointPolicy.ofPlain with
  | none => decide
  | some policy =>
    obtain ⟨settings, -, hsettings⟩ := bind_eq_some_iff.mp hread
    obtain ⟨v, -, hv⟩ := bind_eq_some_iff.mp hsettings
    exact CheckpointPolicy.ofPlain_positive hv

/-- The session's last row, where it is the only one or a checkpoint, is itself within the limit. -/
def LastRowFits (sessionId : String) (policy : CheckpointPolicy) (s : SessionWriter) : Prop :=
  ∀ front row, s.appends sessionId = front ++ [row] → (front = [] ∨ row.kind = .foldCheckpoint) →
    actionPayloadBytes row ≤ policy.maxTailBytes

lemma tailSize_single (row : Append) :
    (tailSize [row]).rows ≤ 1 ∧ (tailSize [row]).bytes = actionPayloadBytes row := by
  unfold tailSize
  rw [foldl_cons, foldl_nil, TailSize.step]
  split
  · exact ⟨Nat.zero_le _, rfl⟩
  · exact ⟨le_rfl, Nat.zero_add _⟩

theorem TailInv.fits_iff (h : TailInv sessionId policy s) :
    (s.db.tailSize sessionId).Fits policy ↔ LastRowFits sessionId policy s := by
  have hsize : s.db.tailSize sessionId = tailSize (s.appends sessionId) := rfl
  have hpositive : 0 < policy.everyActions := by
    rw [← h.constant]
    exact checkpointPolicy_positive _
  rw [hsize]
  constructor
  · intro hfits front row hrows hlast
    rw [hrows] at hfits
    have hbytes := hfits.bytes
    rcases hlast with rfl | hkind
    · rw [nil_append, (tailSize_single row).2] at hbytes
      exact hbytes
    · rw [tailSize_checkpoint hkind] at hbytes
      exact hbytes
  · intro hlast
    rcases h.ends with ⟨row, hrow⟩ | ⟨front, row, hrows, hkind⟩ | hfits
    · have hbytes := hlast [] row hrow (Or.inl rfl)
      rw [hrow]
      obtain ⟨hone, hpayload⟩ := tailSize_single row
      exact ⟨by omega, by rwa [hpayload]⟩
    · have hbytes := hlast front row hrows (Or.inr hkind)
      rw [hrows, tailSize_checkpoint hkind]
      exact ⟨Nat.zero_le _, hbytes⟩
    · exact hfits

/-- The tail is within the limits, and restoring the session is not refused for it. -/
def TailBounded (sessionId : String) (policy : CheckpointPolicy) (s : SessionWriter) : Prop :=
  (s.db.tailSize sessionId).Fits policy ∧
    ∀ revision maxTailBytes telemetry, restoreSessionHistory s.db sessionId ≠ .error (.refused revision maxTailBytes telemetry)

lemma TailInv.bounded_iff (h : TailInv sessionId policy s) :
    TailBounded sessionId policy s ↔ LastRowFits sessionId policy s := by
  rw [← h.fits_iff]
  refine ⟨fun hbounded => hbounded.1, fun hfits => ⟨hfits, ?_⟩⟩
  intro revision maxTailBytes telemetry
  apply restoreSessionHistory_not_refused h.chain
  rw [h.constant]
  exact hfits.bytes

/-- At every state of a session under one policy, written only by its writer and with no checkpoint refused at the row
cap, the tail is bounded exactly where the row that ends the ledger fits: the genesis row alone, or a checkpoint. -/
theorem checkpoint_tail_bound {cap : ℕ} {sessionId : String} {policy : CheckpointPolicy} {s₀ s : SessionWriter}
    {trace : List (SessionWriter × WriterEvent)} (hinit : Materialized cap sessionId policy s₀)
    (run : Run (WriterStep cap sessionId policy) s₀ trace s) :
    (∀ e ∈ trace, TailBounded sessionId policy e.1 ↔ LastRowFits sessionId policy e.1) ∧
      (TailBounded sessionId policy s ↔ LastRowFits sessionId policy s) := by
  have hstart := hinit.tailInv
  have hstep : ∀ a event b, TailInv sessionId policy a → WriterStep cap sessionId policy a event b →
      TailInv sessionId policy b := fun _ _ _ ha hb => ha.step hb
  constructor
  · intro e he
    exact (run.visits hstart hstep e he).bounded_iff
  · exact (run.preserves hstart hstep).bounded_iff

end

namespace TailSample

attribute [local instance] textCoding

def settings (maxTailBytes : ℕ) : PlainValue :=
  record [("steering", some (.str "all")), ("followUp", some (.str "all")),
    ("checkpoint", some (record [("everyActions", some (.num 1)), ("maxTailBytes", some (.num maxTailBytes))]))]

def genesis (maxTailBytes : ℕ) : Append where
  id := "s:configure"
  parentId := none
  sessionId := "s"
  kind := .sessionConfigure
  intent := record [("settings", some (settings maxTailBytes))]
  effect := .null
  ts := 0

def sessionRow : Row where
  id := "s"
  parentId := none
  role := .resident
  fenceOwner := none
  fence := 0
  revision := 0
  state := .idle
  toolsGeneration := 1
  systemHash := "h"
  policyGeneration := 0

/-- A session that checkpoints every row, under a limit on the tail's bytes. -/
def created (maxTailBytes : ℕ) : SessionWriter :=
  ⟨(write 1000 (.materialize ⟨sessionRow, genesis maxTailBytes⟩) {}).2, none⟩

def authority : AdoptFence := ⟨"s", "runner", 1⟩

def activated (maxTailBytes : ℕ) : SessionWriter :=
  ⟨(write 1000 (.adoptFence authority) (created maxTailBytes).db).2, none⟩

def batch : Commit where
  sessionId := "s"
  owner := "runner"
  fence := 1
  now := 1
  expectedRevision := 1
  actions := [⟨"n", some "s:configure", "s", .policyDecision, .null, .null, none, 1⟩]
  state := .idle

def outcome (maxTailBytes : ℕ) : FoldCommit := commitFoldBatch 1000 none (activated maxTailBytes).db none batch

def committed (maxTailBytes : ℕ) : SessionWriter := ⟨(outcome maxTailBytes).db, (outcome maxTailBytes).tail⟩

/-- What a limit makes of the session's creation, activation and one commit. -/
structure Runs (maxTailBytes : ℕ) : Prop where
  start : Materialized 1000 "s" ⟨1, maxTailBytes⟩ (created maxTailBytes)
  run : ∃ trace, Run (WriterStep 1000 "s" ⟨1, maxTailBytes⟩) (created maxTailBytes) trace (committed maxTailBytes)

variable {maxTailBytes : ℕ}

lemma runs
    (hcreated : ∃ row receipt, (write 1000 (.materialize ⟨sessionRow, genesis maxTailBytes⟩) {}).1 =
      .ok (.materialized (.created row receipt)))
    (hstart : checkpointPolicy ((created maxTailBytes).db.rows "s") = ⟨1, maxTailBytes⟩)
    (hactive : checkpointPolicy ((activated maxTailBytes).db.rows "s") = ⟨1, maxTailBytes⟩)
    (hwarned : (outcome maxTailBytes).warned = none)
    (hafter : checkpointPolicy ((outcome maxTailBytes).db.rows "s") = ⟨1, maxTailBytes⟩) : Runs maxTailBytes := by
  obtain ⟨row, receipt, hwritten⟩ := hcreated
  constructor
  · exact ⟨⟨sessionRow, genesis maxTailBytes⟩, row, receipt, Prod.ext hwritten rfl, rfl, rfl, hstart⟩
  · have hadopt : WriterStep 1000 "s" ⟨1, maxTailBytes⟩ (created maxTailBytes) (.adopt authority) (activated maxTailBytes) :=
      WriterStep.adopt
    have hcommit : WriterStep 1000 "s" ⟨1, maxTailBytes⟩ (activated maxTailBytes) (.commit none batch)
        (committed maxTailBytes) := WriterStep.commit rfl hactive hwarned hafter
    exact ⟨_, (Run.nil.snoc hadopt).snoc hcommit⟩

def wasCreated (maxTailBytes : ℕ) : Bool :=
  match (write 1000 (.materialize ⟨sessionRow, genesis maxTailBytes⟩) {}).1 with
  | .ok (.materialized (.created ..)) => true
  | _ => false

lemma exists_created (h : wasCreated maxTailBytes = true) :
    ∃ row receipt, (write 1000 (.materialize ⟨sessionRow, genesis maxTailBytes⟩) {}).1 =
      .ok (.materialized (.created row receipt)) := by
  unfold wasCreated at h
  split at h
  · rename_i row receipt hwritten
    exact ⟨row, receipt, hwritten⟩
  · cases h

/-- The checkpoint that ends the batch is longer than the tail may be, and the session does not open again. -/
theorem checkpoint_past_limit : ¬ ∀ (cap : ℕ) (sessionId : String) (policy : CheckpointPolicy) (s₀ s : SessionWriter)
    (trace : List (SessionWriter × WriterEvent)), Materialized cap sessionId policy s₀ →
      Run (WriterStep cap sessionId policy) s₀ trace s → TailBounded sessionId policy s := by
  have hfacts : wasCreated 300 = true ∧ checkpointPolicy ((created 300).db.rows "s") = ⟨1, 300⟩ ∧
      checkpointPolicy ((activated 300).db.rows "s") = ⟨1, 300⟩ ∧ (outcome 300).warned = none ∧
      checkpointPolicy ((outcome 300).db.rows "s") = ⟨1, 300⟩ ∧
      restoreSessionHistory (committed 300).db "s" = .error (.refused 3 300 ⟨1, 470, 1⟩) := by
    decide +kernel
  obtain ⟨hcreated, hstart, hactive, hwarned, hafter, hrefused⟩ := hfacts
  obtain ⟨hinit, trace, hrun⟩ := runs (exists_created hcreated) hstart hactive hwarned hafter
  intro hbounded
  have hopens := (hbounded 1000 "s" ⟨1, 300⟩ (created 300) (committed 300) trace hinit hrun).2
  exact hopens 3 300 ⟨1, 470, 1⟩ hrefused

/-- Under a limit above its size the same checkpoint bounds the tail. -/
theorem checkpoint_tail_bound_roomy : TailBounded "s" ⟨1, 600⟩ (committed 600) := by
  have hfacts : wasCreated 600 = true ∧ checkpointPolicy ((created 600).db.rows "s") = ⟨1, 600⟩ ∧
      checkpointPolicy ((activated 600).db.rows "s") = ⟨1, 600⟩ ∧ (outcome 600).warned = none ∧
      checkpointPolicy ((outcome 600).db.rows "s") = ⟨1, 600⟩ ∧
      ((committed 600).appends "s").all (fun row => decide (actionPayloadBytes row ≤ 600)) = true := by
    decide +kernel
  obtain ⟨hcreated, hstart, hactive, hwarned, hafter, hfits⟩ := hfacts
  obtain ⟨hinit, trace, hrun⟩ := runs (exists_created hcreated) hstart hactive hwarned hafter
  apply (checkpoint_tail_bound hinit hrun).2.mpr
  intro front row hrows _
  have hmem : row ∈ (committed 600).appends "s" := by
    rw [hrows]
    exact mem_append_right _ mem_cons_self
  exact of_decide_eq_true (all_eq_true.mp hfits row hmem)

end TailSample
end OpenOmni
