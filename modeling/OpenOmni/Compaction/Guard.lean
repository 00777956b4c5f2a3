import OpenOmni.Fold.Writers

/-! A compaction's result is committed on the projection that its intent was pinned to, or refused. -/
namespace OpenOmni
open List
open Option (bind_eq_some_iff map_eq_some_iff)

open PlainValue SessionTransition FoldCheckpoint Transition

lemma get?_withField (v : PlainValue) (key : String) (value : PlainValue) :
    (v.withField key value).get? key = some value := by
  have hnone : ((v.asObj.getD []).filter (·.1 ≠ key)).lookup key = none := by
    rw [lookup_eq_none_iff]
    intro entry hentry
    have hne : entry.1 ≠ key := by simpa using (mem_filter.mp hentry).2
    simpa using hne.symm
  unfold PlainValue.withField
  rw [get?_obj, lookup_append, hnone]
  simp [List.lookup]

lemma get?_withField_of_ne (v : PlainValue) {key other : String} (value : PlainValue) (h : other ≠ key) :
    (v.withField key value).get? other = v.get? other := by
  have hlookup : ∀ fields : List (String × PlainValue),
      (fields.filter (·.1 ≠ key)).lookup other = fields.lookup other := by
    intro fields
    induction fields with
    | nil => rfl
    | cons entry fields ih =>
      obtain ⟨name, field⟩ := entry
      by_cases hname : name = key
      · have hother : (other == name) = false := by
          rw [hname]
          simpa using h
        rw [filter_cons_of_neg (by simpa using hname), ih, lookup_cons, hother]
      · rw [filter_cons_of_pos (by simpa using hname), lookup_cons, lookup_cons, ih]
  have hlast : List.lookup other [(key, value)] = none := by
    have hother : (other == key) = false := by simpa using h
    rw [lookup_cons, hother]
    rfl
  unfold PlainValue.withField
  rw [get?_obj, lookup_append, hlookup, hlast, Option.or_none]
  cases v <;> rfl

theorem CompactionSource.ofPlain_hash {source captured : CompactionSource}
    (h : CompactionSource.ofPlain source.toPlain = some captured) :
    captured.predecessorProjectionHash = source.predecessorProjectionHash := by
  unfold CompactionSource.ofPlain at h
  simp only [Option.bind_eq_bind, bind_eq_some_iff] at h
  obtain ⟨_, -, sourceRevision, -, _, -, predecessorActionId, -, hash, hhash, h⟩ := h
  cases h
  have hread : field source.toPlain "predecessorProjectionHash" asStr = some source.predecessorProjectionHash := rfl
  rw [hread] at hhash
  exact (Option.some.inj hhash).symm

def CompactionIntent (action : Append) : Prop := action.kind = .compaction ∧ extractIs action.intent "phase" "intent" = true

/-- A compaction's result, or its boundary, that carries a projection. -/
structure CarriesProjection (action : Append) : Prop where
  kind : action.kind = .compaction
  phase : extractIs action.intent "phase" "intent" = false
  executed : executedEffect action = true
  projection : (resultProjection action).isSome

section
variable [PlainCoding]

lemma compactionIdentity_hash {sessionId : String} {state : State} (hstands : Stands sessionId state) {own : String}
    {sourceRevision : ℕ} {source : CompactionSource} (h : compactionIdentity own state sourceRevision = some source) :
    source.predecessorProjectionHash = projectionHash (deriveHistory state) := by
  unfold compactionIdentity foldSessionHistory at h
  obtain ⟨projection, hprojection, rfl⟩ := map_eq_some_iff.mp h
  obtain ⟨folded, hfolded, rfl⟩ := map_eq_some_iff.mp hprojection
  have hsame : foldHistoryState sessionId [] state = some folded := hfolded
  rw [hstands.same] at hsame
  cases hsame
  rfl

lemma capturedSource_same {db : Db} {a b : Append} (h : SameRow a b) : capturedSource db b = capturedSource db a := by
  unfold capturedSource
  rw [h.parentId, h.sessionId]

section
variable {port : Option PinAction} {db : Db} {draft action : Append} {state : State} {sourceRevision : ℕ}
  {sessionId : String}

theorem PinnedTo.compaction (hport : ComposedPort port) (h : PinnedTo port db draft state sourceRevision action)
    (hkind : action.kind = .compaction) : draft.kind = .compaction ∧
      pinCompactionAction db draft state sourceRevision = some action := by
  have hsame := (h.same hport).kind
  have hdraft : draft.kind = .compaction := hsame.symm.trans hkind
  obtain ⟨contextPinned, hcontext, hpin⟩ := h
  have hunpinned : contextPinned = draft := by
    have hstarts : startsTurn draft = false := by simp [startsTurn, hdraft]
    unfold pinContext at hcontext
    rw [hstarts, if_neg Bool.false_ne_true] at hcontext
    exact (Option.some.inj hcontext).symm
  subst hunpinned
  refine ⟨hdraft, ?_⟩
  cases hport with
  | absent =>
    unfold pinThroughPort at hpin
    rw [if_pos hdraft] at hpin
    cases hpin
  | wired => exact hpin

section
variable (hport : ComposedPort port) (hstands : Stands sessionId state)
  (h : PinnedTo port db draft state sourceRevision action)
include hport hstands h

theorem PinnedTo.intent (hintent : CompactionIntent action) :
    ∃ source : CompactionSource, action.intent.get? "context" = some source.toPlain ∧
      source.predecessorProjectionHash = projectionHash (deriveHistory state) := by
  obtain ⟨hkind, hphase⟩ := hintent
  obtain ⟨hdraft, hpin⟩ := h.compaction hport hkind
  unfold pinCompactionAction at hpin
  rw [if_pos hdraft] at hpin
  simp only [Option.bind_eq_bind, bind_eq_some_iff] at hpin
  obtain ⟨_, -, _, -, current, hcurrent, hpin⟩ := hpin
  have hhash := compactionIdentity_hash hstands hcurrent
  by_cases hopens : extractIs draft.intent "phase" "intent" = true
  · rw [if_pos hopens] at hpin
    have hpinned : action = { draft with intent := draft.intent.withField "context" current.toPlain } := by
      unfold pinIntent at hpin
      split at hpin
      · split at hpin
        · exact (Option.some.inj hpin).symm
        · cases hpin
      · exact (Option.some.inj hpin).symm
    refine ⟨current, ?_, hhash⟩
    rw [hpinned]
    exact get?_withField _ _ _
  · exfalso
    rw [if_neg hopens] at hpin
    have hsame : action.intent = draft.intent := by
      split at hpin
      · split at hpin
        · rw [← Option.some.inj hpin]
        · unfold pinResult at hpin
          simp only [Option.bind_eq_bind, bind_eq_some_iff] at hpin
          obtain ⟨_, -, _, -, _, -, _, -, _, -, hpin⟩ := hpin
          rw [← Option.some.inj hpin]
      · rw [← Option.some.inj hpin]
    rw [hsame] at hphase
    exact hopens hphase

theorem PinnedTo.result (hresult : CarriesProjection action) :
    ∃ source, capturedSource db action = some source ∧
      source.predecessorProjectionHash = projectionHash (deriveHistory state) := by
  obtain ⟨hdraft, hpin⟩ := h.compaction hport hresult.kind
  have hrow := h.same hport
  unfold pinCompactionAction at hpin
  rw [if_pos hdraft] at hpin
  simp only [Option.bind_eq_bind, bind_eq_some_iff] at hpin
  obtain ⟨_, -, _, -, current, hcurrent, hpin⟩ := hpin
  have hhash := compactionIdentity_hash hstands hcurrent
  by_cases hopens : extractIs draft.intent "phase" "intent" = true
  · exfalso
    rw [if_pos hopens] at hpin
    have hpinned : action.intent = draft.intent.withField "context" current.toPlain := by
      unfold pinIntent at hpin
      split at hpin
      · split at hpin
        · rw [← Option.some.inj hpin]
        · cases hpin
      · rw [← Option.some.inj hpin]
    have hphase := hresult.phase
    unfold extractIs at hphase hopens
    rw [hpinned, get?_withField_of_ne _ _ (by decide), hopens] at hphase
    cases hphase
  · rw [if_neg hopens] at hpin
    split at hpin
    · cases hitems : resultProjection draft with
      | none =>
        exfalso
        rw [hitems] at hpin
        cases hpin
        have hsome := hresult.projection
        rw [hitems] at hsome
        cases hsome
      | some items =>
        rw [hitems] at hpin
        dsimp only at hpin
        unfold pinResult at hpin
        obtain ⟨captured, hcaptured, hpin⟩ := bind_eq_some_iff.mp hpin
        obtain ⟨_, hsame, -⟩ := bind_eq_some_iff.mp hpin
        refine ⟨captured, ?_, ?_⟩
        · rw [capturedSource_same hrow]
          exact hcaptured
        · have heq : captured.predecessorProjectionHash = current.predecessorProjectionHash := by
            simpa [guard] using hsame
          rw [heq, hhash]
    · exfalso
      rename_i hexecuted
      cases hpin
      exact hexecuted hresult.executed

end

end

/-- The fold of a session's rows and of those that a batch puts before another row. -/
def headState (db : Db) (sessionId : String) (front : List Node) : Option State :=
  (coldFold sessionId (db.rows sessionId)).bind (foldHistoryState sessionId front)

section
variable {cap : ℕ} {a : Writers} {kernel : ℕ} {port : Option PinAction} {input : Commit} {row : Row}
  {receipts : List Receipt}

theorem committed_pinned (ha : WritersInv a) (hok : (a.committed cap kernel port input).outcome = .ok (row, receipts))
    {front rest : List Node} {node : Node} (hsplit : receipts.map (·.action) = front ++ node :: rest)
    (hkind : node.kind = .compaction) : ∃ draft state sourceRevision, headState a.db input.sessionId front = some state ∧
      Stands input.sessionId state ∧ PinnedTo port a.db draft state sourceRevision node.toAppend := by
  have hplanned : ∀ {tail : ResolvedTail} {base : State} {plan : FoldPlan} {policy : CheckpointPolicy}
      {checkpoints : CheckpointMode} {row' : Row} {receipts' : List Receipt} {db' : Db},
      resolveTail a.db (a.tails kernel input.sessionId) input (isExternal input) = .ok tail →
      tail.state a.db input = .ok base →
      planFoldBatch port a.db input (tail.seed base) policy checkpoints = some plan →
      kernelCommit cap { input with actions := plan.actions } a.db = (.ok (row', receipts'), db') →
      receipts'.map (·.action) = front ++ node :: rest →
      ∃ draft state sourceRevision, headState a.db input.sessionId front = some state ∧
        Stands input.sessionId state ∧ PinnedTo port a.db draft state sourceRevision node.toAppend := by
    intro tail base plan policy checkpoints row' receipts' db' htail hbase hplan hcommit hsplit
    have hwritten := kernelCommit_ok ha.chain hcommit
    have hpresent : ∃ current, a.db.selectSession input.sessionId = some current := hwritten.present
    obtain ⟨current, hcurrent⟩ := hpresent
    have hexpected : (a.db.rows input.sessionId).length = input.expectedRevision := hwritten.expected
    have hcold : coldFold input.sessionId (a.db.rows input.sessionId) = some base := by
      have hat := resolveTail_resolved ha.chain hcurrent hexpected (ha.carried kernel input) htail
      rw [← hat.state, hbase]
      rfl
    have hstands := coldFold_stands hcold
    have hseed : PlanFolds port a.db input base (tail.seed base) := by
      refine ⟨hstands.same, ?_⟩
      intro front action rest hnone
      cases front <;> cases hnone
    have hfolds := hseed.of_extends hstands (planFoldBatch_extends hplan)
    have happends : plan.actions = front.map (·.toAppend) ++ node.toAppend :: rest.map (·.toAppend) := by
      have hactions : (receipts'.map (·.action)).map (·.toAppend) = plan.actions := hwritten.appended
      rw [← hactions, hsplit, map_append, map_cons]
    have hfront : front = atOrdinals (a.db.rows input.sessionId).length (front.map (·.toAppend)) := by
      have hnumbered := numbered_rows hwritten.chain hwritten.session
      have hrows : db'.rows input.sessionId = a.db.rows input.sessionId ++ (front ++ node :: rest) := by
        rw [← hsplit]
        exact hwritten.rows
      rw [hrows] at hnumbered
      have hall := hnumbered.written
      rw [map_append, atOrdinals_append] at hall
      exact (append_inj hall (by rw [atOrdinals_length, length_map])).1
    rcases hfolds.pinned _ _ _ happends with hcheckpoint | ⟨draft, -, state, hstate, hpinned⟩
    · rw [hkind] at hcheckpoint
      cases hcheckpoint
    · refine ⟨draft, state, _, ?_, ⟨foldHistoryState_settled hstands.settled hstate, foldHistoryState_nil hstate⟩, hpinned⟩
      unfold headState
      rw [hcold, Option.bind_some, hfront, hexpected]
      exact hstate
  have hcase := commitFoldBatch_cases cap port a.db (a.tails kernel input.sessionId) input
  unfold Writers.committed at hok
  generalize commitFoldBatch cap port a.db (a.tails kernel input.sessionId) input = committed at hok hcase
  cases hcase with
  | failed failure warned => cases hok
  | counted _ _ hneeds hcommit =>
    exfalso
    cases hok
    have hwritten := kernelCommit_ok ha.chain hcommit
    have hmem : node.toAppend ∈ input.actions := by
      rw [← hwritten.appended, hsplit]
      exact mem_map_of_mem (mem_append_right _ mem_cons_self)
    have hneeded : input.actions.any needsProjection = true :=
      any_eq_true.mpr ⟨_, hmem, by simp [needsProjection, hkind]⟩
    rw [hneeds] at hneeded
    cases hneeded
  | planned htail hbase hplan hcommit | fallback htail hbase _ _ hplan hcommit =>
    cases hok
    exact hplanned htail hbase hplan hcommit hsplit

theorem committed_refused {failure : CommitFailure} (h : (a.committed cap kernel port input).outcome = .error failure) :
    (a.committed cap kernel port input).db = a.db := by
  have hcase := commitFoldBatch_cases cap port a.db (a.tails kernel input.sessionId) input
  unfold Writers.committed at h ⊢
  generalize commitFoldBatch cap port a.db (a.tails kernel input.sessionId) input = committed at h hcase ⊢
  cases hcase with
  | failed failure warned => rfl
  | counted | planned | fallback => cases h

lemma WritersStep.grows {b : Writers} {event : WritersEvent} (h : WritersStep cap a event b) :
    ∀ node ∈ a.db.actions, node ∈ b.db.actions := by
  cases h with
  | @commit kernel port input _ =>
    obtain ⟨submitted, hgrows⟩ := committed_grows cap a kernel port input
    exact hgrows.subset
  | @write op => exact (write_grows cap op a.db).subset
  | restart => exact fun _ hnode => hnode

theorem committed_mem (ha : WritersInv a) (hok : (a.committed cap kernel port input).outcome = .ok (row, receipts))
    {node : Node} (hnode : node ∈ receipts.map (·.action)) :
    node ∈ (a.committed cap kernel port input).db.rows input.sessionId := by
  have hcase := commitFoldBatch_cases cap port a.db (a.tails kernel input.sessionId) input
  unfold Writers.committed at hok ⊢
  generalize commitFoldBatch cap port a.db (a.tails kernel input.sessionId) input = committed at hok hcase ⊢
  have hkernel : ∀ {actions row' receipts' db'},
      kernelCommit cap { input with actions := actions } a.db = (.ok (row', receipts'), db') →
      node ∈ receipts'.map (·.action) → node ∈ db'.rows input.sessionId := by
    intro actions row' receipts' db' hcommit hnode
    have hrows : db'.rows input.sessionId = a.db.rows input.sessionId ++ receipts'.map (·.action) :=
      (kernelCommit_ok ha.chain hcommit).rows
    rw [hrows]
    exact mem_append_right _ hnode
  cases hcase with
  | failed failure warned => cases hok
  | counted _ _ _ hcommit | planned _ _ _ hcommit | fallback _ _ _ _ _ hcommit =>
    cases hok
    exact hkernel hcommit hnode

end

/-- The row stands in a batch that a kernel committed in the run, behind the rows before it. -/
structure CommittedIn (cap : ℕ) (trace : List (Writers × WritersEvent)) (a : Writers) (input : Commit)
    (front : List Node) (node : Node) : Prop where
  step : ∃ kernel port row receipts rest, (a, WritersEvent.commit kernel port input) ∈ trace ∧
    (a.committed cap kernel port input).outcome = .ok (row, receipts) ∧ receipts.map (·.action) = front ++ node :: rest

section
variable {cap : ℕ} {s t : Writers} {trace : List (Writers × WritersEvent)} {a b : Writers} {input : Commit}
  {front : List Node} {node : Node}

section
variable (hs : s.Fresh) (run : Run (WritersStep cap) s trace t) (h : CommittedIn cap trace a input front node)
include hs run h

lemma CommittedIn.pinned (hkind : node.kind = .compaction) :
    ∃ port draft state sourceRevision, ComposedPort port ∧ headState a.db input.sessionId front = some state ∧
      Stands input.sessionId state ∧ PinnedTo port a.db draft state sourceRevision node.toAppend := by
  obtain ⟨kernel, port, row, receipts, rest, hmem, hok, hsplit⟩ := h.step
  have hinv := WritersInv.visits hs run _ hmem
  obtain ⟨b, hstep⟩ := run.steps _ hmem
  have hport : ComposedPort port := by
    cases hstep with
    | commit hport => exact hport
  obtain ⟨draft, state, sourceRevision, hhead, hstands, hpinned⟩ := committed_pinned hinv hok hsplit hkind
  exact ⟨port, draft, state, sourceRevision, hport, hhead, hstands, hpinned⟩

theorem CommittedIn.mem_end : node ∈ t.db.actions := by
  obtain ⟨kernel, port, row, receipts, rest, hmem, hok, hsplit⟩ := h.step
  have hinv := WritersInv.visits hs run _ hmem
  obtain ⟨b, later, hstep, hrun⟩ := run.after hmem
  have hrow : node ∈ receipts.map (·.action) := by
    rw [hsplit]
    exact mem_append_right _ mem_cons_self
  have hwritten := mem_of_mem_filter (committed_mem hinv hok hrow)
  have hb : node ∈ b.db.actions := by
    cases hstep with
    | commit _ => exact hwritten
  exact hrun.preserves hb fun _ _ _ hin hnext => hnext.grows node hin

end

/-- In every run of a file's writers, a compaction result that carries a projection is committed only where the fold of
everything before it has the digest that was captured at its intent, which is that of everything before the intent where
a kernel committed it in the run; a commit that is refused leaves the file. -/
theorem compaction_result_guarded (hs : s.Fresh) (run : Run (WritersStep cap) s trace t) :
    (∀ a kernel port input failure, (a, WritersEvent.commit kernel port input) ∈ trace →
      (a.committed cap kernel port input).outcome = .error failure → (a.committed cap kernel port input).db = a.db) ∧
    ∀ b input front result, CommittedIn cap trace b input front result → CarriesProjection result.toAppend →
      ∃ state captured, headState b.db input.sessionId front = some state ∧
        capturedSource b.db result.toAppend = some captured ∧
        captured.predecessorProjectionHash = projectionHash (deriveHistory state) ∧
        ∀ a input' front' intent, CommittedIn cap trace a input' front' intent → CompactionIntent intent.toAppend →
          result.parentId = some intent.id → ∃ pinned, headState a.db input'.sessionId front' = some pinned ∧
            projectionHash (deriveHistory pinned) = projectionHash (deriveHistory state) := by
  constructor
  · intro a kernel port input failure _ hfailed
    exact committed_refused hfailed
  intro b input front result hresult hcarries
  obtain ⟨port, draft, state, sourceRevision, hport, hhead, hstands, hpinned⟩ := hresult.pinned hs run hcarries.kind
  obtain ⟨captured, hcaptured, hhash⟩ := hpinned.result hport hstands hcarries
  refine ⟨state, captured, hhead, hcaptured, hhash, ?_⟩
  intro a input' front' intent hintent hopens hparent
  obtain ⟨port', draft', pinned, sourceRevision', hport', hhead', hstands', hpinned'⟩ := hintent.pinned hs run hopens.1
  obtain ⟨source, hcontext, hsource⟩ := hpinned'.intent hport' hstands' hopens
  refine ⟨pinned, hhead', ?_⟩
  have hend := run.preserves hs.inv fun _ _ _ hin hstep => hin.step hstep
  obtain ⟨kernel, port'', row, receipts, rest, hmem, -, -⟩ := hresult.step
  obtain ⟨later, hrun⟩ := run.since hmem
  unfold capturedSource at hcaptured
  obtain ⟨parent, hfound, hcaptured⟩ := bind_eq_some_iff.mp hcaptured
  have hlookup : b.db.actionById intent.id = some parent := by
    rw [hparent] at hfound
    exact hfound
  have hsame : parent = intent := by
    have hid : parent.id = intent.id := by simpa using find?_some hlookup
    have hparentMem : parent ∈ b.db.actions := mem_of_find?_eq_some hlookup
    have hparentEnd : parent ∈ t.db.actions :=
      hrun.preserves hparentMem fun _ _ _ hin hstep => hstep.grows parent hin
    exact inj_on_of_nodup_map hend.chain.actionIds hparentEnd (hintent.mem_end hs run) hid
  obtain ⟨_, -, hcaptured⟩ := bind_eq_some_iff.mp hcaptured
  obtain ⟨_, -, hcaptured⟩ := bind_eq_some_iff.mp hcaptured
  rw [hsame, hcontext] at hcaptured
  rw [← hhash, ← hsource, CompactionSource.ofPlain_hash hcaptured]

end

end

namespace GuardSample

attribute [local instance] textCoding

def opening : Commit where
  sessionId := "s"
  owner := "runner"
  fence := 1
  now := 1
  expectedRevision := 1
  actions := [⟨"c", some "s:configure", "s", .compaction, record [("phase", some (.str "intent"))], .obj [], none, 1⟩]
  state := .idle

def closing : Commit where
  sessionId := "s"
  owner := "runner"
  fence := 1
  now := 2
  expectedRevision := 3
  actions := [⟨"c:result", some "c", "s", .compaction, record [("phase", some (.str "result"))],
    record [("phase", some (.str "result")), ("terminal", some (.str "executed")),
      ("result", some (record [("projection", some (.arr []))]))], none, 2⟩]
  state := .idle

def created : Writers where
  db := (write 5000 (.materialize ⟨TailSample.sessionRow, WritersSample.genesis⟩) WritersSample.start.db).2
  tails := WritersSample.start.tails

def activated : Writers := ⟨(write 5000 (.adoptFence TailSample.authority) created.db).2, created.tails⟩

def opened : Writers where
  db := (activated.committed 5000 0 (some pinCompactionAction) opening).db
  tails := Function.update activated.tails 0
    (Function.update (activated.tails 0) "s" (activated.committed 5000 0 (some pinCompactionAction) opening).tail)

def closed : Writers where
  db := (opened.committed 5000 0 (some pinCompactionAction) closing).db
  tails := Function.update opened.tails 0
    (Function.update (opened.tails 0) "s" (opened.committed 5000 0 (some pinCompactionAction) closing).tail)

def firstOf (committed : FoldCommit) : Option Node :=
  (committed.outcome.toOption.bind fun result => result.2.head?).map (·.action)

lemma firstOf_some {committed : FoldCommit} {node : Node} (h : firstOf committed = some node) :
    ∃ row receipts rest, committed.outcome = .ok (row, receipts) ∧ receipts.map (·.action) = [] ++ node :: rest := by
  unfold firstOf at h
  obtain ⟨receipt, hreceipt, rfl⟩ := map_eq_some_iff.mp h
  obtain ⟨⟨row, receipts⟩, hok, hfirst⟩ := bind_eq_some_iff.mp hreceipt
  obtain ⟨rest, rfl⟩ := head?_eq_some_iff.mp hfirst
  refine ⟨row, receipt :: rest, rest.map (·.action), ?_, rfl⟩
  cases hcommitted : committed.outcome with
  | error failure =>
    rw [hcommitted] at hok
    cases hok
  | ok result =>
    rw [hcommitted] at hok
    exact congrArg Except.ok (Option.some.inj hok)

def carries (action : Append) : Bool :=
  decide (action.kind = .compaction) && !extractIs action.intent "phase" "intent" && executedEffect action &&
    (resultProjection action).isSome

/-- The result of a compaction that nothing came between is committed on the digest captured at its intent. -/
theorem compaction_result_guarded_once : ∃ result state captured,
    firstOf (opened.committed 5000 0 (some pinCompactionAction) closing) = some result ∧
      headState opened.db "s" [] = some state ∧ capturedSource opened.db result.toAppend = some captured ∧
      captured.predecessorProjectionHash = projectionHash (deriveHistory state) := by
  have hcarries : ((firstOf (opened.committed 5000 0 (some pinCompactionAction) closing)).map fun node =>
      carries node.toAppend) = some true := by
    decide +kernel
  obtain ⟨result, hresult, hchecked⟩ := map_eq_some_iff.mp hcarries
  unfold carries at hchecked
  simp only [Bool.and_eq_true, decide_eq_true_eq, Bool.not_eq_true'] at hchecked
  obtain ⟨⟨⟨hkind, hphase⟩, hexecuted⟩, hprojection⟩ := hchecked
  obtain ⟨row, receipts, rest, hok, hsplit⟩ := firstOf_some hresult
  have hcreated : WritersStep 5000 WritersSample.start (.write (.materialize ⟨TailSample.sessionRow, WritersSample.genesis⟩))
      created := .write
  have hactivated : WritersStep 5000 created (.write (.adoptFence TailSample.authority)) activated := .write
  have hopened : WritersStep 5000 activated (.commit 0 (some pinCompactionAction) opening) opened := .commit .wired
  have hclosed : WritersStep 5000 opened (.commit 0 (some pinCompactionAction) closing) closed := .commit .wired
  have hrun := (((Run.nil.snoc hcreated).snoc hactivated).snoc hopened).snoc hclosed
  obtain ⟨state, captured, hhead, hcaptured, hhash, -⟩ :=
    (compaction_result_guarded WritersSample.fresh_start hrun).2 opened closing [] result
      ⟨⟨0, some pinCompactionAction, row, receipts, rest, mem_append_right _ mem_cons_self, hok, hsplit⟩⟩
      ⟨hkind, hphase, hexecuted, hprojection⟩
  exact ⟨result, state, captured, hresult, hhead, hcaptured, hhash⟩

end GuardSample
end OpenOmni
