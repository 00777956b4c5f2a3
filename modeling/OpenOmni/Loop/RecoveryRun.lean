import Mathlib.Computability.Primrec.List
import OpenOmni.Loop.Settlement

/-! Recovery over the rows of a lost turn, page by page. -/
namespace OpenOmni
open List

open PlainValue Cutoff

def Unspent (scope : RecoveryScope) (rows : List Node) : Prop :=
  Function.Injective scope.entropy ∧ ∀ m, rows.length ≤ m → ∀ r ∈ rows, r.id ≠ scope.entropy m

variable {scope : RecoveryScope} {rows : List Node} {E : Log → Prop} {log : Log} {id : String}

lemma Unspent.concat {n : Node} (h : Unspent scope rows) (hid : n.id = scope.entropy rows.length) :
    Unspent scope (rows ++ [n]) := by
  refine ⟨h.1, fun m hm r hr => ?_⟩
  rw [length_append, length_singleton] at hm
  rcases mem_append.mp hr with hr | hr
  · exact h.2 m (by omega) r hr
  · obtain rfl := mem_singleton.mp hr
    rw [hid]
    intro heq
    have hlength := h.1 heq
    omega

structure Ends (value : PlainValue) (how : String) : Prop where
  phase : extractIs value "phase" "result"
  terminal : extractIs value "terminal" how
  known : how ∈ terminals

lemma crashEffect_ends (action : Node) (verdict : RecoveryVerdict) :
    Ends (crashEffect action verdict) verdict.terminal := by
  refine ⟨?_, ?_, ?_⟩
  · simp [crashEffect, extractIs, get?_record, List.lookup]
  · simp [crashEffect, extractIs, get?_record, List.lookup]
  · unfold RecoveryVerdict.terminal
    split <;> decide

lemma verdict_not_executed (verdict : RecoveryVerdict) : verdict.terminal ≠ "executed" := by
  unfold RecoveryVerdict.terminal
  split <;> decide

/-- Reading page by page visits everything that matches, when the visits keep what is outstanding in a list
that a new read does not lose. -/
theorem eachRecord_meets {β : Type} {p : List Node → Node → Bool} {visit : β → Node → Recover β}
    {I : List Node → β → Log → Prop} {bound : ℕ}
    (hvisit : ∀ x L b log, I (x :: L) b log → Meets (visit b x) log (I L) E)
    (hreread : ∀ L b log cursor, I L b log → (∀ c ∈ L, cursor < c.ordinal) →
      I (log.rows.filter fun a => cursor < a.ordinal && p log.rows a) b log)
    (hordinals : ∀ L b log, I L b log → log.rows.map (·.ordinal) = List.range' 1 log.rows.length)
    (hbound : ∀ L b log, I L b log → ∀ c ∈ log.rows, p log.rows c → c.ordinal ≤ bound) :
    ∀ (fuel cursor : ℕ) (b : β) (log : Log), bound < cursor + fuel →
      I (log.rows.filter fun a => cursor < a.ordinal && p log.rows a) b log →
      Meets (Recover.eachRecord (fun rows cursor =>
        (rows.filter fun a => cursor < a.ordinal && p rows a).take operationPage) visit fuel cursor b) log (I []) E := by
  intro fuel
  induction fuel with
  | zero =>
    intro cursor b log hfuel h
    -- nothing stands past the bound
    have hnil : (log.rows.filter fun a => cursor < a.ordinal && p log.rows a) = [] := by
      rw [filter_eq_nil_iff]
      intro c hc hmatch
      simp only [Bool.and_eq_true, decide_eq_true_eq] at hmatch
      have hle := hbound _ b log h c hc hmatch.2
      omega
    rw [hnil] at h
    exact h
  | succ fuel ih =>
    intro cursor b log hfuel h
    unfold Recover.eachRecord
    refine Meets.view ?_
    generalize hL : (log.rows.filter fun a => cursor < a.ordinal && p log.rows a) = L at h
    have hsplit : L.take operationPage ++ L.drop operationPage = L := take_append_drop _ _
    have hpage : Meets ((L.take operationPage).foldlM visit b) log (fun b' log' => I (L.drop operationPage) b' log') E := by
      have hfold := Meets.foldlM (I := fun xs b log => I (xs ++ L.drop operationPage) b log)
        (fun x xs b log hx => hvisit x _ b log hx) (L.take operationPage) b log (by rw [hsplit]; exact h)
      exact hfold
    refine Meets.bind (hpage.mono fun b' log' h' => ?_)
    split
    · rename_i hshort
      have hnil : L.drop operationPage = [] := by
        rw [length_take] at hshort
        exact drop_eq_nil_of_le (by omega)
      rw [hnil] at h'
      exact Meets.pure h'
    · rename_i hfull
      have hsorted : L.Pairwise (fun c d => c.ordinal < d.ordinal) := by
        rw [← hL]
        have hrows : (log.rows.map (·.ordinal)).Pairwise (· < ·) := by
          rw [hordinals _ b log (hL ▸ h)]
          exact pairwise_lt_range'
        exact (pairwise_map.mp hrows).filter _
      have hpositive : 0 < operationPage := by decide
      have hne : L.take operationPage ≠ [] := by
        intro hnil
        rw [hnil] at hfull
        simp [hpositive] at hfull
      obtain ⟨last, hlast⟩ : ∃ last, (L.take operationPage).getLast? = some last :=
        ⟨_, getLast?_eq_some_getLast hne⟩
      have hmem : last ∈ L.take operationPage := mem_of_getLast? hlast
      have hlater : ∀ c ∈ L.drop operationPage, last.ordinal < c.ordinal := by
        intro c hc
        rw [← hsplit, pairwise_append] at hsorted
        exact hsorted.2.2 _ hmem c hc
      have hpast : cursor < last.ordinal := by
        have hmemL : last ∈ log.rows.filter fun a => cursor < a.ordinal && p log.rows a := by
          rw [hL]
          exact mem_of_mem_take hmem
        obtain ⟨-, hmatch⟩ := mem_filter.mp hmemL
        simp only [Bool.and_eq_true, decide_eq_true_eq] at hmatch
        exact hmatch.1
      rw [hlast]
      exact ih _ b' log' (by simp only [Option.map_some, Option.getD_some]; omega)
        (hreread _ b' log' _ h' (by simpa using hlater))

lemma terminal_meets (h : resultForIn log.rows id = .error () → E log) :
    Meets (Recover.terminal id) log (fun o log' => log' = log ∧ resultForIn log.rows id = .ok o) E := by
  unfold Recover.terminal
  refine Meets.view ?_
  cases hread : resultForIn log.rows id with
  | ok o => exact Meets.pure ⟨rfl, rfl⟩
  | error e => exact Meets.lost (h hread)

lemma boundaryEvidence_some {boundary : Node} (h : boundaryEvidence rows id = some boundary) :
    HasBoundary rows (some id) := by
  obtain ⟨hrow, hphase⟩ := Option.filter_eq_some_iff.mp h
  refine ⟨id, rfl, boundary, mem_of_find?_eq_some hrow, ?_, hphase⟩
  simpa using find?_some hrow

lemma TurnLedger.nodup (h : TurnLedger rows) : rows.Nodup :=
  List.Nodup.of_map _ h.ids

variable [PlainCoding]

/-- What a recovery that began at `start` keeps. `Calm` is that the process is not lost and the ids are
fresh. -/
structure Keeping (scope : RecoveryScope) (Calm : Prop) (start : List Node) (log : Log) : Prop where
  leaves : Leaves scope.turnId log.rows
  settling : Settling scope.turnId start log.rows
  spare : Calm → log.left = none ∧ Unspent scope log.rows

/-- How it is cut off: in a calm run only where an open operation is not clear. -/
structure Cut (scope : RecoveryScope) (Calm : Prop) (start : List Node) (log : Log) : Prop where
  settling : Settling scope.turnId start log.rows
  stuck : Calm → ¬ Clear scope.turnId log.rows

section
variable {scope : RecoveryScope} {Calm : Prop} {start : List Node} {log : Log}

variable {turnId how : String} {rows base outstanding : List Node} {p a c : Node} {row : Append} {log' : Log}
  {cursor : ℕ}

lemma SettleStep.leaves {a : Append} (h : SettleStep turnId rows a) (hrows : Leaves turnId rows) :
    Leaves turnId (rows ++ [⟨a, rows.length + 1⟩]) := by
  refine ⟨h.written hrows.written, ?_⟩
  obtain ⟨r, hr, hid, hkind⟩ := hrows.turn
  exact ⟨r, mem_append_left _ hr, hid, hkind⟩

theorem Keeping.commit {a : Append} (h : Keeping scope Calm start log)
    (hid : a.id = scope.entropy log.rows.length)
    (hstep : (∀ r ∈ log.rows, r.id ≠ a.id) → SettleStep scope.turnId log.rows a) :
    Meets (Recover.commit a) log
      (fun _ log' => Keeping scope Calm start log' ∧ SettleStep scope.turnId log.rows a ∧
        log'.rows = log.rows ++ [⟨a, log.rows.length + 1⟩])
      (Cut scope Calm start) := by
  unfold Meets Recover.commit
  by_cases hcut : log.left = some 0 ∨ log.rows.any (·.id = a.id)
  · rw [if_pos hcut]
    refine ⟨h.settling, fun hcalm => ?_⟩
    obtain ⟨hleft, hunspent⟩ := h.spare hcalm
    rcases hcut with hlost | htaken
    · simp [hleft] at hlost
    · obtain ⟨r, hr, hsame⟩ := any_eq_true.mp htaken
      have hne := hunspent.2 log.rows.length le_rfl r hr
      rw [← hid] at hne
      exact absurd (by simpa using hsame) hne
  · rw [if_neg hcut]
    have hfresh : ∀ r ∈ log.rows, r.id ≠ a.id := by
      intro r hr heq
      exact hcut (Or.inr (any_eq_true.mpr ⟨r, hr, by simpa using heq⟩))
    have hsettle := hstep hfresh
    refine ⟨⟨hsettle.leaves h.leaves, .snoc h.settling hsettle, fun hcalm => ?_⟩, hsettle, rfl⟩
    obtain ⟨hleft, hunspent⟩ := h.spare hcalm
    exact ⟨by simp [hleft], hunspent.concat hid⟩

/-- The row that settles `p`, and what is kept behind it. -/
structure Settled (scope : RecoveryScope) (Calm : Prop) (start : List Node) (log : Log) (p : Node) (how : String)
    (a : Append) (log' : Log) : Prop where
  keeping : Keeping scope Calm start log'
  step : SettleStep scope.turnId log.rows a
  result : IsResult log.rows a p
  ends : extractIs a.effect "terminal" how
  rows : log'.rows = log.rows ++ [⟨a, log.rows.length + 1⟩]

theorem Keeping.appendResult {op : String} {value : PlainValue} {revert : Option PlainValue}
    (h : Keeping scope Calm start log) (hp : p ∈ log.rows) (hintent : isIntent p)
    (hfirst : operationResults log.rows p = []) (hsubject : Subject scope.turnId log.rows p) (hends : Ends value how)
    (hattempt : isAttempt log.rows p → how = "outcome_unknown")
    (hhonest : how = "executed" → HasBoundary log.rows (some p.id)) :
    Meets (Recover.appendResult scope p.kind op p.id value revert) log
      (fun _ log' => ∃ a, Settled scope Calm start log p how a log') (Cut scope Calm start) := by
  have hrow : ∀ a : Append, a.parentId = some p.id → a.kind = p.kind →
      a.intent = record [("phase", some (.str "result")), ("op", some (.str op))] → a.effect = value →
      IsResult log.rows a p := by
    intro a hparent hkind ha heffect
    refine ⟨hp, hparent, hkind, hintent, ?_, heffect ▸ hends.phase, ?_, hfirst⟩
    · rw [ha]
      simp [extractIs, get?_record, List.lookup]
    · rw [heffect]
      exact any_eq_true.mpr ⟨how, hends.known, hends.terminal⟩
  unfold Recover.appendResult
  refine Meets.view ?_
  refine (h.commit rfl fun hfresh => ?_).mono ?_
  · refine ⟨hfresh, ⟨p, hrow _ rfl rfl rfl rfl, hsubject, fun hatt => ?_⟩, ?_, ?_⟩
    · rw [← hattempt hatt]
      exact hends.terminal
    · simp [get?_record, List.lookup]
    · intro hexecuted
      exact hhonest (extractIs_inj hends.terminal hexecuted)
  · rintro - log' ⟨hkeeping, hstep, hrows⟩
    exact ⟨_, hkeeping, hstep, hrow _ rfl rfl rfl rfl, hends.terminal, hrows⟩

lemma boundaryEffect_ends (action boundary : Node) : Ends (boundaryEffect action boundary) "executed" := by
  refine ⟨?_, ?_, by decide⟩
  · simp [boundaryEffect, extractIs, get?_record, List.lookup]
  · simp [boundaryEffect, extractIs, get?_record, List.lookup]

theorem Keeping.settleCrash {verdict : RecoveryVerdict} (h : Keeping scope Calm start log) (hp : p ∈ log.rows)
    (hintent : isIntent p) (hfirst : operationResults log.rows p = []) (hsubject : Subject scope.turnId log.rows p)
    (hattempt : isAttempt log.rows p → verdict.terminal = "outcome_unknown") :
    Meets (Recover.settleCrash scope p verdict) log
      (fun _ log' => ∃ a, Settled scope Calm start log p verdict.terminal a log') (Cut scope Calm start) :=
  h.appendResult hp hintent hfirst hsubject (crashEffect_ends p verdict) hattempt
    fun hexecuted => absurd hexecuted (verdict_not_executed verdict)

theorem operationResults_of_open (hrows : TurnLedger rows) (hopen : openOperation rows turnId a) :
    operationResults rows a = [] := by
  simp only [openOperation, Bool.and_eq_true, Bool.not_eq_true', hasResult] at hopen
  obtain ⟨⟨hop, hnone⟩, -⟩ := hopen
  have hintent := isIntent_of_turnOperation hop
  simp only [isIntent, Bool.and_eq_true] at hintent
  rw [operationResults, filter_eq_nil_iff]
  intro r hr hmatch
  simp only [Bool.and_eq_true, decide_eq_true_eq] at hmatch
  obtain ⟨⟨hparent, hkind⟩, hphase⟩ := hmatch
  have hopkind : operationKinds.contains r.kind := hkind ▸ hintent.1
  have hcheckpoint : r.kind ≠ .foldCheckpoint := by
    intro heq
    rw [heq] at hopkind
    exact absurd hopkind (by decide)
  have hfound := any_eq_false.mp hnone r hr
  simp [hparent, hcheckpoint, hrows.own r hr hopkind hphase] at hfound

lemma turnOperation_of_open (hopen : openOperation rows turnId a) :
    turnOperation rows turnId a ∧ ¬ inGuardedWave rows a := by
  simp only [openOperation, Bool.and_eq_true, Bool.not_eq_true'] at hopen
  exact ⟨hopen.1.1, by simp [hopen.2]⟩

theorem crashVerdict_attempt {b : Node} (hrows : TurnLedger rows) (hb : b ∈ rows) (hattempt : isAttempt rows b) :
    (crashVerdict b).terminal = "outcome_unknown" := by
  obtain ⟨-, hrecovery, -⟩ := hrows.attempt b hb hattempt
  have hclass : (recordedClassification (b.intent.get? "recovery")).getD (recoveryClassification b.kind) =
      .ambiguousNoReplay := by
    rw [hrecovery, hattempt.1]
    rfl
  simp [crashVerdict, hclass, RecoveryVerdict.terminal]

/-- What settling an operation leaves of the others that are open: they stay open, and no more are. -/
structure Frame (turnId : String) (a : Node) (rows rows' : List Node) : Prop where
  others : ∀ c ∈ rows, c ≠ a → openOperation rows turnId c → c ∈ rows' ∧ openOperation rows' turnId c
  still : ∀ c ∈ rows', openOperation rows' turnId c → c ∈ rows ∧ openOperation rows turnId c

lemma Frame.refl (turnId : String) (a : Node) (rows : List Node) : Frame turnId a rows rows :=
  ⟨fun _ hc _ hopen => ⟨hc, hopen⟩, fun _ hc hopen => ⟨hc, hopen⟩⟩

lemma Frame.concat {rows' : List Node} (h : Frame turnId a rows rows') (hleaves : Leaves turnId rows')
    (hstep : SettleStep turnId rows' row) (hp : IsResult rows' row p) (hsubject : p = a ∨ isAttempt rows' p) :
    Frame turnId a rows (rows' ++ [⟨row, rows'.length + 1⟩]) := by
  have hledger := hleaves.written.ledger
  constructor
  · intro c hc hne hopen
    obtain ⟨hmem, hstill⟩ := h.others c hc hne hopen
    have hcp : c ≠ p := by
      rintro rfl
      rcases hsubject with heq | hattempt
      · exact hne heq
      · have hop := (turnOperation_of_open hstill).1
        rw [hleaves.not_operation hmem hattempt] at hop
        cases hop
    have hparent : row.parentId ≠ some c.id := by
      rw [hp.parent]
      intro hid
      exact hcp (inj_on_of_nodup_map hledger.ids hmem hp.mem (Option.some.inj hid).symm)
    refine ⟨mem_append_left _ hmem, ?_⟩
    rw [hstep.openOperation_eq hparent]
    exact hstill
  · intro c hc hopen
    have hmem := hstep.mem_of_intent hc (isIntent_of_turnOperation (turnOperation_of_open hopen).1)
    have hparent : row.parentId ≠ some c.id := by
      intro hid
      simp [openOperation, hstep.hasResult_eq, hid] at hopen
    rw [hstep.openOperation_eq hparent] at hopen
    exact h.still c hmem hopen

/-- In the middle of `settleLlm`: the operation is still open, `outstanding` are children to visit, and every
attempt that is not among them is done. -/
structure Attempting (scope : RecoveryScope) (Calm : Prop) (start : List Node) (a : Node)
    (base outstanding : List Node) (log : Log) : Prop where
  keeping : Keeping scope Calm start log
  mem : a ∈ log.rows
  model : a.kind = .llm
  isOpen : openOperation log.rows scope.turnId a
  children : ∀ c ∈ outstanding, c ∈ log.rows ∧ c.parentId = some a.id
  rest : ∀ c ∈ log.rows, attemptOf a c → c ∈ outstanding ∨ AttemptDone log.rows c
  bounded : ∀ c ∈ log.rows, c.parentId = some a.id → c.ordinal ≤ base.length
  frame : Frame scope.turnId a base log.rows

lemma Attempting.isAttempt (h : Attempting scope Calm start a base outstanding log) (hc : attemptOf a c) :
    isAttempt log.rows c :=
  ⟨hc.2.1, hc.2.2, a, h.mem, hc.1, h.model⟩

theorem Attempting.pass (h : Attempting scope Calm start a base (c :: outstanding) log)
    (hc : attemptOf a c → AttemptDone log.rows c) : Attempting scope Calm start a base outstanding log where
  keeping := h.keeping
  mem := h.mem
  model := h.model
  isOpen := h.isOpen
  children := fun d hd => h.children d (mem_cons_of_mem c hd)
  rest := by
    intro d hd hattempt
    rcases h.rest d hd hattempt with hmem | hdone
    · rcases mem_cons.mp hmem with rfl | hmem
      · exact Or.inr (hc hattempt)
      · exact Or.inl hmem
    · exact Or.inr hdone
  bounded := h.bounded
  frame := h.frame

theorem Attempting.settle (h : Attempting scope Calm start a base (c :: outstanding) log) (hc : attemptOf a c)
    (hrow : Settled scope Calm start log c "outcome_unknown" row log') :
    Attempting scope Calm start a base outstanding log' := by
  have hledger := h.keeping.leaves.written.ledger
  have hattempt := h.isAttempt hc
  have hcmem := (h.children c mem_cons_self).1
  have hne : a ≠ c := by
    intro heq
    have hop := (turnOperation_of_open h.isOpen).1
    rw [heq, h.keeping.leaves.not_operation hcmem hattempt] at hop
    cases hop
  have hparent : row.parentId ≠ some a.id := by
    rw [hrow.result.parent]
    intro hid
    exact hne (inj_on_of_nodup_map hledger.ids h.mem hcmem (Option.some.inj hid).symm)
  have hgrown : ∀ d ∈ log.rows, d ∈ log'.rows := by
    intro d hd
    rw [hrow.rows]
    exact mem_append_left _ hd
  refine ⟨hrow.keeping, hgrown a h.mem, h.model, ?_, ?_, ?_, ?_, ?_⟩
  · rw [hrow.rows, hrow.step.openOperation_eq hparent]
    exact h.isOpen
  · intro d hd
    obtain ⟨hdmem, hdparent⟩ := h.children d (mem_cons_of_mem c hd)
    exact ⟨hgrown d hdmem, hdparent⟩
  · intro d hd hdattempt
    rw [hrow.rows] at hd ⊢
    have hdmem := hrow.step.mem_of_intent hd hdattempt.2.2
    rcases h.rest d hdmem hdattempt with hmem | hdone
    · rcases mem_cons.mp hmem with rfl | hmem
      · -- the new row is the attempt's own result
        have hresults := hrow.result.operationResults_eq hledger.ids hdmem
        rw [hrow.result.first, if_pos rfl, nil_append] at hresults
        refine Or.inr ⟨by simp [hresults], ?_⟩
        intro r hr hinterrupted
        rw [hresults] at hr
        obtain rfl := mem_singleton.mp hr
        exact absurd (extractIs_inj hrow.ends hinterrupted) (by decide)
      · exact Or.inl hmem
    · exact Or.inr (hrow.step.attemptDone hledger hdmem hdone)
  · intro d hd hdparent
    rw [hrow.rows] at hd
    rcases mem_append.mp hd with hd | hd
    · exact h.bounded d hd hdparent
    · obtain rfl := mem_singleton.mp hd
      exact absurd hdparent hparent
  · rw [hrow.rows]
    exact h.frame.concat h.keeping.leaves hrow.step hrow.result (Or.inr hattempt)

lemma Attempting.visit {state : Bool × Node} (h : Attempting scope Calm start a base (c :: outstanding) log) :
    Meets (Recover.settleAttempt scope a state c) log
      (fun _ log' => Attempting scope Calm start a base outstanding log') (Cut scope Calm start) := by
  have hledger := h.keeping.leaves.written.ledger
  obtain ⟨hcmem, hparent⟩ := h.children c mem_cons_self
  unfold Recover.settleAttempt
  by_cases hkind : c.kind ≠ .llm ∨ c.parentId ≠ some a.id
  · rw [if_pos hkind]
    refine Meets.pure (h.pass fun hattempt => ?_)
    exact absurd hkind (by simp [hattempt.1, hattempt.2.1])
  rw [if_neg hkind]
  by_cases hphase : extractIs c.intent "phase" "intent"
  · have hllm : c.kind = .llm := by
      by_contra hne
      exact hkind (Or.inl hne)
    have hattempt : attemptOf a c := ⟨hparent, hllm, by simp [isIntent, hllm, hphase, operationKinds]⟩
    have hisAttempt := h.isAttempt hattempt
    rw [hphase, if_neg (by simp)]
    refine Meets.bind ((terminal_meets fun hread => ?_).mono ?_)
    · -- an interrupted attempt stops the recovery
      refine ⟨h.keeping.settling, fun _ hclear => ?_⟩
      obtain ⟨r, hr, hinterrupted⟩ := hledger.resultForIn_error hcmem hisAttempt hread
      obtain ⟨hop, hguarded⟩ := turnOperation_of_open h.isOpen
      have hnone := operationResults_of_open hledger h.isOpen
      exact (hclear a h.mem hop hguarded hnone).2 h.model c hcmem hattempt r hr hinterrupted
    · rintro o log' ⟨rfl, hread⟩
      cases o with
      | some r => exact Meets.pure (h.pass fun _ => hledger.attemptDone hcmem hisAttempt hread)
      | none =>
        have hfirst := hledger.resultForIn_none hcmem hisAttempt hread
        have hcrash := crashVerdict_attempt hledger hcmem hisAttempt
        refine Meets.bind ((h.keeping.settleCrash hcmem hattempt.2.2 hfirst
          (.attempt a h.mem h.isOpen h.model hattempt) fun _ => hcrash).mono ?_)
        rintro - log' ⟨row, hrow⟩
        rw [hcrash] at hrow
        exact Meets.pure (h.settle hattempt hrow)
  · rw [Bool.not_eq_true] at hphase
    rw [hphase, if_pos (by simp)]
    refine Meets.pure (h.pass fun hattempt => ?_)
    have hintent := hattempt.2.2
    simp [isIntent, hphase] at hintent

structure Visited (scope : RecoveryScope) (Calm : Prop) (start : List Node) (a : Node) (log log' : Log) : Prop where
  keeping : Keeping scope Calm start log'
  frame : Frame scope.turnId a log.rows log'.rows
  closed : ¬ openOperation log'.rows scope.turnId a

theorem Settled.visited (hrow : Settled scope Calm start log a how row log') (hleaves : Leaves scope.turnId log.rows)
    (hframe : Frame scope.turnId a base log.rows) :
    Keeping scope Calm start log' ∧ Frame scope.turnId a base log'.rows ∧
      ¬ openOperation log'.rows scope.turnId a := by
  refine ⟨hrow.keeping, ?_, ?_⟩
  · rw [hrow.rows]
    exact hframe.concat hleaves hrow.step hrow.result (Or.inl rfl)
  · intro hopen
    rw [hrow.rows] at hopen
    simp [openOperation, hrow.step.hasResult_eq, hrow.result.parent] at hopen

theorem Attempting.reread (h : Attempting scope Calm start a base outstanding log)
    (hcursor : ∀ c ∈ outstanding, cursor < c.ordinal) : Attempting scope Calm start a base
      (log.rows.filter fun c => cursor < c.ordinal && c.parentId = some a.id) log where
  keeping := h.keeping
  mem := h.mem
  model := h.model
  isOpen := h.isOpen
  children := by
    intro c hc
    obtain ⟨hmem, hmatch⟩ := mem_filter.mp hc
    simp only [Bool.and_eq_true, decide_eq_true_eq] at hmatch
    exact ⟨hmem, hmatch.2⟩
  rest := by
    intro c hc hattempt
    rcases h.rest c hc hattempt with hmem | hdone
    · exact Or.inl (mem_filter.mpr ⟨hc, by simp [hcursor c hmem, hattempt.1]⟩)
    · exact Or.inr hdone
  bounded := h.bounded
  frame := h.frame

lemma Keeping.ordinal (h : Keeping scope Calm start log) (hc : c ∈ log.rows) :
    0 < c.ordinal ∧ c.ordinal ≤ log.rows.length := by
  have hmem : c.ordinal ∈ List.range' 1 log.rows.length := by
    rw [← h.leaves.written.ledger.ordinals]
    exact mem_map_of_mem hc
  rw [List.mem_range'_1] at hmem
  omega

theorem Keeping.settleLlm (h : Keeping scope Calm start log) (ha : a ∈ log.rows) (hmodel : a.kind = .llm)
    (hopen : openOperation log.rows scope.turnId a) :
    Meets (Recover.settleLlm scope a) log (fun _ log' => Visited scope Calm start a log log')
      (Cut scope Calm start) := by
  have hbegin : Attempting scope Calm start a log.rows
      (log.rows.filter fun c => 0 < c.ordinal && c.parentId = some a.id) log := by
    refine ⟨h, ha, hmodel, hopen, ?_, ?_, fun c hc _ => (h.ordinal hc).2, Frame.refl _ _ _⟩
    · intro c hc
      obtain ⟨hmem, hmatch⟩ := mem_filter.mp hc
      simp only [Bool.and_eq_true, decide_eq_true_eq] at hmatch
      exact ⟨hmem, hmatch.2⟩
    · intro c hc hattempt
      exact Or.inl (mem_filter.mpr ⟨hc, by simp [(h.ordinal hc).1, hattempt.1]⟩)
  have hpages : Meets (Recover.eachRecord (operationChildrenPage · a.id) (Recover.settleAttempt scope a)
      (log.rows.length + 1) 0 (false, a)) log
      (fun _ log' => Attempting scope Calm start a log.rows [] log') (Cut scope Calm start) := by
    refine eachRecord_meets (p := fun _ c => c.parentId = some a.id)
      (I := fun outstanding _ log' => Attempting scope Calm start a log.rows outstanding log')
      ?_ ?_ ?_ ?_ _ _ _ _ (show log.rows.length < 0 + (log.rows.length + 1) by omega) hbegin
    · intro _ _ _ _ hx
      exact hx.visit
    · intro _ _ _ _ hx hcursor
      exact hx.reread hcursor
    · intro _ _ _ hx
      exact hx.keeping.leaves.written.ledger.ordinals
    · intro _ _ _ hx c hc hparent
      exact hx.bounded c hc (by simpa using hparent)
  unfold Recover.settleLlm
  refine Meets.view (Meets.bind (hpages.mono ?_))
  rintro ⟨ambiguous, lastSettled⟩ log' hdone
  have hledger := hdone.keeping.leaves.written.ledger
  have hattempts : a.kind = .llm → ∀ b ∈ log'.rows, attemptOf a b → AttemptDone log'.rows b := by
    intro _ b hb hattempt
    exact (hdone.rest b hb hattempt).resolve_left (by simp)
  have hoperation : isIntent a := isIntent_of_turnOperation (turnOperation_of_open hdone.isOpen).1
  have hnot : ¬ isAttempt log'.rows a := by
    intro hattempt
    have hop := (turnOperation_of_open hdone.isOpen).1
    rw [hdone.keeping.leaves.not_operation hdone.mem hattempt] at hop
    cases hop
  refine (hdone.keeping.settleCrash hdone.mem hoperation (operationResults_of_open hledger hdone.isOpen)
    (.operation hdone.isOpen hattempts) fun hattempt => absurd hattempt hnot).mono ?_
  rintro - log'' ⟨row, hrow⟩
  obtain ⟨hkeeping, hframe, hclosed⟩ := hrow.visited hdone.keeping.leaves hdone.frame
  exact ⟨hkeeping, hframe, hclosed⟩

theorem Keeping.settle (h : Keeping scope Calm start log) (ha : a ∈ log.rows)
    (hopen : openOperation log.rows scope.turnId a) :
    Meets (Recover.settle scope a) log (fun _ log' => Visited scope Calm start a log log')
      (Cut scope Calm start) := by
  unfold Recover.settle
  by_cases hmodel : a.kind = .llm
  · rw [if_neg (by simpa using hmodel)]
    exact h.settleLlm ha hmodel hopen
  rw [if_pos hmodel]
  refine Meets.view ?_
  have hoperation : isIntent a := isIntent_of_turnOperation (turnOperation_of_open hopen).1
  have hfirst := operationResults_of_open h.leaves.written.ledger hopen
  have hsubject : Subject scope.turnId log.rows a := .operation hopen fun hllm => absurd hllm hmodel
  have hnot : ¬ isAttempt log.rows a := fun hattempt => hmodel hattempt.1
  have hbehind : ∀ (log' : Log) (how : String) (row : Append),
      Settled scope Calm start log a how row log' → Visited scope Calm start a log log' := by
    intro log' how row hrow
    obtain ⟨hkeeping, hframe, hclosed⟩ := hrow.visited h.leaves (Frame.refl _ _ _)
    exact ⟨hkeeping, hframe, hclosed⟩
  cases hevidence : boundaryEvidence log.rows a.id with
  | none =>
    refine (h.settleCrash ha hoperation hfirst hsubject fun hattempt => absurd hattempt hnot).mono ?_
    rintro - log' ⟨row, hrow⟩
    exact hbehind _ _ _ hrow
  | some boundary =>
    refine (h.appendResult ha hoperation hfirst hsubject (boundaryEffect_ends a boundary)
      (fun hattempt => absurd hattempt hnot) fun _ => boundaryEvidence_some hevidence).mono ?_
    rintro - log' ⟨row, hrow⟩
    exact hbehind _ _ _ hrow

/-- In the middle of `recover`: what is open is what is still to be visited. -/
structure Recovering (scope : RecoveryScope) (Calm : Prop) (start outstanding : List Node) (log : Log) : Prop where
  keeping : Keeping scope Calm start log
  distinct : outstanding.Nodup
  isOpen : ∀ c ∈ outstanding, c ∈ log.rows ∧ openOperation log.rows scope.turnId c
  all : ∀ c ∈ log.rows, openOperation log.rows scope.turnId c → c ∈ outstanding
  bounded : ∀ c ∈ log.rows, openOperation log.rows scope.turnId c → c.ordinal ≤ start.length

lemma Recovering.settle (h : Recovering scope Calm start (a :: outstanding) log) :
    Meets (Recover.settle scope a) log (fun _ log' => Recovering scope Calm start outstanding log')
      (Cut scope Calm start) := by
  obtain ⟨ha, hopen⟩ := h.isOpen a mem_cons_self
  have hdistinct := nodup_cons.mp h.distinct
  refine (h.keeping.settle ha hopen).mono ?_
  rintro - log' ⟨hkeeping, hframe, hclosed⟩
  refine ⟨hkeeping, hdistinct.2, ?_, ?_, ?_⟩
  · intro c hc
    have hne : c ≠ a := by
      rintro rfl
      exact hdistinct.1 hc
    obtain ⟨hmem, hstill⟩ := h.isOpen c (mem_cons_of_mem a hc)
    exact hframe.others c hmem hne hstill
  · intro c hc hstill
    obtain ⟨hmem, hbefore⟩ := hframe.still c hc hstill
    rcases mem_cons.mp (h.all c hmem hbefore) with rfl | hmem
    · exact absurd hstill hclosed
    · exact hmem
  · intro c hc hstill
    obtain ⟨hmem, hbefore⟩ := hframe.still c hc hstill
    exact h.bounded c hmem hbefore

lemma Recovering.reread (h : Recovering scope Calm start outstanding log)
    (hcursor : ∀ c ∈ outstanding, cursor < c.ordinal) : Recovering scope Calm start
      (log.rows.filter fun c => cursor < c.ordinal && openOperation log.rows scope.turnId c) log where
  keeping := h.keeping
  distinct := h.keeping.leaves.written.ledger.nodup.filter _
  isOpen := by
    intro c hc
    obtain ⟨hmem, hmatch⟩ := mem_filter.mp hc
    simp only [Bool.and_eq_true] at hmatch
    exact ⟨hmem, hmatch.2⟩
  all := by
    intro c hc hopen
    exact mem_filter.mpr ⟨hc, by simp [hcursor c (h.all c hc hopen), hopen]⟩
  bounded := h.bounded

end

theorem recover_meets {Calm : Prop} (hleaves : Leaves scope.turnId log.rows)
    (hspare : Calm → log.left = none ∧ Unspent scope log.rows) :
    Meets (recover scope) log (fun _ log' => Keeping scope Calm log.rows log' ∧
        ∀ c ∈ log'.rows, ¬ openOperation log'.rows scope.turnId c)
      (Cut scope Calm log.rows) := by
  have hkeeping : Keeping scope Calm log.rows log := ⟨hleaves, .nil, hspare⟩
  have hbegin : Recovering scope Calm log.rows
      (log.rows.filter fun c => 0 < c.ordinal && openOperation log.rows scope.turnId c) log := by
    refine ⟨hkeeping, hleaves.written.ledger.nodup.filter _, ?_, ?_, fun c hc _ => (hkeeping.ordinal hc).2⟩
    · intro c hc
      obtain ⟨hmem, hmatch⟩ := mem_filter.mp hc
      simp only [Bool.and_eq_true] at hmatch
      exact ⟨hmem, hmatch.2⟩
    · intro c hc hopen
      exact mem_filter.mpr ⟨hc, by simp [(hkeeping.ordinal hc).1, hopen]⟩
  unfold recover
  refine Meets.view ?_
  have hpages : Meets (Recover.eachRecord (openOperationsPage · scope.turnId)
      (fun _ action => Recover.settle scope action) (log.rows.length + 1) 0 ()) log
      (fun _ log' => Recovering scope Calm log.rows [] log') (Cut scope Calm log.rows) := by
    refine eachRecord_meets (p := fun rows c => openOperation rows scope.turnId c)
      (I := fun outstanding _ log' => Recovering scope Calm log.rows outstanding log')
      ?_ ?_ ?_ ?_ _ _ _ _ (show log.rows.length < 0 + (log.rows.length + 1) by omega) hbegin
    · intro _ _ _ _ hx
      exact hx.settle
    · intro _ _ _ _ hx hcursor
      exact hx.reread hcursor
    · intro _ _ _ hx
      exact hx.keeping.leaves.written.ledger.ordinals
    · intro _ _ _ hx
      exact hx.bounded
  refine hpages.mono ?_
  intro _ log' hdone
  refine ⟨hdone.keeping, fun c hc hopen => ?_⟩
  have hmem := hdone.all c hc hopen
  simp at hmem

end OpenOmni
