import OpenOmni.Loop.Wave

/-! What holds of a wave whatever the order in which its approvals, bodies and commits complete. -/
namespace OpenOmni.Wave
open List

variable (options : WaveOptions) (items : List BatchItem)

/-- Every call is decided, every intent committed and every approval settled. -/
structure Barrier (w : Wave) : Prop where
  decided : w.pre.length = items.length
  staged : w.intents.length = items.length
  settled : ∀ call < items.length, (w.decisions call).isSome

def resultRows (rows : List WaveRow) (call : ℕ) : List ExecutionResult :=
  rows.filterMap fun
    | .result parent outcome => if parent = call then some outcome else none
    | _ => none

def Sequential (call : ℕ) : Prop := ∃ item, items[call]? = some item ∧ item.sequential = true

/-- What the wave's own fiber knows of the bodies' fibers at each of its points. -/
def Fibers (w : Wave) : Prop :=
  match w.point with
  | .admitting => ∀ call, w.bodies call = .idle
  | .intending => w.pre.length = items.length ∧ ∀ call, w.bodies call = .idle
  | .approving => (w.pre.length = items.length ∧ w.intents.length = items.length) ∧
      ∀ call, w.bodies call = .idle
  | .launching index => Barrier items w ∧ (∀ call, index ≤ call → w.bodies call = .idle) ∧
      (∀ call, (w.bodies call).live → call ∈ w.group) ∧ ∀ call ∈ w.group, ¬ Sequential items call
  | .joining index => Barrier items w ∧ (∀ call, index < call → w.bodies call = .idle) ∧
      (∀ call, (w.bodies call).live → call = index) ∧ w.group = [index]
  | .finishing _ | .done => Barrier items w ∧ ∀ call, ¬ (w.bodies call).live
  | .failed _ => ∀ call, ¬ (w.bodies call).live

structure Inv (w : Wave) : Prop where
  intents : ∀ call intent, w.intents[call]? = some intent → ∃ item pre, items[call]? = some item ∧
    w.pre[call]? = some pre ∧ intent = decide (pre.verdict ≠ .deny) ∧
    (pre.verdict ≠ .deny → item.original = true ∨ .intent call ∈ w.rows)
  begun : ∀ call, w.bodies call ≠ .idle → Barrier items w ∧ w.shouldExecute call
  fibers : Fibers items w
  results : w.results.length ≤ w.intents.length
  rows : (∀ cause, w.point ≠ .failed cause) → ∀ call,
    resultRows w.rows call = if w.intents[call]? = some true then w.results[call]?.toList else []
  rows_le : ∀ call, (resultRows w.rows call).length ≤ 1
  finished : w.point = .done → w.results.length = items.length

structure Settled (w : Wave) : Prop where
  inv : Inv items w
  barrier : Barrier items w
  quiet : ∀ call, ¬ (w.bodies call).live
  going : ∀ cause, w.point ≠ .failed cause

variable {options : WaveOptions} {items : List BatchItem} {w w' : Wave}

lemma Barrier.congr (h : Barrier items w) (hpre : w'.pre = w.pre) (hintents : w'.intents = w.intents)
    (hdecisions : w'.decisions = w.decisions) : Barrier items w' :=
  ⟨hpre ▸ h.decided, hintents ▸ h.staged, hdecisions ▸ h.settled⟩

lemma Fibers.congr (h : Fibers items w) (hpoint : w'.point = w.point) (hpre : w'.pre = w.pre)
    (hintents : w'.intents = w.intents) (hdecisions : w'.decisions = w.decisions)
    (hbodies : w'.bodies = w.bodies) (hgroup : w'.group = w.group) : Fibers items w' := by
  unfold Fibers at *
  rw [hpoint, hbodies, hgroup]
  split at h
  case h_1 => exact h
  case h_2 => exact ⟨hpre ▸ h.1, h.2⟩
  case h_3 => exact ⟨⟨hpre ▸ h.1.1, hintents ▸ h.1.2⟩, h.2⟩
  case h_4 | h_5 | h_6 | h_7 => exact ⟨h.1.congr hpre hintents hdecisions, h.2⟩
  case h_8 => exact h

lemma resultRows_concat (rows : List WaveRow) (row : WaveRow) (call : ℕ) :
    resultRows (rows ++ [row]) call = resultRows rows call ++ match row with
      | .result parent outcome => if parent = call then [outcome] else []
      | _ => [] := by
  unfold resultRows
  rw [filterMap_append]
  cases row with
  | result parent outcome => by_cases h : parent = call <;> simp [h]
  | _ => rfl

lemma idle_not_live (h : ∀ call, w.bodies call = .idle) (call : ℕ) : ¬ (w.bodies call).live := by
  rw [h call]
  simp

lemma Inv.fail (h : Inv items w) (hlive : ∀ call, ¬ (w.bodies call).live) (cause : Cause) :
    Inv items (w.fail cause) where
  intents := h.intents
  begun := fun call hbody =>
    have hbegun := h.begun call hbody
    ⟨hbegun.1.congr rfl rfl rfl, hbegun.2⟩
  fibers := hlive
  results := h.results
  rows := fun hfailed => absurd rfl (hfailed cause)
  rows_le := h.rows_le
  finished := fun hdone => by simp [Wave.fail] at hdone

variable {point : WavePoint} {row : WaveRow} {index other : ℕ} {trace : List (Wave × Event)}

theorem Inv.move (h : Inv items w) {group : List ℕ} (hfailed : ∀ cause, w.point ≠ .failed cause)
    (hfibers : Fibers items { w with point, group }) (hfinished : point = .done → w.results.length = items.length) :
    Inv items { w with point, group } where
  intents := h.intents
  begun := fun call hbody =>
    have hbegun := h.begun call hbody
    ⟨hbegun.1.congr rfl rfl rfl, hbegun.2⟩
  fibers := hfibers
  results := h.results
  rows := fun _ => h.rows hfailed
  rows_le := h.rows_le
  finished := hfinished

lemma Inv.admitItem {outcome : Except Cause Admitted} (h : Inv items w) (hpoint : w.point = .admitting)
    (hstep : Wave.admitItem items w outcome = some w') : Inv items w' := by
  have hidle : ∀ call, w.bodies call = .idle := by simpa [Fibers, hpoint] using h.fibers
  have hfailed : ∀ cause, w.point ≠ .failed cause := by simp [hpoint]
  unfold Wave.admitItem at hstep
  split at hstep
  · cases hstep
  · split at hstep
    · cases outcome with
      | error cause =>
        cases hstep
        exact h.fail (idle_not_live hidle) cause
      | ok pre =>
        cases hstep
        constructor
        · intro call intent hintent
          obtain ⟨item, p, hitem, hp, hverdict, hrow⟩ := h.intents call intent hintent
          refine ⟨item, p, hitem, ?_, hverdict, hrow⟩
          have hlt : call < w.pre.length := (List.getElem?_eq_some_iff.mp hp).1
          simp only [getElem?_append_left hlt, hp]
        · intro call hbody
          exact absurd (hidle call) hbody
        · simpa [Fibers, hpoint] using hidle
        · exact h.results
        · exact fun _ => h.rows hfailed
        · exact h.rows_le
        · intro hdone
          simp [hpoint] at hdone
    · cases hstep
      exact h.fail (idle_not_live hidle) _

theorem Inv.pushRow (h : Inv items w) (hrow : ∀ call outcome, row ≠ .result call outcome) :
    Inv items { w with rows := w.rows ++ [row] } := by
  have hresults : ∀ call, resultRows (w.rows ++ [row]) call = resultRows w.rows call := by
    intro call
    rw [resultRows_concat]
    cases row with
    | result parent outcome => exact absurd rfl (hrow parent outcome)
    | _ => simp
  constructor
  · intro call intent hintent
    obtain ⟨item, pre, hitem, hpre, hverdict, hcommitted⟩ := h.intents call intent hintent
    refine ⟨item, pre, hitem, hpre, hverdict, fun hne => ?_⟩
    exact (hcommitted hne).imp_right fun hmem => mem_append_left _ hmem
  · intro call hbody
    have hbegun := h.begun call hbody
    exact ⟨hbegun.1.congr rfl rfl rfl, hbegun.2⟩
  · exact h.fibers.congr rfl rfl rfl rfl rfl rfl
  · exact h.results
  · intro hfailed call
    have hrows := h.rows hfailed call
    rw [← hresults] at hrows
    exact hrows
  · intro call
    have hle := h.rows_le call
    rw [← hresults] at hle
    exact hle
  · exact h.finished

lemma Inv.pushIntent (h : Inv items w) (hpoint : w.point = .intending) {item : BatchItem} {pre : Admitted}
    (hitem : items[w.intents.length]? = some item) (hpre : w.pre[w.intents.length]? = some pre)
    (hcommitted : pre.verdict ≠ .deny → item.original = true ∨ .intent w.intents.length ∈ w.rows) :
    Inv items { w with intents := w.intents ++ [decide (pre.verdict ≠ .deny)] } := by
  have hfibers : w.pre.length = items.length ∧ ∀ call, w.bodies call = .idle := by
    simpa [Fibers, hpoint] using h.fibers
  have hresults := h.results
  have hnew : (w.intents ++ [decide (pre.verdict ≠ .deny)])[w.intents.length]? =
      some (decide (pre.verdict ≠ .deny)) := by simp
  constructor
  · intro call intent hintent
    rcases Nat.lt_trichotomy call w.intents.length with hlt | heq | hgt
    · rw [getElem?_append_left hlt] at hintent
      exact h.intents call intent hintent
    · subst heq
      rw [hnew] at hintent
      exact ⟨item, pre, hitem, hpre, (Option.some.inj hintent).symm, hcommitted⟩
    · rw [getElem?_eq_none (by simp; omega)] at hintent
      cases hintent
  · intro call hbody
    exact absurd (hfibers.2 call) hbody
  · simpa [Fibers, hpoint] using hfibers
  · simp only [length_append, length_singleton]
    omega
  · intro _ call
    have hrows := h.rows (by simp [hpoint]) call
    rcases Nat.lt_or_ge call w.intents.length with hlt | hge
    · have hleft : (w.intents ++ [decide (pre.verdict ≠ .deny)])[call]? = w.intents[call]? :=
        getElem?_append_left hlt
      rw [← hleft] at hrows
      exact hrows
    · -- no result stands for a call that is not staged yet
      have hnone : w.results[call]? = none := getElem?_eq_none (by omega)
      simpa [hnone] using hrows
  · exact h.rows_le
  · intro hdone
    simp [hpoint] at hdone

lemma Inv.stageIntent {outcome : Except Cause Unit} (h : Inv items w) (hpoint : w.point = .intending)
    (hstep : Wave.stageIntent items w outcome = some w') : Inv items w' := by
  have hfibers : w.pre.length = items.length ∧ ∀ call, w.bodies call = .idle := by
    simpa [Fibers, hpoint] using h.fibers
  unfold Wave.stageIntent at hstep
  split at hstep
  · rename_i item pre hitem hpre
    by_cases hdeny : pre.verdict = .deny
    · rw [if_pos hdeny] at hstep
      cases hstep
      have hpush := h.pushIntent hpoint hitem hpre (fun hne => absurd hdeny hne)
      simpa [hdeny] using hpush
    · rw [if_neg hdeny] at hstep
      cases horiginal : item.original with
      | true =>
        rw [horiginal, if_pos rfl] at hstep
        cases hstep
        have hpush := h.pushIntent hpoint hitem hpre (fun _ => Or.inl horiginal)
        simpa [hdeny] using hpush
      | false =>
        rw [horiginal, if_neg (by simp)] at hstep
        cases outcome with
        | error cause =>
          cases hstep
          exact h.fail (idle_not_live hfibers.2) cause
        | ok committed =>
          cases hstep
          have hrow : Inv items { w with rows := w.rows ++ [.intent w.intents.length] } :=
            h.pushRow (by simp)
          have hpush := hrow.pushIntent hpoint hitem hpre (fun _ => Or.inr (by simp))
          simpa [hdeny] using hpush
  · cases hstep

lemma Inv.settle {call : ℕ} {outcome : Except Cause ApprovalDecision} (h : Inv items w)
    (hpoint : w.point = .approving) (hstep : Wave.settle options items w call outcome = some w') :
    Inv items w' := by
  have hfibers : (w.pre.length = items.length ∧ w.intents.length = items.length) ∧
      ∀ call, w.bodies call = .idle := by simpa [Fibers, hpoint] using h.fibers
  have hset : ∀ decision, Inv items { w with decisions := Function.update w.decisions call (some decision) } :=
    fun decision =>
    { intents := h.intents
      begun := fun call hbody => absurd (hfibers.2 call) hbody
      fibers := by simpa [Fibers, hpoint] using hfibers
      results := h.results
      rows := fun _ => h.rows (by simp [hpoint])
      rows_le := h.rows_le
      finished := fun hdone => by simp [hpoint] at hdone }
  unfold Wave.settle at hstep
  split at hstep
  · split at hstep
    · cases hstep
      exact hset _
    · cases outcome with
      | error cause =>
        cases hstep
        exact h.fail (idle_not_live hfibers.2) cause
      | ok decision =>
        cases hstep
        exact hset decision
  · cases hstep

theorem Inv.launch (h : Inv items w) (hpoint : w.point = .launching index)
    (hstep : Wave.launch items w index = some w') : Inv items w' := by
  have hfailed : ∀ cause, w.point ≠ .failed cause := by simp [hpoint]
  obtain ⟨hbarrier, hidle, hlive, hgroup⟩ : Barrier items w ∧ (∀ call, index ≤ call → w.bodies call = .idle) ∧
      (∀ call, (w.bodies call).live → call ∈ w.group) ∧ ∀ call ∈ w.group, ¬ Sequential items call := by
    simpa [Fibers, hpoint] using h.fibers
  have hjoined : w.joined = true → ∀ call, ¬ (w.bodies call).live := by
    intro hjoin call hbody
    have hdone := all_eq_true.mp hjoin call (hlive call hbody)
    simp [hbody] at hdone
  unfold Wave.launch at hstep
  split at hstep
  · -- the last join
    split at hstep
    · rename_i hjoin
      cases hstep
      refine h.move hfailed ⟨hbarrier.congr rfl rfl rfl, hjoined hjoin⟩ (by simp)
    · cases hstep
  · rename_i item hitem
    split at hstep
    · rename_i hexecute
      -- the fork itself
      have hforked : ∀ point group, (∀ cause, point ≠ .failed cause) → point ≠ .done →
          Fibers items { w.setBody index .forked with point, group } →
          Inv items { w.setBody index .forked with point, group } := by
        intro point group hpoint' hdone hfibers
        refine ⟨h.intents, ?_, hfibers, h.results, fun _ => h.rows hfailed, h.rows_le, fun h => absurd h hdone⟩
        intro call hbody
        by_cases hcall : call = index
        · subst hcall
          exact ⟨hbarrier.congr rfl rfl rfl, hexecute⟩
        · have hold : w.bodies call ≠ .idle := by simpa [setBody, hcall] using hbody
          exact ⟨hbarrier.congr rfl rfl rfl, (h.begun call hold).2⟩
      have hlater : ∀ call, index < call → (w.setBody index .forked).bodies call = .idle := by
        intro call hlt
        have hne : call ≠ index := by omega
        simp [setBody, hne, hidle call (by omega)]
      split at hstep
      · split at hstep
        · rename_i hjoin
          cases hstep
          refine hforked _ _ (by simp) (by simp) ⟨hbarrier.congr rfl rfl rfl, hlater, ?_, rfl⟩
          intro call hbody
          by_contra hne
          have hold : (w.bodies call).live = true := by simpa [setBody, hne] using hbody
          exact hjoined hjoin call hold
        · cases hstep
      · rename_i hsequential
        cases hstep
        refine hforked _ _ (by simp) (by simp) ⟨hbarrier.congr rfl rfl rfl, hlater, ?_, ?_⟩
        · intro call hbody
          by_cases hcall : call = index
          · simp [hcall]
          · have hold : (w.bodies call).live = true := by simpa [setBody, hcall] using hbody
            exact mem_append_left _ (hlive call hold)
        · intro call hmem
          rcases mem_append.mp hmem with hmem | hmem
          · exact hgroup call hmem
          · obtain rfl := mem_singleton.mp hmem
            rintro ⟨other, hother, hseq⟩
            rw [hitem] at hother
            cases hother
            exact hsequential hseq
    · cases hstep
      exact h.move hfailed
        ⟨hbarrier.congr rfl rfl rfl, fun call hlt => hidle call (by omega), hlive, hgroup⟩ (by simp)

theorem Inv.body {call : ℕ} {body : Body} (h : Inv items w) (hlive : (w.bodies call).live) :
    Inv items (w.setBody call body) := by
  have hbegun := h.begun call (Body.not_idle_of_live hlive)
  have hstill : ∀ other, ((w.setBody call body).bodies other).live → (w.bodies other).live := by
    intro other hother
    by_cases heq : other = call
    · rw [heq]
      exact hlive
    · simpa [setBody, heq] using hother
  have hidle : ∀ other, w.bodies other = .idle → (w.setBody call body).bodies other = .idle := by
    intro other hother
    have hne : other ≠ call := by
      rintro rfl
      simp [hother] at hlive
    simp [setBody, hne, hother]
  refine ⟨h.intents, ?_, ?_, h.results, h.rows, h.rows_le, h.finished⟩
  · intro other hother
    refine ⟨hbegun.1.congr rfl rfl rfl, ?_⟩
    by_cases heq : other = call
    · rw [heq]
      exact hbegun.2
    · exact (h.begun other (by simpa [setBody, heq] using hother)).2
  · have hfibers := h.fibers
    unfold Fibers at hfibers ⊢
    rw [show (w.setBody call body).point = w.point from rfl]
    split at hfibers
    case h_1 => exact absurd hlive (idle_not_live hfibers call)
    case h_2 | h_3 => exact absurd hlive (idle_not_live hfibers.2 call)
    case h_4 =>
      obtain ⟨hbarrier, hlater, hgroup⟩ := hfibers
      exact ⟨hbarrier.congr rfl rfl rfl, fun other hle => hidle other (hlater other hle),
        fun other hother => hgroup.1 other (hstill other hother), hgroup.2⟩
    case h_5 =>
      obtain ⟨hbarrier, hlater, hgroup⟩ := hfibers
      exact ⟨hbarrier.congr rfl rfl rfl, fun other hlt => hidle other (hlater other hlt),
        fun other hother => hgroup.1 other (hstill other hother), hgroup.2⟩
    case h_6 | h_7 => exact absurd hlive (hfibers.2 call)
    case h_8 => exact absurd hlive (hfibers call)

lemma Inv.settled {point : FinishPoint} (h : Inv items w) (hpoint : w.point = .finishing point) :
    Settled items w := by
  have hfibers : Barrier items w ∧ ∀ call, ¬ (w.bodies call).live := by
    simpa [Fibers, hpoint] using h.fibers
  exact ⟨h, hfibers.1, hfibers.2, by simp [hpoint]⟩

section
variable (h : Settled items w)
include h

lemma Settled.finishing (point : FinishPoint) :
    Inv items { w with point := .finishing point } :=
  h.inv.move h.going ⟨h.barrier.congr rfl rfl rfl, h.quiet⟩ (by simp)

lemma Settled.fail (cause : Cause) : Inv items (w.fail cause) :=
  h.inv.fail h.quiet cause

lemma Settled.pushRow (hrow : ∀ call outcome, row ≠ .result call outcome) :
    Settled items { w with rows := w.rows ++ [row] } :=
  ⟨h.inv.pushRow hrow, h.barrier.congr rfl rfl rfl, h.quiet, h.going⟩

lemma Settled.completionFailure (item : BatchItem) (completing : Option PlainValue)
    (cause : Cause) : Inv items (Wave.completionFailure w item completing cause) := by
  cases completing with
  | none => exact h.fail cause
  | some value =>
    unfold Wave.completionFailure
    dsimp only
    split
    · exact h.fail cause
    · exact h.finishing _

lemma Settled.finishBody (item : BatchItem) (body : BodyExit) :
    Inv items (Wave.finishBody options w item body) := by
  unfold Wave.finishBody
  split
  · exact h.finishing _
  · split
    · split
      · exact h.fail _
      · exact h.finishing _
    · split <;> exact h.finishing _

lemma Settled.finishStage : Inv items (Wave.finishStage options items w) := by
  unfold Wave.finishStage
  dsimp only
  split
  · split
    · split
      · exact h.finishBody _ _
      · exact h.fail _
    · exact h.finishing _
  · rename_i hnone
    -- both lists are as long as the batch, so the results are
    have hle := h.inv.results
    have hstaged := h.barrier.staged
    have hdecided := h.barrier.decided
    refine h.inv.move h.going ⟨h.barrier.congr rfl rfl rfl, h.quiet⟩ (fun _ => ?_)
    by_contra hne
    have hlt : w.results.length < items.length := by omega
    exact hnone _ _ (getElem?_eq_getElem hlt) (getElem?_eq_getElem (by omega))

lemma Settled.post (item : BatchItem) (value : PlainValue)
    (outcome : Except Cause (Verdict × PlainValue × Option String)) (revert : Except Cause Unit) :
    Inv items (Wave.post w item value outcome revert) := by
  unfold Wave.post
  split
  · exact h.completionFailure item _ _
  · exact h.finishing _

lemma Settled.commitBoundary (item : BatchItem) (value : PlainValue) (commit : Commit) :
    Inv items (Wave.commitBoundary w item value commit) := by
  have hrow : Settled items { w with rows := w.rows ++ [.boundary w.results.length value] } :=
    h.pushRow (by simp)
  cases commit with
  | committed => exact hrow.finishing _
  | refused => exact h.fail _
  | threwBefore cause => exact h.completionFailure item (some value) cause
  | threwAfter cause => exact hrow.completionFailure item (some value) cause

end

theorem Settled.extend {rows : List WaveRow} {results : List ExecutionResult} (h : Settled items w)
    (hmem : ∀ row ∈ w.rows, row ∈ rows) (hresults : results.length ≤ w.intents.length)
    (hpoint : (∃ finishing, point = .finishing finishing) ∨ ∃ cause, point = .failed cause)
    (hrows : (∀ cause, point ≠ .failed cause) → ∀ call,
      resultRows rows call = if w.intents[call]? = some true then results[call]?.toList else [])
    (hle : ∀ call, (resultRows rows call).length ≤ 1) : Inv items { w with rows, results, point } := by
  refine ⟨?_, ?_, ?_, hresults, hrows, hle, ?_⟩
  · intro call intent hstage
    obtain ⟨item, pre, hitem, hpre, hverdict, hcommitted⟩ := h.inv.intents call intent hstage
    exact ⟨item, pre, hitem, hpre, hverdict, fun hne => (hcommitted hne).imp_right fun hold => hmem _ hold⟩
  · intro call hbody
    exact ⟨h.barrier.congr rfl rfl rfl, (h.inv.begun call hbody).2⟩
  · obtain ⟨finishing, rfl⟩ | ⟨cause, rfl⟩ := hpoint
    · exact ⟨h.barrier.congr rfl rfl rfl, h.quiet⟩
    · exact h.quiet
  · obtain ⟨finishing, rfl⟩ | ⟨cause, rfl⟩ := hpoint <;> simp

lemma Settled.commitResult (h : Settled items w) (item : BatchItem) (outcome : ExecutionResult)
    (completing : Option PlainValue) (commit : Commit) (hcall : items[w.results.length]? = some item) :
    Inv items (Wave.commitResult w item outcome completing commit) := by
  have hlt : w.results.length < items.length := (List.getElem?_eq_some_iff.mp hcall).1
  have hstaged := h.barrier.staged
  have hnext : (w.results ++ [outcome]).length ≤ w.intents.length := by simp; omega
  -- the results so far, and the new one at the end
  have hget : ∀ call, (w.results ++ [outcome])[call]?.toList =
      w.results[call]?.toList ++ if w.results.length = call then [outcome] else [] := by
    intro call
    rcases Nat.lt_trichotomy call w.results.length with hbefore | heq | hafter
    · have hne : ¬ w.results.length = call := by omega
      rw [getElem?_append_left hbefore, if_neg hne, append_nil]
    · subst heq
      simp
    · have hne : ¬ w.results.length = call := by omega
      rw [getElem?_eq_none (by simp; omega), getElem?_eq_none (by omega), if_neg hne]
      rfl
  have hrows := h.inv.rows h.going
  unfold Wave.commitResult
  dsimp only
  by_cases hintent : w.intents[w.results.length]? = some true
  · rw [if_pos hintent]
    have hnew : ∀ call, resultRows (w.rows ++ [.result w.results.length outcome]) call =
        if w.intents[call]? = some true then (w.results ++ [outcome])[call]?.toList else [] := by
      intro call
      rw [resultRows_concat, hrows call, hget call]
      by_cases heq : w.results.length = call
      · subst heq
        simp [hintent]
      · simp [heq]
    have hle : ∀ call, (resultRows (w.rows ++ [.result w.results.length outcome]) call).length ≤ 1 := by
      intro call
      rw [hnew call]
      split
      · cases (w.results ++ [outcome])[call]? <;> simp
      · simp
    have hmem : ∀ row ∈ w.rows, row ∈ w.rows ++ [.result w.results.length outcome] :=
      fun row hrow => mem_append_left _ hrow
    cases commit with
    | committed => exact h.extend hmem hnext (Or.inl ⟨_, rfl⟩) (fun _ => hnew) hle
    | refused => exact h.fail _
    | threwBefore cause => exact h.completionFailure item completing cause
    | threwAfter cause =>
      exact h.extend hmem h.inv.results (Or.inr ⟨_, rfl⟩) (fun hfailed => absurd rfl (hfailed cause)) hle
  · rw [if_neg hintent]
    refine h.extend (fun row hrow => hrow) hnext (Or.inl ⟨_, rfl⟩) (fun _ call => ?_) h.inv.rows_le
    rw [hrows call, hget call]
    by_cases heq : w.results.length = call
    · subst heq
      simp [hintent]
    · simp [heq]

lemma Inv.next (h : Inv items w) (hstep : Wave.next options items w = some w') : Inv items w' := by
  unfold Wave.next at hstep
  split at hstep
  · rename_i hpoint
    have hidle : ∀ call, w.bodies call = .idle := by simpa [Fibers, hpoint] using h.fibers
    split at hstep
    · rename_i hlength
      cases hstep
      exact h.move (by simp [hpoint]) ⟨hlength, hidle⟩ (by simp)
    · cases hstep
  · rename_i hpoint
    have hfibers : w.pre.length = items.length ∧ ∀ call, w.bodies call = .idle := by
      simpa [Fibers, hpoint] using h.fibers
    split at hstep
    · rename_i hlength
      cases hstep
      exact h.move (by simp [hpoint]) ⟨⟨hfibers.1, hlength⟩, hfibers.2⟩ (by simp)
    · cases hstep
  · rename_i hpoint
    obtain ⟨hlengths, hidle⟩ : (w.pre.length = items.length ∧ w.intents.length = items.length) ∧
        ∀ call, w.bodies call = .idle := by simpa [Fibers, hpoint] using h.fibers
    split at hstep
    · rename_i hsettled
      cases hstep
      have hbarrier : Barrier items w := ⟨hlengths.1, hlengths.2, fun call hcall =>
        all_eq_true.mp hsettled call (mem_range.mpr hcall)⟩
      refine h.move (by simp [hpoint]) ⟨hbarrier.congr rfl rfl rfl, fun call _ => hidle call,
        fun call hlive => absurd hlive (idle_not_live hidle call), by simp⟩ (by simp)
    · cases hstep
  · rename_i index hpoint
    exact h.launch hpoint hstep
  · rename_i index hpoint
    obtain ⟨hbarrier, hidle, hlive, hgroup⟩ : Barrier items w ∧
        (∀ call, index < call → w.bodies call = .idle) ∧ (∀ call, (w.bodies call).live → call = index) ∧
        w.group = [index] := by simpa [Fibers, hpoint] using h.fibers
    split at hstep
    · rename_i hjoin
      cases hstep
      have hquiet : ∀ call, ¬ (w.bodies call).live := by
        intro call hbody
        have hdone := all_eq_true.mp hjoin call (by simp [hgroup, hlive call hbody])
        simp [hbody] at hdone
      exact h.move (by simp [hpoint]) ⟨hbarrier.congr rfl rfl rfl, fun call hle => hidle call (by omega),
        fun call hbody => absurd hbody (hquiet call), by simp⟩ (by simp)
    · cases hstep
  · rename_i hpoint
    cases hstep
    exact (h.settled hpoint).finishStage
  · cases hstep

lemma Inv.start : Inv items Wave.start where
  intents := by simp [Wave.start]
  begun := by simp [Wave.start]
  fibers := by simp [Fibers, Wave.start]
  results := by simp [Wave.start]
  rows := by simp [Wave.start, resultRows]
  rows_le := by simp [Wave.start, resultRows]
  finished := by simp [Wave.start]

lemma Inv.step {event : Event} (h : Inv items w) (hstep : Step options items w event w') : Inv items w' := by
  unfold Step Wave.step at hstep
  cases event with
  | next => exact h.next hstep
  | admitItem outcome =>
    dsimp only at hstep
    split at hstep
    · rename_i hpoint
      exact h.admitItem hpoint hstep
    · cases hstep
  | intend outcome =>
    dsimp only at hstep
    split at hstep
    · rename_i hpoint
      exact h.stageIntent hpoint hstep
    · cases hstep
  | ask =>
    dsimp only at hstep
    split at hstep
    · split at hstep
      · cases hstep
        refine ⟨h.intents, fun call hbody => ?_, h.fibers.congr rfl rfl rfl rfl rfl rfl, h.results, h.rows,
          h.rows_le, h.finished⟩
        have hbegun := h.begun call hbody
        exact ⟨hbegun.1.congr rfl rfl rfl, hbegun.2⟩
      · cases hstep
    · cases hstep
  | settle call outcome =>
    dsimp only at hstep
    split at hstep
    · rename_i hpoint
      exact h.settle hpoint hstep
    · cases hstep
  | interrupt =>
    dsimp only at hstep
    split at hstep
    · rename_i hpoint
      cases hstep
      have hfibers : (w.pre.length = items.length ∧ w.intents.length = items.length) ∧
          ∀ call, w.bodies call = .idle := by simpa [Fibers, hpoint] using h.fibers
      split
      · exact h
      · exact h.fail (idle_not_live hfibers.2) _
    · cases hstep
      exact h
  | apply call =>
    dsimp only [application] at hstep
    split at hstep
    · rename_i hforked
      split at hstep
      · cases hstep
        have hbody : Inv items (w.setBody call .entered) := h.body (by simp [hforked])
        exact hbody.pushRow (by simp)
      · cases hstep
    · cases hstep
  | begin call =>
    dsimp only [Wave.begin] at hstep
    split at hstep
    · rename_i hforked
      split at hstep
      · cases hstep
      · cases hstep
        exact h.body (by simp [hforked])
    · rename_i hentered
      cases hstep
      exact h.body (by simp [hentered])
    · cases hstep
  | exit call result raw =>
    dsimp only [Wave.exit] at hstep
    split at hstep
    · rename_i hforked
      cases hstep
      exact h.body (by simp [hforked])
    · rename_i hentered
      cases hstep
      exact h.body (by simp [hentered])
    · rename_i hrunning
      cases hstep
      exact h.body (by simp [hrunning])
    · cases hstep
  | rawSettled call | graceOver call =>
    dsimp only [close] at hstep
    split at hstep
    · rename_i hclosing
      cases hstep
      exact h.body (by simp [hclosing])
    · cases hstep
  | post outcome revert =>
    dsimp only at hstep
    split at hstep
    · rename_i hpoint _
      cases hstep
      exact (h.settled hpoint).post _ _ outcome revert
    · cases hstep
  | commit commit =>
    dsimp only at hstep
    split at hstep
    · rename_i hpoint _
      cases hstep
      exact (h.settled hpoint).commitBoundary _ _ commit
    · rename_i hpoint hitem
      cases hstep
      exact (h.settled hpoint).commitResult _ _ _ commit hitem
    · cases hstep

@[simp] theorem completionFailure_bodies (item : BatchItem) (completing : Option PlainValue) (cause : Cause) :
    (w.completionFailure item completing cause).bodies = w.bodies := by
  unfold Wave.completionFailure
  split
  · rfl
  · dsimp only
    split <;> rfl

@[simp] theorem finishBody_bodies (item : BatchItem) (body : BodyExit) :
    (w.finishBody options item body).bodies = w.bodies := by
  unfold Wave.finishBody
  split
  · rfl
  · split
    · split <;> rfl
    · split <;> rfl

@[simp] theorem finishStage_bodies : (w.finishStage options items).bodies = w.bodies := by
  unfold Wave.finishStage
  dsimp only
  split
  · split
    · split
      · simp
      · rfl
    · rfl
  · rfl

@[simp] theorem post_bodies (item : BatchItem) (value : PlainValue)
    (outcome : Except Cause (Verdict × PlainValue × Option String)) (revert : Except Cause Unit) :
    (w.post item value outcome revert).bodies = w.bodies := by
  unfold Wave.post
  split <;> simp

@[simp] theorem commitBoundary_bodies (item : BatchItem) (value : PlainValue) (commit : Commit) :
    (w.commitBoundary item value commit).bodies = w.bodies := by
  cases commit <;> simp [Wave.commitBoundary, Wave.fail]

@[simp] theorem commitResult_bodies (item : BatchItem) (outcome : ExecutionResult)
    (completing : Option PlainValue) (commit : Commit) :
    (w.commitResult item outcome completing commit).bodies = w.bodies := by
  unfold Wave.commitResult
  dsimp only
  split
  · cases commit <;> simp [Wave.fail]
  · rfl

lemma setBody_not_idle {call : ℕ} {body : Body} (hbody : body ≠ .idle) (h : w.bodies other ≠ .idle) :
    (w.setBody call body).bodies other ≠ .idle := by
  by_cases heq : other = call
  · simpa [setBody, heq] using hbody
  · simpa [setBody, heq] using h

lemma launch_not_idle {call : ℕ} (hstep : Wave.launch items w index = some w') (h : w.bodies call ≠ .idle) :
    w'.bodies call ≠ .idle := by
  have hset : (w.setBody index .forked).bodies call ≠ .idle := setBody_not_idle (by simp) h
  unfold Wave.launch at hstep
  split at hstep
  · split at hstep
    · cases hstep
      exact h
    · cases hstep
  · split at hstep
    · split at hstep
      · split at hstep
        · cases hstep
          exact hset
        · cases hstep
      · cases hstep
        exact hset
    · cases hstep
      exact h

theorem step_not_idle {event : Event} {call : ℕ} (hstep : Step options items w event w')
    (h : w.bodies call ≠ .idle) : w'.bodies call ≠ .idle := by
  unfold Step Wave.step at hstep
  cases event with
  | next =>
    dsimp only [Wave.next] at hstep
    split at hstep
    · split at hstep
      · cases hstep
        exact h
      · cases hstep
    · split at hstep
      · cases hstep
        exact h
      · cases hstep
    · split at hstep
      · cases hstep
        exact h
      · cases hstep
    · exact launch_not_idle hstep h
    · split at hstep
      · cases hstep
        exact h
      · cases hstep
    · cases hstep
      simpa using h
    · cases hstep
  | admitItem outcome =>
    dsimp only [Wave.admitItem] at hstep
    split at hstep
    · split at hstep
      · cases hstep
      · split at hstep
        · cases outcome <;> (obtain rfl := Option.some.inj hstep; exact h)
        · cases hstep
          exact h
    · cases hstep
  | intend outcome =>
    dsimp only [Wave.stageIntent] at hstep
    split at hstep
    · split at hstep
      · split at hstep
        · cases hstep
          exact h
        · split at hstep
          · cases hstep
            exact h
          · cases outcome <;> (obtain rfl := Option.some.inj hstep; exact h)
      · cases hstep
    · cases hstep
  | ask =>
    dsimp only at hstep
    split at hstep
    · split at hstep
      · cases hstep
        exact h
      · cases hstep
    · cases hstep
  | settle other outcome =>
    dsimp only [Wave.settle] at hstep
    split at hstep
    · split at hstep
      · split at hstep
        · cases hstep
          exact h
        · cases outcome <;> (obtain rfl := Option.some.inj hstep; exact h)
      · cases hstep
    · cases hstep
  | interrupt =>
    dsimp only at hstep
    split at hstep
    · cases hstep
      split <;> exact h
    · cases hstep
      exact h
  | apply other =>
    dsimp only [application] at hstep
    split at hstep
    · split at hstep
      · cases hstep
        exact setBody_not_idle (by simp) h
      · cases hstep
    · cases hstep
  | begin other =>
    dsimp only [Wave.begin] at hstep
    split at hstep
    · split at hstep
      · cases hstep
      · cases hstep
        exact setBody_not_idle (by simp) h
    · cases hstep
      exact setBody_not_idle (by simp) h
    · cases hstep
  | exit other result raw =>
    dsimp only [Wave.exit] at hstep
    split at hstep
    · cases hstep
      exact setBody_not_idle (by simp) h
    · cases hstep
      exact setBody_not_idle (by simp) h
    · cases hstep
      exact setBody_not_idle (by cases raw <;> simp) h
    · cases hstep
  | rawSettled other | graceOver other =>
    dsimp only [close] at hstep
    split at hstep
    · cases hstep
      exact setBody_not_idle (by simp) h
    · cases hstep
  | post outcome revert =>
    dsimp only at hstep
    split at hstep
    · cases hstep
      simpa using h
    · cases hstep
  | commit commit =>
    dsimp only at hstep
    split at hstep
    · cases hstep
      simpa using h
    · cases hstep
      simpa using h
    · cases hstep

theorem begin_not_idle {call : ℕ} (hstep : Step options items w (.begin call) w') :
    w.bodies call ≠ .idle := by
  intro hidle
  simp [Step, Wave.step, Wave.begin, hidle] at hstep

theorem Inv.exclusive (h : Inv items w) {call : ℕ} (hne : call ≠ other) (hsequential : Sequential items call)
    (hactive : (w.bodies call).active) : ¬ (w.bodies other).active := by
  intro hother
  have hlive := Body.live_of_active hactive
  have hlive' := Body.live_of_active hother
  have hfibers := h.fibers
  unfold Fibers at hfibers
  split at hfibers
  case h_1 => exact idle_not_live hfibers call hlive
  case h_2 | h_3 => exact idle_not_live hfibers.2 call hlive
  case h_4 => exact hfibers.2.2.2 call (hfibers.2.2.1 call hlive) hsequential
  case h_5 => exact hne ((hfibers.2.2.1 call hlive).trans (hfibers.2.2.1 other hlive').symm)
  case h_6 | h_7 => exact hfibers.2 call hlive
  case h_8 => exact hfibers call hlive

lemma Inv.run (run : Transition.Run (Step options items) Wave.start trace w) :
    Inv items w ∧ ∀ e ∈ trace, Inv items e.1 := by
  have hstep : ∀ a l b, Inv items a → Step options items a l b → Inv items b :=
    fun _ _ _ ha hl => ha.step hl
  exact ⟨run.preserves Inv.start hstep, run.visits Inv.start hstep⟩

theorem begun_of_mem (run : Transition.Run (Step options items) Wave.start trace w) {c : Wave} {call : ℕ}
    (hmem : (c, Event.begin call) ∈ trace) : w.bodies call ≠ .idle := by
  induction run with
  | nil => simp at hmem
  | snoc run step ih =>
    rcases mem_append.mp hmem with hmem | hmem
    · exact step_not_idle step (ih hmem)
    · obtain ⟨rfl, rfl⟩ := Prod.mk.inj (mem_singleton.mp hmem)
      exact step_not_idle step (begin_not_idle step)

/-- Whatever the schedule: a body begins only behind the barrier, a sequential body is active alone, a call
that is denied, refused or timed out never begins, and no call has two result rows. A batch that comes back
has one for every call with an intent, and the results stand in call order. -/
theorem wave_barrier {trace : List (Wave × Event)}
    (run : Transition.Run (Step options items) Wave.start trace w) :
    (∀ c call, (c, Event.begin call) ∈ trace → Barrier items c ∧
      ∀ other item pre, items[other]? = some item → c.pre[other]? = some pre → pre.verdict ≠ .deny →
        item.original = true ∨ .intent other ∈ c.rows) ∧
    (∀ call other, call ≠ other → Sequential items call → (w.bodies call).active →
      ¬ (w.bodies other).active) ∧
    (∀ call, (∃ pre, w.pre[call]? = some pre ∧ pre.verdict = .deny) ∨ w.decisions call = some .refuse ∨
      w.decisions call = some .timeout → ∀ c, (c, Event.begin call) ∉ trace) ∧
    (∀ call, (resultRows w.rows call).length ≤ 1) ∧
    (w.point = .done → w.results.length = items.length ∧
      ∀ call outcome, w.intents[call]? = some true → w.results[call]? = some outcome →
        resultRows w.rows call = [outcome]) := by
  obtain ⟨hlast, hvisits⟩ := Inv.run run
  refine ⟨?_, fun call other hne hsequential hactive => hlast.exclusive hne hsequential hactive, ?_,
    hlast.rows_le, ?_⟩
  · intro c call hmem
    have hc := hvisits _ hmem
    obtain ⟨next, hnext⟩ := run.steps _ hmem
    obtain ⟨hbarrier, -⟩ := hc.begun call (begin_not_idle hnext)
    refine ⟨hbarrier, fun other item pre hitem hpre hverdict => ?_⟩
    have hlt : other < c.intents.length := by
      rw [hbarrier.staged]
      exact (List.getElem?_eq_some_iff.mp hitem).1
    obtain ⟨item', pre', hitem', hpre', -, hcommitted⟩ := hc.intents other _ (getElem?_eq_getElem hlt)
    rw [hitem] at hitem'
    rw [hpre] at hpre'
    cases hitem'
    cases hpre'
    exact hcommitted hverdict
  · intro call hblocked c hmem
    have hexecute := (hlast.begun call (begun_of_mem run hmem)).2
    simp only [shouldExecute, Bool.and_eq_true, decide_eq_true_eq] at hexecute
    rcases hblocked with ⟨pre, hpre, hdeny⟩ | hrefused | htimeout
    · simp [hpre, hdeny] at hexecute
    · simp [hrefused] at hexecute
    · simp [htimeout] at hexecute
  · intro hdone
    refine ⟨hlast.finished hdone, fun call outcome hintent houtcome => ?_⟩
    rw [hlast.rows (by simp [hdone]) call, if_pos hintent, houtcome]
    rfl

end OpenOmni.Wave

namespace OpenOmni.WaveSample

open Wave

def call : BatchItem := ⟨"tool", "read", false, false, false, false, false⟩

def options : WaveOptions := ⟨fun _ => false, fun _ => false⟩

def allowed : Except Cause Admitted := .ok ⟨.allow, none⟩

def bothRun : List Event :=
  [.admitItem allowed, .admitItem allowed, .next, .intend (.ok ()), .intend (.ok ()), .next, .ask, .ask,
    .settle 1 (.ok .approve), .settle 0 (.ok .approve), .next, .next, .next, .begin 1, .begin 0,
    .exit 0 (.ok (.str "a")) false, .exit 1 (.ok (.str "b")) false, .next]

def play (labels : List Event) : Option Wave := labels.foldlM (step options [call, call]) Wave.start

def bothSettle : List Event := bothRun ++ [.next, .commit .committed, .next, .commit .committed, .next]

theorem wave_barrier_both : ∃ w, play bothSettle = some w ∧
    resultRows w.rows 0 = [.executed (.str "a") none] ∧ resultRows w.rows 1 = [.executed (.str "b") none] := by
  have hplay : (play bothSettle).map (fun w => (w.point, w.intents, w.results)) =
      some (.done, [true, true], [.executed (.str "a") none, .executed (.str "b") none]) := rfl
  obtain ⟨w, hw, hend⟩ := Option.map_eq_some_iff.mp hplay
  simp only [Prod.mk.injEq] at hend
  obtain ⟨hdone, hintents, hresults⟩ := hend
  obtain ⟨trace, -, run⟩ := Transition.Run.ofLabels hw
  obtain ⟨-, -, -, -, hrows⟩ := wave_barrier run
  exact ⟨w, hw, (hrows hdone).2 0 _ (by simp [hintents]) (by simp [hresults]),
    (hrows hdone).2 1 _ (by simp [hintents]) (by simp [hresults])⟩

/-- The ledger refuses the first result row: the batch fails, and the second call, admitted and run, is left
without a result row. -/
theorem refused_result_ends_wave :
    ¬ ∀ (options : WaveOptions) (items : List BatchItem) (trace : List (Wave × Event)) (w : Wave),
      Transition.Run (Step options items) Wave.start trace w →
      (w.point = .done ∨ ∃ cause, w.point = .failed cause) →
      ∀ call, w.intents[call]? = some true → (resultRows w.rows call).length = 1 := by
  intro hclaim
  have hplay : (play (bothRun ++ [.next, .commit .refused])).map
      (fun w => (w.point, w.intents, resultRows w.rows 1)) =
        some (.failed [.fail .commitFailed], [true, true], []) := rfl
  obtain ⟨w, hw, hend⟩ := Option.map_eq_some_iff.mp hplay
  simp only [Prod.mk.injEq] at hend
  obtain ⟨hfailed, hintents, hrows⟩ := hend
  obtain ⟨trace, -, run⟩ := Transition.Run.ofLabels hw
  have hone := hclaim options [call, call] trace w run (Or.inr ⟨_, hfailed⟩) 1 (by simp [hintents])
  simp [hrows] at hone

end OpenOmni.WaveSample
