import OpenOmni.Loop.WaveBarrier

/-! How many rows a wave commits: one intent for every call that is not denied, and one result for each of them. -/
namespace OpenOmni
open List

def WaveRow.isIntent : WaveRow → Bool
  | .intent _ => true
  | _ => false

def WaveRow.isResult : WaveRow → Bool
  | .result _ _ => true
  | _ => false

namespace Wave

variable {options : WaveOptions} {items : List BatchItem} {w w' : Wave}

/-- The rows so far, by the stages that have an intent and by the results that are through. -/
structure Counted (w : Wave) : Prop where
  intents : w.rows.countP WaveRow.isIntent = w.intents.count true
  results : (∀ cause, w.point ≠ .failed cause) →
    w.rows.countP WaveRow.isResult = (w.intents.take w.results.length).count true

structure Still (w w' : Wave) : Prop where
  rows : w'.rows = w.rows
  intents : w'.intents = w.intents
  results : w'.results = w.results

lemma Counted.still (h : Counted w) (hs : Still w w')
    (hgoing : (∀ cause, w'.point ≠ .failed cause) → ∀ cause, w.point ≠ .failed cause) : Counted w' := by
  refine ⟨?_, fun hnot => ?_⟩
  · rw [hs.rows, hs.intents]
    exact h.intents
  · rw [hs.rows, hs.intents, hs.results]
    exact h.results (hgoing hnot)

lemma still_admitItem {outcome : Except Cause Admitted} (h : admitItem items w outcome = some w') : Still w w' := by
  unfold admitItem at h
  split at h
  · cases h
  · split at h
    · cases outcome <;> obtain rfl := Option.some.inj h <;> exact ⟨rfl, rfl, rfl⟩
    · cases h
      exact ⟨rfl, rfl, rfl⟩

variable {call : ℕ} {trace : List (Wave × Event)}

lemma still_settle {outcome : Except Cause ApprovalDecision} (h : settle options items w call outcome = some w') :
    Still w w' := by
  unfold settle at h
  split at h
  · split at h
    · cases h
      exact ⟨rfl, rfl, rfl⟩
    · cases outcome <;> obtain rfl := Option.some.inj h <;> exact ⟨rfl, rfl, rfl⟩
  · cases h

lemma still_launch {index : ℕ} (h : launch items w index = some w') : Still w w' := by
  unfold launch at h
  split at h
  · split at h
    · cases h
      exact ⟨rfl, rfl, rfl⟩
    · cases h
  · split at h
    · split at h
      · split at h
        · cases h
          exact ⟨rfl, rfl, rfl⟩
        · cases h
      · cases h
        exact ⟨rfl, rfl, rfl⟩
    · cases h
      exact ⟨rfl, rfl, rfl⟩

lemma still_finishBody (item : BatchItem) (body : BodyExit) : Still w (finishBody options w item body) := by
  unfold finishBody
  split
  · exact ⟨rfl, rfl, rfl⟩
  · split
    · split <;> exact ⟨rfl, rfl, rfl⟩
    · split <;> exact ⟨rfl, rfl, rfl⟩

lemma still_finishStage : Still w (finishStage options items w) := by
  unfold finishStage
  dsimp only
  split
  · split
    · split
      · exact still_finishBody _ _
      · exact ⟨rfl, rfl, rfl⟩
    · exact ⟨rfl, rfl, rfl⟩
  · exact ⟨rfl, rfl, rfl⟩

lemma still_completionFailure (item : BatchItem) (completing : Option PlainValue) (cause : Cause) :
    Still w (completionFailure w item completing cause) := by
  unfold completionFailure
  split
  · exact ⟨rfl, rfl, rfl⟩
  · dsimp only
    split <;> exact ⟨rfl, rfl, rfl⟩

lemma still_post (item : BatchItem) (value : PlainValue)
    (outcome : Except Cause (Verdict × PlainValue × Option String)) (revert : Except Cause Unit) :
    Still w (post w item value outcome revert) := by
  unfold post
  split
  · exact still_completionFailure _ _ _
  · exact ⟨rfl, rfl, rfl⟩

lemma Counted.close {raw : Bool} (h : Counted w) (hstep : close w call raw = some w') : Counted w' := by
  unfold Wave.close at hstep
  split at hstep
  · cases hstep
    exact h.still ⟨rfl, rfl, rfl⟩ fun hnot => hnot
  · cases hstep

lemma still_next (h : next options items w = some w') : Still w w' := by
  unfold next at h
  split at h
  · split at h
    · cases h
      exact ⟨rfl, rfl, rfl⟩
    · cases h
  · split at h
    · cases h
      exact ⟨rfl, rfl, rfl⟩
    · cases h
  · split at h
    · cases h
      exact ⟨rfl, rfl, rfl⟩
    · cases h
  · exact still_launch h
  · split at h
    · cases h
      exact ⟨rfl, rfl, rfl⟩
    · cases h
  · cases h
    exact still_finishStage
  · cases h

theorem Counted.pushRow (h : Counted w) {row : WaveRow} (hintent : row.isIntent = false) (hresult : row.isResult = false) :
    Counted { w with rows := w.rows ++ [row] } := by
  refine ⟨?_, fun hgoing => ?_⟩
  · simpa [hintent] using h.intents
  · simpa [hresult] using h.results hgoing

lemma Counted.stageIntent {outcome : Except Cause Unit} (h : Counted w) (hinv : Inv items w)
    (hpoint : w.point = .intending) (hstep : stageIntent items w outcome = some w')
    (hfresh : ∀ item ∈ items, item.original = false) : Counted w' := by
  have hgoing : ∀ cause, w.point ≠ .failed cause := fun cause hf => nomatch hpoint.symm.trans hf
  have htake : ∀ b : Bool, (w.intents ++ [b]).take w.results.length = w.intents.take w.results.length :=
    fun b => take_append_of_le_length hinv.results
  unfold Wave.stageIntent at hstep
  split at hstep
  · rename_i item pre hitem hpre
    split at hstep
    · cases hstep
      refine ⟨?_, fun _ => ?_⟩
      · simpa using h.intents
      · dsimp only
        rw [htake]
        exact h.results hgoing
    · split at hstep
      · rename_i horiginal
        exact absurd horiginal (by simp [hfresh item (mem_of_getElem? hitem)])
      · cases outcome with
        | error cause =>
          cases hstep
          exact h.still ⟨rfl, rfl, rfl⟩ fun _ => hgoing
        | ok _ =>
          cases hstep
          refine ⟨?_, fun _ => ?_⟩
          · simpa [WaveRow.isIntent] using h.intents
          · dsimp only
            rw [htake]
            simpa [WaveRow.isResult] using h.results hgoing
  · cases hstep

lemma Counted.commitBoundary (h : Counted w) (hgoing : ∀ cause, w.point ≠ .failed cause) (item : BatchItem)
    (value : PlainValue) (commit : Commit) : Counted (commitBoundary w item value commit) := by
  have hpushed : Counted { w with rows := w.rows ++ [.boundary w.results.length value] } := h.pushRow rfl rfl
  unfold Wave.commitBoundary
  dsimp only
  split
  · exact hpushed.still ⟨rfl, rfl, rfl⟩ fun _ => hgoing
  · exact h.still ⟨rfl, rfl, rfl⟩ fun _ => hgoing
  · exact h.still (still_completionFailure _ _ _) fun _ => hgoing
  · exact hpushed.still (still_completionFailure _ _ _) fun _ => hgoing

lemma Counted.commitResult (h : Counted w) (hgoing : ∀ cause, w.point ≠ .failed cause)
    (hlt : w.results.length < w.intents.length) (item : BatchItem) (outcome : ExecutionResult)
    (completing : Option PlainValue) (commit : Commit) : Counted (commitResult w item outcome completing commit) := by
  have htake : ∀ b, w.intents[w.results.length]? = some b →
      (w.intents.take (w.results.length + 1)).count true =
        (w.intents.take w.results.length).count true + if b then 1 else 0 := by
    intro b hb
    rw [take_add_one, hb, Option.toList_some, count_append, count_singleton]
    simp
  unfold Wave.commitResult
  dsimp only
  split
  · rename_i hintent
    split
    · refine ⟨?_, fun _ => ?_⟩
      · simpa [WaveRow.isIntent] using h.intents
      · dsimp only
        rw [length_append, length_singleton, htake true hintent, countP_append, h.results hgoing]
        rfl
    · exact h.still ⟨rfl, rfl, rfl⟩ fun _ => hgoing
    · exact h.still (still_completionFailure _ _ _) fun _ => hgoing
    · refine ⟨?_, fun hnot => absurd rfl (hnot _)⟩
      simpa [WaveRow.isIntent, fail] using h.intents
  · rename_i hintent
    have hfalse : w.intents[w.results.length]? = some false := by
      have hget := getElem?_eq_getElem hlt
      cases hb : w.intents[w.results.length] with
      | true => exact absurd (hb ▸ hget) hintent
      | false => exact hb ▸ hget
    refine ⟨h.intents, fun _ => ?_⟩
    dsimp only
    rw [length_append, length_singleton, htake false hfalse]
    exact h.results hgoing

lemma Counted.step {event : Event} (h : Counted w) (hinv : Inv items w) (hfresh : ∀ item ∈ items, item.original = false)
    (hstep : Step options items w event w') : Counted w' := by
  have hpointed : ∀ {point : WavePoint}, w.point = point → (∀ cause, point ≠ .failed cause) →
      ∀ cause, w.point ≠ .failed cause := fun hp hnot cause hf => hnot cause (hp.symm.trans hf)
  unfold Step Wave.step at hstep
  cases event with
  | next =>
    refine h.still (still_next hstep) fun _ cause hf => ?_
    dsimp only at hstep
    unfold Wave.next at hstep
    rw [hf] at hstep
    cases hstep
  | admitItem outcome =>
    dsimp only at hstep
    split at hstep
    · rename_i hpoint
      exact h.still (still_admitItem hstep) fun _ => hpointed hpoint (by simp)
    · cases hstep
  | intend outcome =>
    dsimp only at hstep
    split at hstep
    · rename_i hpoint
      exact h.stageIntent hinv hpoint hstep hfresh
    · cases hstep
  | ask =>
    dsimp only at hstep
    split at hstep
    · rename_i hpoint
      split at hstep
      · cases hstep
        exact h.still ⟨rfl, rfl, rfl⟩ fun _ => hpointed hpoint (by simp)
      · cases hstep
    · cases hstep
  | settle call outcome =>
    dsimp only at hstep
    split at hstep
    · rename_i hpoint
      exact h.still (still_settle hstep) fun _ => hpointed hpoint (by simp)
    · cases hstep
  | interrupt =>
    dsimp only at hstep
    split at hstep
    · rename_i hpoint
      cases hstep
      refine h.still ?_ fun _ => hpointed hpoint (by simp)
      split <;> exact ⟨rfl, rfl, rfl⟩
    · cases hstep
      exact h
  | apply call =>
    dsimp only at hstep
    unfold application at hstep
    split at hstep
    · split at hstep
      · cases hstep
        have hpushed : Counted { w with rows := w.rows ++ [.application call] } := h.pushRow rfl rfl
        exact hpushed.still ⟨rfl, rfl, rfl⟩ fun hnot => hnot
      · cases hstep
    · cases hstep
  | begin call =>
    dsimp only at hstep
    unfold Wave.begin at hstep
    split at hstep
    · split at hstep
      · cases hstep
      · cases hstep
        exact h.still ⟨rfl, rfl, rfl⟩ fun hnot => hnot
    · cases hstep
      exact h.still ⟨rfl, rfl, rfl⟩ fun hnot => hnot
    · cases hstep
  | exit call result raw =>
    dsimp only at hstep
    unfold Wave.exit at hstep
    split at hstep
    · cases hstep
      exact h.still ⟨rfl, rfl, rfl⟩ fun hnot => hnot
    · cases hstep
      exact h.still ⟨rfl, rfl, rfl⟩ fun hnot => hnot
    · cases hstep
      exact h.still ⟨rfl, rfl, rfl⟩ fun hnot => hnot
    · cases hstep
  | rawSettled call | graceOver call => exact h.close hstep
  | post outcome revert =>
    dsimp only at hstep
    split at hstep
    · rename_i hpoint _
      cases hstep
      exact h.still (still_post _ _ _ _) fun _ => hpointed hpoint (by simp)
    · cases hstep
  | commit commit =>
    dsimp only at hstep
    split at hstep
    · rename_i hpoint _
      cases hstep
      exact h.commitBoundary (hpointed hpoint (by simp)) _ _ _
    · rename_i hpoint hitem
      cases hstep
      have hbarrier : Barrier items w := by
        have hfibers := hinv.fibers
        unfold Fibers at hfibers
        rw [hpoint] at hfibers
        exact hfibers.1
      have hlt := (List.getElem?_eq_some_iff.mp hitem).1
      rw [← hbarrier.staged] at hlt
      exact h.commitResult (hpointed hpoint (by simp)) hlt _ _ _ _
    · cases hstep

lemma Counted.start : Counted Wave.start := ⟨rfl, fun _ => rfl⟩

section
variable (run : Transition.Run (Step options items) Wave.start trace w)
  (hfresh : ∀ item ∈ items, item.original = false) (hdone : w.point = .done)
include run hfresh hdone

theorem intent_of_result {outcome : ExecutionResult}
    (hresult : .result call outcome ∈ w.rows) : .intent call ∈ w.rows := by
  have hinv := (Inv.run run).1
  have hrow : outcome ∈ resultRows w.rows call := mem_filterMap.mpr ⟨_, hresult, if_pos rfl⟩
  rw [hinv.rows (by simp [hdone])] at hrow
  split at hrow
  · rename_i hintent
    obtain ⟨item, pre, hitem, -, hverdict, hcommitted⟩ := hinv.intents call true hintent
    have hadmitted : pre.verdict ≠ .deny := by simpa using hverdict.symm
    exact (hcommitted hadmitted).resolve_left (by simp [hfresh item (mem_of_getElem? hitem)])
  · cases hrow

theorem rows_counted : w.rows.countP WaveRow.isIntent = w.pre.countP (·.verdict ≠ .deny) ∧
      w.rows.countP WaveRow.isResult = w.pre.countP (·.verdict ≠ .deny) := by
  have hboth := run.preserves (P := fun w => Inv items w ∧ Counted w) ⟨Inv.start, Counted.start⟩
    fun _ _ _ ha hl => ⟨ha.1.step hl, ha.2.step ha.1 hfresh hl⟩
  obtain ⟨hinv, hcounted⟩ := hboth
  have hbarrier : Barrier items w := by
    have hfibers := hinv.fibers
    unfold Fibers at hfibers
    rw [hdone] at hfibers
    exact hfibers.1
  have hintents : w.intents = w.pre.map fun pre => decide (pre.verdict ≠ .deny) := by
    apply ext_getElem
    · rw [length_map, hbarrier.staged, hbarrier.decided]
    · intro call hcall hmap
      obtain ⟨item, pre, -, hpre, hverdict, -⟩ := hinv.intents call _ (getElem?_eq_getElem hcall)
      rw [hverdict, getElem_map]
      have hlt : call < w.pre.length := (List.getElem?_eq_some_iff.mp hpre).1
      rw [getElem?_eq_getElem hlt] at hpre
      rw [Option.some.inj hpre]
  have hcount : w.intents.count true = w.pre.countP (·.verdict ≠ .deny) := by
    rw [hintents, count_eq_countP, countP_map]
    apply countP_congr
    simp
  have hall : w.intents.take w.results.length = w.intents := by
    rw [hinv.finished hdone, ← hbarrier.staged, take_length]
  constructor
  · rw [hcounted.intents, hcount]
  · rw [hcounted.results (by simp [hdone]), hall, hcount]

end

end Wave
end OpenOmni
