import OpenOmni.Compaction.Candidate

/-! The plan of a compaction, with the recipe that undoes it. -/
namespace OpenOmni
namespace Durable
open List Message Compaction

structure CompactionRecord where
  summary : String
  firstKeptEntryId : String
  tokensBefore : ℚ
  firstEntryId : String
  lastEntryId : String
  count : ℕ
  sha256 : String
  removedEntries : List WithParts
  priorAnchorEntryId : Option String

structure CompactionPlan where
  projection : List WithParts
  record : CompactionRecord

def compactionSummary (entries : List WithParts) : String :=
  (((entries.flatMap (·.parts)).find? isAnchorPart).bind anchorBodyOf).getD ""

section
variable (digest : WithParts → String) (digestAll : List WithParts → String)

def sharedFront : List WithParts → List WithParts → ℕ
  | before :: prior, after :: replacement =>
    if digest before = digest after then sharedFront prior replacement + 1 else 0
  | _, _ => 0

def sharedSuffix (prior replacement : List WithParts) : ℕ := sharedFront digest prior.reverse replacement.reverse

/-- Nothing where it throws: no history, or nothing that is discarded. -/
def createCompactionPlan (prior replacement : List WithParts) (tokensBefore : ℚ) : Option CompactionPlan := do
  let shared := sharedSuffix digest prior replacement
  let finalOriginal ← prior.getLast?
  let removedEntries := prior.take (prior.length - max 1 shared)
  let firstRemoved ← removedEntries.head?
  let lastRemoved ← removedEntries.getLast?
  return {
    projection := if 0 < shared then replacement
      else replacement.filter (·.info.id ≠ finalOriginal.info.id) ++ [finalOriginal]
    record := {
      summary := compactionSummary replacement
      firstKeptEntryId := ((prior.drop (prior.length - shared)).head?.getD finalOriginal).info.id
      tokensBefore
      firstEntryId := firstRemoved.info.id
      lastEntryId := lastRemoved.info.id
      count := removedEntries.length
      sha256 := digestAll removedEntries
      removedEntries
      priorAnchorEntryId := latestCompactionAnchorId removedEntries } }

def restoreCompactionProjection (projection : List WithParts) (record : CompactionRecord) : Option (List WithParts) :=
  if digestAll record.removedEntries ≠ record.sha256 then none
  else (projection.findIdx? (·.info.id = record.firstKeptEntryId)).map fun firstKeptIndex =>
    record.removedEntries ++ projection.drop firstKeptIndex

/-- The messages and any that follow them are restored to the prior ones and those that follow. -/
def Restores (record : CompactionRecord) (prior messages : List WithParts) : Prop :=
  ∀ later, (restoreCompactionProjection digestAll (messages ++ later) record).map (map digest) =
    some ((prior ++ later).map digest)

end

/-- No message of the projection in front of those that are kept has the name of the first kept one. -/
def CompactionPlan.Foremost (plan : CompactionPlan) (prior : List WithParts) : Prop :=
  ∀ m ∈ plan.projection.take (plan.projection.length - (prior.length - plan.record.removedEntries.length)),
    m.info.id ≠ plan.record.firstKeptEntryId

section
variable {digest : WithParts → String} {digestAll : List WithParts → String} {prior replacement : List WithParts}
  {tokensBefore : ℚ} {plan : CompactionPlan}

lemma sharedFront_take (xs ys : List WithParts) : sharedFront digest xs ys ≤ xs.length ∧
    sharedFront digest xs ys ≤ ys.length ∧
    (xs.take (sharedFront digest xs ys)).map digest = (ys.take (sharedFront digest xs ys)).map digest := by
  induction xs generalizing ys with
  | nil => simp [sharedFront]
  | cons x xs ih =>
    cases ys with
    | nil => simp [sharedFront]
    | cons y ys =>
      unfold sharedFront
      split_ifs with heq
      · obtain ⟨hxs, hys, htake⟩ := ih ys
        exact ⟨Nat.succ_le_succ hxs, Nat.succ_le_succ hys, by simp [heq, htake]⟩
      · simp

lemma sharedSuffix_drop (prior replacement : List WithParts) : sharedSuffix digest prior replacement ≤ prior.length ∧
    (prior.drop (prior.length - sharedSuffix digest prior replacement)).map digest =
      (replacement.drop (replacement.length - sharedSuffix digest prior replacement)).map digest := by
  obtain ⟨hprior, -, htake⟩ : sharedFront digest prior.reverse replacement.reverse ≤ _ ∧ _ := sharedFront_take _ _
  rw [length_reverse] at hprior
  rw [take_reverse, take_reverse, map_reverse, map_reverse] at htake
  exact ⟨hprior, reverse_injective htake⟩

/-- What is kept of the projection is what was kept of the prior messages, behind those that the record removed. -/
structure Parts (digest : WithParts → String) (digestAll : List WithParts → String) (prior : List WithParts)
    (plan : CompactionPlan) (front kept : List WithParts) (first : WithParts) (rest : List WithParts) : Prop where
  prior : prior = plan.record.removedEntries ++ first :: rest
  projection : plan.projection = front ++ kept
  same : kept.map digest = (first :: rest).map digest
  first : plan.record.firstKeptEntryId = first.info.id
  sealed : digestAll plan.record.removedEntries = plan.record.sha256

lemma exists_parts (h : createCompactionPlan digest digestAll prior replacement tokensBefore = some plan) :
    ∃ front kept first rest, Parts digest digestAll prior plan front kept first rest := by
  obtain ⟨hshared, hsame⟩ : sharedSuffix digest prior replacement ≤ _ ∧ _ := sharedSuffix_drop _ _
  unfold createCompactionPlan at h
  simp only [Option.bind_eq_bind, Option.bind_eq_some_iff] at h
  obtain ⟨final, hfinal, firstRemoved, -, lastRemoved, -, h⟩ := h
  cases h
  have hsplit := (take_append_drop (prior.length - max 1 (sharedSuffix digest prior replacement)) prior).symm
  by_cases hpos : 0 < sharedSuffix digest prior replacement
  · rw [max_eq_right (Nat.succ_le_of_lt hpos)] at hsplit
    cases hkept : prior.drop (prior.length - sharedSuffix digest prior replacement) with
    | nil =>
      have hlength := congrArg List.length hkept
      rw [length_drop, length_nil] at hlength
      omega
    | cons first rest =>
      rw [hkept] at hsplit hsame
      refine ⟨_, _, first, rest, ?_, (if_pos hpos).trans (take_append_drop (replacement.length - _) replacement).symm,
        hsame.symm, rfl, rfl⟩
      dsimp only
      rw [max_eq_right (Nat.succ_le_of_lt hpos)]
      exact hsplit
  · obtain ⟨initial, hinitial⟩ := getLast?_eq_some_iff.mp hfinal
    rw [Nat.eq_zero_of_not_pos hpos] at hsplit ⊢
    have hdrop : prior.drop (prior.length - max 1 0) = [final] := by simp [hinitial]
    rw [hdrop] at hsplit
    exact ⟨replacement.filter (·.info.id ≠ final.info.id), [final], final, [], hsplit, rfl, rfl, by simp, rfl⟩

variable {front kept : List WithParts} {first : WithParts} {rest : List WithParts}

lemma Parts.foremost_iff (h : Parts digest digestAll prior plan front kept first rest) :
    plan.Foremost prior ↔ ∀ m ∈ front, m.info.id ≠ first.info.id := by
  have hlength := congrArg List.length h.same
  have hprior := congrArg List.length h.prior
  rw [length_map, length_map] at hlength
  rw [length_append] at hprior
  have hfront : plan.projection.length - (prior.length - plan.record.removedEntries.length) = front.length := by
    rw [h.projection, length_append]
    omega
  rw [CompactionPlan.Foremost, hfront, h.first, h.projection, take_left' rfl]

lemma restored_of_some {digestAll : List WithParts → String} {projection restored : List WithParts}
    {record : CompactionRecord} (h : restoreCompactionProjection digestAll projection record = some restored) :
    ∃ i < projection.length, restored = record.removedEntries ++ projection.drop i := by
  unfold restoreCompactionProjection at h
  split at h
  · cases h
  · obtain ⟨i, hi, rfl⟩ := Option.map_eq_some_iff.mp h
    exact ⟨i, (findIdx?_eq_some_iff_getElem.mp hi).1, rfl⟩

lemma Parts.restores_iff (h : Parts digest digestAll prior plan front kept first rest)
    (hdigest : ∀ a b, digest a = digest b → a.info.id = b.info.id) :
    Restores digest digestAll plan.record prior plan.projection ↔ ∀ m ∈ front, m.info.id ≠ first.info.id := by
  have hsame := h.same
  constructor
  · intro hrestores m hm heq
    obtain ⟨restored, hrestored, hdigests⟩ := Option.map_eq_some_iff.mp (hrestores [])
    rw [append_nil] at hrestored hdigests
    obtain ⟨i, hi, rfl⟩ := Option.map_eq_some_iff.mp ((if_neg (not_not.mpr h.sealed)).symm.trans hrestored)
    have hlength := congrArg List.length hdigests
    have hkept := congrArg List.length hsame
    rw [length_map, length_map] at hlength hkept
    rw [length_append, length_drop, congrArg List.length h.prior, h.projection, length_append, length_append] at hlength
    -- the first message of that name stands in front
    have hle : i < front.length := by
      rw [h.projection, h.first, findIdx?_append] at hi
      obtain ⟨j, hj⟩ : ∃ j, front.findIdx? (·.info.id = first.info.id) = some j := by
        rw [← Option.isSome_iff_exists, findIdx?_isSome, any_eq_true]
        exact ⟨m, hm, decide_eq_true heq⟩
      rw [hj, Option.some_or] at hi
      cases hi
      exact (findIdx?_eq_some_iff_getElem.mp hj).1
    omega
  · intro hfront later
    cases kept with
    | nil => cases hsame
    | cons first' rest' =>
      rw [map_cons, map_cons, cons.injEq] at hsame
      have hidx : (plan.projection ++ later).findIdx? (·.info.id = plan.record.firstKeptEntryId) = some front.length := by
        have hnone : front.findIdx? (·.info.id = first.info.id) = none := by
          rw [findIdx?_eq_none_iff]
          exact fun m hm => decide_eq_false (hfront m hm)
        rw [h.projection, h.first, append_assoc, findIdx?_append, hnone, cons_append, findIdx?_cons,
          if_pos (decide_eq_true (hdigest _ _ hsame.1))]
        simp
      unfold restoreCompactionProjection
      rw [if_neg (not_not.mpr h.sealed), hidx, Option.map_some, Option.map_some, h.projection, append_assoc,
        drop_left' rfl, h.prior]
      simp [hsame.1, hsame.2]

lemma last_of_ne_projection (h : createCompactionPlan digest digestAll prior replacement tokensBefore = some plan)
    (hne : plan.projection ≠ replacement) : ∃ final, prior = plan.record.removedEntries ++ [final] ∧
      ∀ m, replacement.getLast? = some m → digest final ≠ digest m := by
  unfold createCompactionPlan at h
  simp only [Option.bind_eq_bind, Option.bind_eq_some_iff] at h
  obtain ⟨final, hfinal, firstRemoved, -, lastRemoved, -, h⟩ := h
  cases h
  have hzero : sharedSuffix digest prior replacement = 0 := by
    by_contra hpos
    exact hne (if_pos (Nat.pos_of_ne_zero hpos))
  obtain ⟨initial, rfl⟩ := getLast?_eq_some_iff.mp hfinal
  refine ⟨final, by simp [hzero], fun m hm heq => ?_⟩
  obtain ⟨others, rfl⟩ := getLast?_eq_some_iff.mp hm
  simp [sharedSuffix, sharedFront, heq] at hzero

/-- A plan undoes itself exactly when the first kept message is the first of its name; the messages that were
compacted can stand for the projection only when they are it. -/
theorem plan_restores_iff (hdigest : ∀ a b, digest a = digest b → a.info.id = b.info.id)
    (h : createCompactionPlan digest digestAll prior replacement tokensBefore = some plan) :
    (Restores digest digestAll plan.record prior plan.projection ↔ plan.Foremost prior) ∧
      (Restores digest digestAll plan.record prior replacement ↔
        plan.projection = replacement ∧ plan.Foremost prior) := by
  obtain ⟨front, kept, first, rest, hparts⟩ := exists_parts h
  have hplan := (hparts.restores_iff hdigest).trans hparts.foremost_iff.symm
  refine ⟨hplan, ?_⟩
  by_cases hne : plan.projection = replacement
  · rw [← hne, hplan]
    exact (and_iff_right rfl).symm
  · refine iff_of_false (fun hrestores => ?_) fun hall => hne hall.1
    obtain ⟨final, hprior, hlast⟩ := last_of_ne_projection h hne
    obtain ⟨restored, hrestored, hdigests⟩ := Option.map_eq_some_iff.mp (hrestores [])
    rw [append_nil] at hrestored hdigests
    obtain ⟨i, hi, rfl⟩ := restored_of_some hrestored
    rw [hprior, map_append, map_append, append_cancel_left_eq] at hdigests
    have hend := congrArg getLast? hdigests
    rw [getLast?_map, getLast?_drop, if_neg (by omega)] at hend
    obtain ⟨m, hm, heq⟩ := Option.map_eq_some_iff.mp hend
    exact hlast m hm heq.symm

def named (id : String) : WithParts :=
  ⟨.user { id, sessionID := "s", created := 0, agent := "a", providerID := "", modelID := "" }, []⟩

theorem plan_restores_kept : ∃ plan, createCompactionPlan (·.info.id) (fun _ => "") [named "a", named "b"]
      [named "summary", named "b"] 7 = some plan ∧
    Restores (·.info.id) (fun _ => "") plan.record [named "a", named "b"] plan.projection := by
  have hplan : createCompactionPlan (·.info.id) (fun _ => "") [named "a", named "b"]
      [named "summary", named "b"] 7 = some _ := rfl
  refine ⟨_, hplan, (plan_restores_iff (fun _ _ heq => heq) hplan).1.mpr ?_⟩
  unfold CompactionPlan.Foremost
  decide

end
end Durable
end OpenOmni
