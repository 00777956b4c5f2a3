import OpenOmni.Gate.PolicyEvaluation
import OpenOmni.Gate.Replies

/-! The rounds of an asynchronous evaluation, and the one pass over the rows that they amount to. -/
namespace OpenOmni
open List

open PlainValue

/-- How an effect ends: with an evaluation, or with the defect a throw or an unregistered consultant is. -/
inductive Exit where
  | success (evaluation : PolicyEvaluation)
  | died

def Exit.ofEvaluation : Option PolicyEvaluation → Exit
  | some evaluation => success evaluation
  | none => died

/-- An effect that has run: its end, the questions it asked, in order, and the answers it gathered. -/
structure ConsultRun where
  exit : Exit
  calls : List ConsultInput
  prepared : PreparedResults

section Rounds
variable [PlainCoding]

def CompiledPolicySnapshot.pendingAsync {Context : Type} (snapshot : CompiledPolicySnapshot Context) : List String :=
  snapshot.consultants.entries.map (·.1)

/-- The `step` of `evaluateEffect`, at most `fuel` times over. -/
def consultRounds (snapshot : PolicySnapshot) (input : PolicyEvaluationInput) :
    ℕ → PreparedResults → List ConsultInput → Option ConsultRun
  | 0, _, _ => none
  | fuel + 1, prepared, calls =>
    match evaluate snapshot input { prepared, pendingAsync := snapshot.pendingAsync } with
    | none => some ⟨.died, calls, prepared⟩
    | some evaluation =>
      match evaluation.pending with
      | none => some ⟨.ofEvaluation (evaluate snapshot input { prepared }), calls, prepared⟩
      | some pending =>
        match snapshot.consultants.get? pending.ref with
        | none => some ⟨.died, calls, prepared⟩
        | some consultant =>
          consultRounds snapshot input fuel
            (prepared.set pending.rowId (consultant pending.toConsultInput)) (calls ++ [pending.toConsultInput])

def evaluateEffect (snapshot : PolicySnapshot) (input : PolicyEvaluationInput) (fuel : ℕ) : Option ConsultRun :=
  if snapshot.consultants.entries = [] then some ⟨.ofEvaluation (evaluate snapshot input {}), [], Dict.empty⟩
  else consultRounds snapshot input fuel Dict.empty []

variable {Context : Type}

def consultantOf (consultants : Dict String Consultant) (entry : CompiledEntry Context) : Option Consultant :=
  if entry.emit = none ∧ entry.row.how.verdict = none then entry.row.how.ref.bind consultants.get? else none

def questionOf (context : FoldContext Context) (entry : CompiledEntry Context) (value : PlainValue) : ConsultInput :=
  ⟨entry.row.id, context.input.point, entry.row.how.params.getD .null, value⟩

def FoldContext.withAnswers (context : FoldContext Context) (prepared : PreparedResults) : FoldContext Context :=
  { context with prepared }

def askedOf (context : FoldContext Context) (consultants : Dict String Consultant) (entry : CompiledEntry Context)
    (value : PlainValue) : PreparedResults × List ConsultInput :=
  match consultantOf consultants entry with
  | none => (Dict.empty, [])
  | some consultant =>
    let question := questionOf context entry value
    (Dict.empty.set entry.row.id (consultant question), [question])

/-- One pass over the rows in which each consulted row is answered when it is reached, with the questions asked. -/
def passEntries (context : FoldContext Context) (consultants : Dict String Consultant) :
    List (CompiledEntry Context) → FoldState → Option FoldState × List ConsultInput
  | [], state => (some state, [])
  | entry :: entries, state =>
    if entryMatches entry context.input then
      let asked := askedOf context consultants entry state.value
      match applyEntry (context.withAnswers asked.1) state entry with
      | none => (none, asked.2)
      | some next =>
        let rest := passEntries context consultants entries next
        (rest.1, asked.2 ++ rest.2)
    else passEntries context consultants entries state

def passPoint (snapshot : CompiledPolicySnapshot Context) (input : PointInput Context) (options : EvaluationOptions) :
    Option GateOutcome × List ConsultInput :=
  match options.recorded.filter (replays snapshot input (options.hashOf input)) with
  | some recorded => (some ⟨recorded, recorded.output, [], true, none⟩, [])
  | none =>
    let pass := passEntries (foldContext snapshot input options) snapshot.consultants (snapshot.entries input.point)
      (initialFoldState input.value)
    (pass.1.map fun state => outcomeOf snapshot input (options.hashOf input) (state, none), pass.2)

def evaluatePass (snapshot : PolicySnapshot) (input : PolicyEvaluationInput) : Exit × List ConsultInput :=
  match evaluationPoint snapshot input with
  | .error reason => (.success (refusedEvaluation snapshot input reason), [])
  | .ok point =>
    let pass := passPoint snapshot (input.pointInput point) (input.options {})
    (.ofEvaluation (pass.1.map (projectOutcome snapshot input)), pass.2)

variable {prepared prepared' : PreparedResults} {above entries : List (CompiledEntry Context)}
  {state middle last : FoldState} {snapshot : CompiledPolicySnapshot Context} {entry : CompiledEntry Context}

omit [PlainCoding] in
lemma observeRow_congr (row : GateRow) (state : FoldState) (handlers : HandlerResolver)
    (when : List (String × PlainValue)) (h : prepared.get? row.id = prepared'.get? row.id) :
    observeRow row state handlers when prepared = observeRow row state handlers when prepared' := by
  unfold observeRow
  rw [h]

lemma applyEntry_congr (context : FoldContext Context) (state : FoldState) (entry : CompiledEntry Context)
    (h : prepared.get? entry.id = prepared'.get? entry.id) :
    applyEntry (context.withAnswers prepared) state entry = applyEntry (context.withAnswers prepared') state entry := by
  change prepared.get? entry.row.id = prepared'.get? entry.row.id at h
  simp only [applyEntry, FoldContext.withAnswers, applyRow, observeRow_congr entry.row _ _ _ h, consultRow, h]

omit [PlainCoding] in
lemma awaited_congr (entry : CompiledEntry Context) (pendingAsync : List String)
    (h : prepared.get? entry.id = prepared'.get? entry.id) :
    awaitedConsultRef entry pendingAsync prepared = awaitedConsultRef entry pendingAsync prepared' := by
  change prepared.get? entry.row.id = prepared'.get? entry.row.id at h
  simp only [awaitedConsultRef, h]

theorem foldlM_congr (context : FoldContext Context) (entries : List (CompiledEntry Context))
    (h : ∀ entry ∈ entries, prepared.get? entry.id = prepared'.get? entry.id) (state : FoldState) :
    entries.foldlM (applyEntry (context.withAnswers prepared)) state =
      entries.foldlM (applyEntry (context.withAnswers prepared')) state := by
  induction entries generalizing state with
  | nil => rfl
  | cons entry entries ih =>
    rw [foldlM_cons, foldlM_cons, applyEntry_congr context state entry (h entry mem_cons_self)]
    congr 1
    funext next
    exact ih (fun other hother => h other (mem_cons_of_mem entry hother)) next

theorem foldEntries_append {context : FoldContext Context} (below : List (CompiledEntry Context))
    (h : foldEntries context above state = some (middle, none)) :
    foldEntries context (above ++ below) state = foldEntries context below middle := by
  induction above generalizing state with
  | nil =>
    obtain ⟨rfl, _⟩ := Prod.mk.inj (Option.some.inj h)
    rfl
  | cons entry above ih =>
    rw [cons_append]
    unfold foldEntries at h
    conv_lhs => unfold foldEntries
    split
    · rename_i hmatch
      rw [if_pos hmatch] at h
      split at h
      · obtain ⟨_, hpending⟩ := Prod.mk.inj (Option.some.inj h)
        cases hpending
      · obtain ⟨next, happly, hrest⟩ := Option.bind_eq_some_iff.mp h
        rw [happly]
        exact ih hrest
    · rename_i hmatch
      rw [if_neg hmatch] at h
      exact ih h

omit [PlainCoding] in
theorem awaited_of_consultant {consultant : Consultant}
    (h : consultantOf snapshot.consultants entry = some consultant) (hnone : prepared.get? entry.id = none) : ∃ ref,
      awaitedConsultRef entry snapshot.pendingAsync prepared = some ref ∧
        snapshot.consultants.get? ref = some consultant := by
  unfold consultantOf at h
  split at h
  · rename_i hconsulted
    obtain ⟨ref, href, hget⟩ := Option.bind_eq_some_iff.mp h
    have hkey : ref ∈ snapshot.pendingAsync := by
      obtain ⟨found, hfound, _⟩ := Option.map_eq_some_iff.mp hget
      have hid : found.1 = ref := by simpa using find?_some hfound
      rw [← hid]
      exact mem_map_of_mem (mem_of_find?_eq_some hfound)
    change prepared.get? entry.row.id = none at hnone
    refine ⟨ref, ?_, hget⟩
    simp [awaitedConsultRef, href, hconsulted, hkey, hnone]
  · cases h

omit [PlainCoding] in
lemma awaited_none (h : consultantOf snapshot.consultants entry = none) (prepared : PreparedResults) :
    awaitedConsultRef entry snapshot.pendingAsync prepared = none := by
  unfold awaitedConsultRef
  split
  · rfl
  · rename_i ref href
    rw [if_neg]
    rintro ⟨hemit, hverdict, hkey, _⟩
    simp only [consultantOf, hemit, hverdict, and_self, if_true, href, Option.bind_some] at h
    obtain ⟨found, hfound, rfl⟩ := mem_map.mp hkey
    have hnone := find?_eq_none.mp (Option.map_eq_none_iff.mp h) found hfound
    simp at hnone

omit [PlainCoding] in
lemma awaited_answered (entry : CompiledEntry Context) (pendingAsync : List String) {answer : GateHandlerResult}
    (h : prepared.get? entry.id = some answer) : awaitedConsultRef entry pendingAsync prepared = none := by
  change prepared.get? entry.row.id = some answer at h
  unfold awaitedConsultRef
  split
  · rfl
  · simp [h]

def consultedEntries (context : FoldContext Context) (consultants : Dict String Consultant)
    (entries : List (CompiledEntry Context)) : List (CompiledEntry Context) :=
  (matchedEntries context entries).filter fun entry => (consultantOf consultants entry).isSome

section Consulted
variable {context : FoldContext Context} {consultants : Dict String Consultant} {entry : CompiledEntry Context}
variable {entries : List (CompiledEntry Context)}

lemma consultedEntries_skip (h : entryMatches entry context.input ≠ true) :
    consultedEntries context consultants (entry :: entries) = consultedEntries context consultants entries := by
  simp [consultedEntries, matchedEntries, h]

lemma consultedEntries_unasked (h : consultantOf consultants entry = none) :
    consultedEntries context consultants (entry :: entries) = consultedEntries context consultants entries := by
  unfold consultedEntries matchedEntries
  rw [filter_cons]
  split
  · rw [filter_cons_of_neg (by simp [h])]
  · rfl

variable {consultant : Consultant}

lemma consultedEntries_asked (hmatch : entryMatches entry context.input = true)
    (h : consultantOf consultants entry = some consultant) : consultedEntries context consultants (entry :: entries) =
      entry :: consultedEntries context consultants entries := by
  simp [consultedEntries, matchedEntries, hmatch, h]

omit [PlainCoding] in
lemma askedOf_unasked (h : consultantOf consultants entry = none) (value : PlainValue) :
    askedOf context consultants entry value = (Dict.empty, []) := by
  simp [askedOf, h]

omit [PlainCoding] in
lemma askedOf_asked (h : consultantOf consultants entry = some consultant) (value : PlainValue) :
    askedOf context consultants entry value =
      (Dict.empty.set entry.id (consultant (questionOf context entry value)), [questionOf context entry value]) := by
  simp [askedOf, h, CompiledEntry.id]

end Consulted

section Pass
variable {context : FoldContext Context} {consultants : Dict String Consultant} {entry : CompiledEntry Context}
variable {entries : List (CompiledEntry Context)} {state : FoldState}

lemma passEntries_skip (h : entryMatches entry context.input ≠ true) :
    passEntries context consultants (entry :: entries) state = passEntries context consultants entries state := by
  rw [passEntries, if_neg h]

lemma passEntries_throw (hmatch : entryMatches entry context.input = true)
    (h : applyEntry (context.withAnswers (askedOf context consultants entry state.value).1) state entry = none) :
    passEntries context consultants (entry :: entries) state =
      (none, (askedOf context consultants entry state.value).2) := by
  rw [passEntries, if_pos hmatch]
  simp only [h]

lemma passEntries_next {next : FoldState} (hmatch : entryMatches entry context.input = true)
    (h : applyEntry (context.withAnswers (askedOf context consultants entry state.value).1) state entry = some next) :
    passEntries context consultants (entry :: entries) state = ((passEntries context consultants entries next).1,
      (askedOf context consultants entry state.value).2 ++ (passEntries context consultants entries next).2) := by
  rw [passEntries, if_pos hmatch]
  simp only [h]

theorem passEntries_cons {last : FoldState} (hmatch : entryMatches entry context.input = true)
    (h : (passEntries context consultants (entry :: entries) state).1 = some last) : ∃ next,
      applyEntry (context.withAnswers (askedOf context consultants entry state.value).1) state entry = some next ∧
        (passEntries context consultants entries next).1 = some last := by
  cases happly : applyEntry (context.withAnswers (askedOf context consultants entry state.value).1) state entry with
  | none =>
    rw [passEntries_throw hmatch happly] at h
    cases h
  | some next =>
    rw [passEntries_next hmatch happly] at h
    exact ⟨next, rfl, h⟩

end Pass

section
variable (context : FoldContext Context) (consultants : Dict String Consultant)
include context consultants

lemma passEntries_append
    (above below : List (CompiledEntry Context)) (h : (passEntries context consultants above state).1 = some middle) :
    passEntries context consultants (above ++ below) state =
      ((passEntries context consultants below middle).1,
        (passEntries context consultants above state).2 ++ (passEntries context consultants below middle).2) := by
  induction above generalizing state with
  | nil =>
    cases h
    rfl
  | cons entry above ih =>
    rw [cons_append]
    by_cases hmatch : entryMatches entry context.input = true
    · obtain ⟨next, happly, hrest⟩ := passEntries_cons hmatch h
      rw [passEntries_next hmatch happly, passEntries_next hmatch happly, ih hrest, append_assoc]
    · rw [passEntries_skip hmatch] at h ⊢
      rw [passEntries_skip hmatch]
      exact ih h

theorem passEntries_above (above below : List (CompiledEntry Context))
    (h : (passEntries context consultants (above ++ below) state).1 = some last) :
    ∃ middle, (passEntries context consultants above state).1 = some middle := by
  induction above generalizing state with
  | nil => exact ⟨state, rfl⟩
  | cons entry above ih =>
    rw [cons_append] at h
    by_cases hmatch : entryMatches entry context.input = true
    · obtain ⟨next, happly, hrest⟩ := passEntries_cons hmatch h
      rw [passEntries_next hmatch happly]
      exact ih hrest
    · rw [passEntries_skip hmatch] at h ⊢
      exact ih h

theorem mem_passEntries {question : ConsultInput} (h : question ∈ (passEntries context consultants entries state).2) :
    question.rowId ∈ entries.map CompiledEntry.id := by
  have hasked : ∀ (entry : CompiledEntry Context) (value : PlainValue),
      question ∈ (askedOf context consultants entry value).2 → question.rowId = entry.id := by
    intro entry value hmem
    unfold askedOf at hmem
    split at hmem
    · cases hmem
    · obtain rfl := mem_singleton.mp hmem
      rfl
  induction entries generalizing state with
  | nil => simp [passEntries] at h
  | cons entry entries ih =>
    rw [map_cons]
    by_cases hmatch : entryMatches entry context.input = true
    · cases happly : applyEntry (context.withAnswers (askedOf context consultants entry state.value).1) state entry with
      | none =>
        rw [passEntries_throw hmatch happly] at h
        rw [hasked entry _ h]
        exact mem_cons_self
      | some next =>
        rw [passEntries_next hmatch happly] at h
        rcases mem_append.mp h with h | h
        · rw [hasked entry _ h]
          exact mem_cons_self
        · exact mem_cons_of_mem _ (ih h)
    · rw [passEntries_skip hmatch] at h
      exact mem_cons_of_mem _ (ih h)

theorem passEntries_calls (h : (passEntries context consultants entries state).1 = some last) :
    (passEntries context consultants entries state).2.map (·.rowId) =
      (consultedEntries context consultants entries).map CompiledEntry.id := by
  induction entries generalizing state with
  | nil => rfl
  | cons entry entries ih =>
    by_cases hmatch : entryMatches entry context.input = true
    · obtain ⟨next, happly, hrest⟩ := passEntries_cons hmatch h
      rw [passEntries_next hmatch happly, map_append, ih hrest]
      cases hconsultant : consultantOf consultants entry with
      | none => simp [consultedEntries_unasked hconsultant, askedOf_unasked hconsultant]
      | some consultant =>
        rw [consultedEntries_asked hmatch hconsultant, askedOf_asked hconsultant]
        rfl
    · rw [passEntries_skip hmatch] at h ⊢
      rw [consultedEntries_skip hmatch]
      exact ih h

theorem passEntries_question
    {below : List (CompiledEntry Context)} (hnodup : ((above ++ entry :: below).map CompiledEntry.id).Nodup)
    (hmatch : entryMatches entry context.input = true) (hconsultant : (consultantOf consultants entry).isSome)
    (h : (passEntries context consultants (above ++ entry :: below) state).1 = some last) : ∃ middle,
      (passEntries context consultants above state).1 = some middle ∧
        (passEntries context consultants (above ++ entry :: below) state).2.filter (·.rowId = entry.id) =
          [questionOf context entry middle.value] := by
  obtain ⟨consultant, hsome⟩ := Option.isSome_iff_exists.mp hconsultant
  rw [map_append, map_cons] at hnodup
  obtain ⟨_, hbelow, hdisjoint⟩ := nodup_append.mp hnodup
  have habsent : ∀ (entries : List (CompiledEntry Context)) (start : FoldState), entry.id ∉ entries.map CompiledEntry.id →
      (passEntries context consultants entries start).2.filter (·.rowId = entry.id) = [] := by
    intro entries start hnot
    rw [filter_eq_nil_iff]
    intro question hquestion hid
    have hmem := mem_passEntries context consultants hquestion
    rw [of_decide_eq_true hid] at hmem
    exact hnot hmem
  obtain ⟨middle, habove⟩ := passEntries_above context consultants above (entry :: below) h
  refine ⟨middle, habove, ?_⟩
  have hnotAbove : entry.id ∉ above.map CompiledEntry.id := by
    intro hmem
    exact hdisjoint _ hmem _ mem_cons_self rfl
  have hasked : (askedOf context consultants entry middle.value).2 = [questionOf context entry middle.value] := by
    rw [askedOf_asked hsome]
  rw [passEntries_append context consultants above (entry :: below) habove] at h ⊢
  obtain ⟨next, happly, _⟩ := passEntries_cons hmatch h
  rw [filter_append, habsent above state hnotAbove, nil_append, passEntries_next hmatch happly, hasked,
    singleton_append, filter_cons_of_pos (by simp [questionOf, CompiledEntry.id]),
    habsent below next (nodup_cons.mp hbelow).1]

end

end Rounds
end OpenOmni
