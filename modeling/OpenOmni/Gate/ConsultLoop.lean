import OpenOmni.Gate.Consult
import OpenOmni.Gate.FailClosed

/-! The asynchronous consult loop refines the single pass. -/
namespace OpenOmni
open List

open PlainValue

section Rounds
variable [PlainCoding] {Context : Type}

def FoldContext.round (context : FoldContext Context) (prepared : PreparedResults) (pendingAsync : List String) :
    FoldContext Context := { context with prepared, pendingAsync }

omit [PlainCoding] in
@[simp] theorem round_input (context : FoldContext Context) (prepared : PreparedResults) (pendingAsync : List String) :
    (context.round prepared pendingAsync).input = context.input := rfl

section Fold
variable {context : FoldContext Context} {prepared : PreparedResults} {pendingAsync : List String}
variable {entries : List (CompiledEntry Context)} {entry : CompiledEntry Context} {state middle next : FoldState}

theorem foldEntries_unawaited (h : foldEntries (context.round prepared pendingAsync) entries state = some (middle, none)) :
    foldEntries (context.round prepared []) entries state = some (middle, none) := by
  obtain ⟨_, hrun⟩ := foldEntries_done_iff.mp h
  refine foldEntries_done_iff.mpr ⟨fun other _ => ?_, hrun⟩
  unfold awaitedConsultRef
  split
  · rfl
  · simp [FoldContext.round]

theorem foldEntries_answer {id : String} (answer : GateHandlerResult) (hid : id ∉ entries.map CompiledEntry.id)
    (h : foldEntries (context.round prepared pendingAsync) entries state = some (middle, none)) :
    foldEntries (context.round (prepared.set id answer) pendingAsync) entries state = some (middle, none) := by
  obtain ⟨hawaited, hrun⟩ := foldEntries_done_iff.mp h
  have hsame : ∀ other ∈ entries, prepared.get? other.id = (prepared.set id answer).get? other.id := by
    intro other hother
    have hne : other.id ≠ id := by
      rintro rfl
      exact hid (mem_map_of_mem hother)
    rw [Dict.get?_set_of_ne prepared answer hne]
  refine foldEntries_done_iff.mpr ⟨fun other hother => ?_, ?_⟩
  · have hbefore := hawaited other hother
    change awaitedConsultRef other pendingAsync prepared = none at hbefore
    change awaitedConsultRef other pendingAsync (prepared.set id answer) = none
    rwa [← awaited_congr other pendingAsync (hsame other (mem_of_mem_filter hother))]
  · have hcongr := foldlM_congr (context.round prepared pendingAsync)
      (matchedEntries (context.round prepared pendingAsync) entries)
      (fun other hother => hsame other (mem_of_mem_filter hother)) state
    change (matchedEntries (context.round prepared pendingAsync) entries).foldlM
      (applyEntry ((context.round prepared pendingAsync).withAnswers prepared)) state = some middle at hrun
    rw [hcongr] at hrun
    exact hrun

lemma foldEntries_skip (h : entryMatches entry context.input ≠ true) :
    foldEntries (context.round prepared pendingAsync) (entry :: entries) state =
      foldEntries (context.round prepared pendingAsync) entries state := by
  rw [foldEntries, round_input, if_neg h]

lemma foldEntries_apply (hmatch : entryMatches entry context.input = true)
    (hawaited : awaitedConsultRef entry pendingAsync prepared = none) :
    foldEntries (context.round prepared pendingAsync) (entry :: entries) state =
      (applyEntry (context.withAnswers prepared) state entry).bind
        (foldEntries (context.round prepared pendingAsync) entries) := by
  have hround : awaitedConsultRef entry (context.round prepared pendingAsync).pendingAsync
    (context.round prepared pendingAsync).prepared = none := hawaited
  rw [foldEntries, round_input, if_pos hmatch, hround]
  rfl

lemma foldEntries_await {ref : String} (hmatch : entryMatches entry context.input = true)
    (hawaited : awaitedConsultRef entry pendingAsync prepared = some ref) :
    foldEntries (context.round prepared pendingAsync) (entry :: entries) state =
      some (state, some ⟨questionOf context entry state.value, ref⟩) := by
  have hround : awaitedConsultRef entry (context.round prepared pendingAsync).pendingAsync
    (context.round prepared pendingAsync).prepared = some ref := hawaited
  rw [foldEntries, round_input, if_pos hmatch, hround]
  rfl

theorem foldEntries_snoc (habove : foldEntries context entries state = some (middle, none))
    (hentry : foldEntries context [entry] middle = some (next, none)) :
    foldEntries context (entries ++ [entry]) state = some (next, none) := by
  rw [foldEntries_append [entry] habove, hentry]

end Fold

section Simulation
variable {snapshot : PolicySnapshot} {input : PolicyEvaluationInput} {point : PointId}

section Round
variable {prepared : PreparedResults} {calls : List ConsultInput} {evaluation : PolicyEvaluation}

lemma consultRounds_died (fuel : ℕ)
    (h : evaluate snapshot input { prepared, pendingAsync := snapshot.pendingAsync } = none) :
    consultRounds snapshot input (fuel + 1) prepared calls = some ⟨.died, calls, prepared⟩ := by
  rw [consultRounds, h]

lemma consultRounds_done (fuel : ℕ)
    (h : evaluate snapshot input { prepared, pendingAsync := snapshot.pendingAsync } = some evaluation)
    (hdone : evaluation.pending = none) : consultRounds snapshot input (fuel + 1) prepared calls =
      some ⟨.ofEvaluation (evaluate snapshot input { prepared }), calls, prepared⟩ := by
  rw [consultRounds, h]
  simp only [hdone]

lemma consultRounds_ask {pending : PendingConsult} {consultant : Consultant} (fuel : ℕ)
    (h : evaluate snapshot input { prepared, pendingAsync := snapshot.pendingAsync } = some evaluation)
    (hpending : evaluation.pending = some pending)
    (hconsultant : snapshot.consultants.get? pending.ref = some consultant) :
    consultRounds snapshot input (fuel + 1) prepared calls = consultRounds snapshot input fuel
      (prepared.set pending.rowId (consultant pending.toConsultInput)) (calls ++ [pending.toConsultInput]) := by
  rw [consultRounds, h]
  simp only [hpending, hconsultant]

end Round

def baseContext (snapshot : PolicySnapshot) (input : PolicyEvaluationInput) (point : PointId) :
    FoldContext MessagePolicyContext := foldContext snapshot (input.pointInput point) (input.options {})

def roundOutcome (snapshot : PolicySnapshot) (input : PolicyEvaluationInput) (point : PointId)
    (folded : FoldState × Option PendingConsult) : GateOutcome :=
  outcomeOf snapshot (input.pointInput point) input.hash folded

/-- The evaluation folds the rows of its point: it is not refused, and it replays nothing. -/
structure Folds (snapshot : PolicySnapshot) (input : PolicyEvaluationInput) (point : PointId) : Prop where
  admitted : evaluationPoint snapshot input = .ok point
  fresh : input.recorded.filter (replays snapshot (input.pointInput point) input.hash) = none

lemma Folds.outcome (h : Folds snapshot input point) (prepared : PreparedResults) (pendingAsync : List String) :
    decidePoint snapshot (input.pointInput point) (input.options { prepared, pendingAsync }) =
      (foldEntries ((baseContext snapshot input point).round prepared pendingAsync) (snapshot.entries point)
        (initialFoldState input.value)).map (roundOutcome snapshot input point) := by
  rw [decidePoint, options_filter rfl h.fresh]
  rfl

lemma Folds.evaluation (h : Folds snapshot input point) (prepared : PreparedResults) (pendingAsync : List String) :
    evaluate snapshot input { prepared, pendingAsync } =
      ((foldEntries ((baseContext snapshot input point).round prepared pendingAsync) (snapshot.entries point)
        (initialFoldState input.value)).map (roundOutcome snapshot input point)).map (projectOutcome snapshot input) := by
  have hdecide := h.outcome prepared pendingAsync
  unfold evaluate
  rw [h.admitted]
  simp only []
  rw [hdecide]

/-- How far the rounds have come: the rows above are folded with the answers at hand. -/
structure Gathered (snapshot : PolicySnapshot) (input : PolicyEvaluationInput) (point : PointId)
    (above below : List (CompiledEntry MessagePolicyContext)) (prepared : PreparedResults) (middle : FoldState) : Prop where
  entries : snapshot.entries point = above ++ below
  folded : foldEntries ((baseContext snapshot input point).round prepared snapshot.pendingAsync) above
    (initialFoldState input.value) = some (middle, none)

/-- What the rounds end in: the exit of the pass over the rows below, its questions, and answers under which one fold
gives the pass's outcome. -/
def EndsAs (snapshot : PolicySnapshot) (input : PolicyEvaluationInput) (point : PointId) (run : Option ConsultRun)
    (calls : List ConsultInput) (pass : Option FoldState × List ConsultInput) : Prop :=
  ∃ gathered, run = some ⟨.ofEvaluation ((pass.1.map fun state =>
      roundOutcome snapshot input point (state, none)).map (projectOutcome snapshot input)), calls ++ pass.2, gathered⟩ ∧
    decidePoint snapshot (input.pointInput point) (input.options { prepared := gathered }) =
      pass.1.map fun state => roundOutcome snapshot input point (state, none)

section Step
variable {above below : List (CompiledEntry MessagePolicyContext)} {entry : CompiledEntry MessagePolicyContext}
variable {prepared : PreparedResults} {middle next : FoldState}

section
variable (h : Folds snapshot input point) (hg : Gathered snapshot input point above below prepared middle)
include h hg

lemma Gathered.outcome : decidePoint snapshot (input.pointInput point) (input.options { prepared }) =
      (foldEntries ((baseContext snapshot input point).round prepared []) below middle).map
        (roundOutcome snapshot input point) := by
  rw [h.outcome, hg.entries, foldEntries_append below (foldEntries_unawaited hg.folded)]

lemma Gathered.evaluation : evaluate snapshot input { prepared, pendingAsync := snapshot.pendingAsync } =
      ((foldEntries ((baseContext snapshot input point).round prepared snapshot.pendingAsync) below middle).map
        (roundOutcome snapshot input point)).map (projectOutcome snapshot input) := by
  rw [h.evaluation, hg.entries, foldEntries_append below hg.folded]

end

lemma Gathered.advance (hg : Gathered snapshot input point above (entry :: below) prepared middle)
    (hentry : foldEntries ((baseContext snapshot input point).round prepared snapshot.pendingAsync) [entry] middle =
      some (next, none)) : Gathered snapshot input point (above ++ [entry]) below prepared next where
  entries := by rw [hg.entries, append_assoc, singleton_append]
  folded := foldEntries_snoc hg.folded hentry

lemma Gathered.nodup (hg : Gathered snapshot input point above below prepared middle) :
    ((above ++ below).map CompiledEntry.id).Nodup := by
  rw [← hg.entries]
  exact snapshot.ids_nodup point

theorem Gathered.distinct (hg : Gathered snapshot input point above (entry :: below) prepared middle) :
    ∀ other ∈ below, other.id ≠ entry.id := by
  have hnodup := hg.nodup
  rw [map_append, map_cons] at hnodup
  intro other hother heq
  have hnot := (nodup_cons.mp (nodup_append.mp hnodup).2.1).1
  rw [← heq] at hnot
  exact hnot (mem_map_of_mem hother)

theorem Gathered.answer (hg : Gathered snapshot input point above (entry :: below) prepared middle)
    (answer : GateHandlerResult) : Gathered snapshot input point above (entry :: below) (prepared.set entry.id answer) middle where
  entries := hg.entries
  folded := by
    have hnodup := hg.nodup
    rw [map_append, map_cons] at hnodup
    have hnot : entry.id ∉ above.map CompiledEntry.id := by
      intro hmem
      exact (nodup_append.mp hnodup).2.2 _ hmem _ mem_cons_self rfl
    exact foldEntries_answer answer hnot hg.folded

theorem Gathered.finish (h : Folds snapshot input point) (hg : Gathered snapshot input point above [] prepared middle)
    (calls : List ConsultInput) (fuel : ℕ) : EndsAs snapshot input point (consultRounds snapshot input (fuel + 1) prepared calls) calls
      (some middle, []) := by
  have hlast : evaluate snapshot input { prepared } =
      some (projectOutcome snapshot input (roundOutcome snapshot input point (middle, none))) := by
    rw [h.evaluation, hg.entries, foldEntries_append [] (foldEntries_unawaited hg.folded)]
    rfl
  have hround := hg.evaluation h
  rw [foldEntries] at hround
  refine ⟨prepared, ?_, ?_⟩
  · rw [consultRounds_done fuel hround rfl, hlast, append_nil]
    rfl
  · rw [hg.outcome h, foldEntries]
    rfl

theorem Gathered.throw (h : Folds snapshot input point)
    (hg : Gathered snapshot input point above (entry :: below) prepared middle)
    (hmatch : entryMatches entry (baseContext snapshot input point).input = true)
    (hawaited : awaitedConsultRef entry snapshot.pendingAsync prepared = none)
    (hthrow : applyEntry ((baseContext snapshot input point).withAnswers prepared) middle entry = none)
    (calls : List ConsultInput) (fuel : ℕ) :
    EndsAs snapshot input point (consultRounds snapshot input (fuel + 1) prepared calls) calls (none, []) := by
  have hnone : ∀ pendingAsync, awaitedConsultRef entry pendingAsync prepared = none →
      foldEntries ((baseContext snapshot input point).round prepared pendingAsync) (entry :: below) middle = none := by
    intro pendingAsync hpending
    rw [foldEntries_apply hmatch hpending, hthrow, Option.bind_none]
  have hempty : awaitedConsultRef entry [] prepared = none := by
    unfold awaitedConsultRef
    split
    · rfl
    · simp
  refine ⟨prepared, ?_, ?_⟩
  · have hround := hg.evaluation h
    rw [hnone _ hawaited] at hround
    rw [consultRounds_died fuel hround, append_nil]
    rfl
  · rw [hg.outcome h, hnone _ hempty]
    rfl

lemma EndsAs.shift {run : Option ConsultRun} {calls : List ConsultInput} {last : Option FoldState} {asked rest : List ConsultInput}
    (h : EndsAs snapshot input point run (calls ++ asked) (last, rest)) :
    EndsAs snapshot input point run calls (last, asked ++ rest) := by
  obtain ⟨gathered, hrun, hfinal⟩ := h
  refine ⟨gathered, ?_, hfinal⟩
  rw [hrun, append_assoc]

theorem Gathered.step (h : Folds snapshot input point)
    (hg : Gathered snapshot input point above (entry :: below) prepared middle)
    (hmatch : entryMatches entry (baseContext snapshot input point).input = true)
    (hawaited : awaitedConsultRef entry snapshot.pendingAsync prepared = none)
    (hsame : prepared.get? entry.id =
      (askedOf (baseContext snapshot input point) snapshot.consultants entry middle.value).1.get? entry.id)
    (calls : List ConsultInput) (fuel : ℕ)
    (hrest : ∀ next calls, Gathered snapshot input point (above ++ [entry]) below prepared next →
      EndsAs snapshot input point (consultRounds snapshot input (fuel + 1) prepared calls) calls
        (passEntries (baseContext snapshot input point) snapshot.consultants below next)) :
    EndsAs snapshot input point (consultRounds snapshot input (fuel + 1) prepared
      (calls ++ (askedOf (baseContext snapshot input point) snapshot.consultants entry middle.value).2)) calls
        (passEntries (baseContext snapshot input point) snapshot.consultants (entry :: below) middle) := by
  have hcongr := applyEntry_congr (baseContext snapshot input point) middle entry hsame
  cases happly : applyEntry ((baseContext snapshot input point).withAnswers
      (askedOf (baseContext snapshot input point) snapshot.consultants entry middle.value).1) middle entry with
  | none =>
    rw [passEntries_throw hmatch happly]
    have hthrow := hg.throw h hmatch hawaited (hcongr.trans happly)
      (calls ++ (askedOf (baseContext snapshot input point) snapshot.consultants entry middle.value).2) fuel
    have hshift := EndsAs.shift hthrow
    rwa [append_nil] at hshift
  | some next =>
    have hnext : foldEntries ((baseContext snapshot input point).round prepared snapshot.pendingAsync) [entry] middle =
        some (next, none) := by
      rw [foldEntries_apply hmatch hawaited, hcongr, happly, Option.bind_some, foldEntries]
    rw [passEntries_next hmatch happly]
    exact (hrest next _ (hg.advance hnext)).shift

end Step

theorem consultRounds_pass (h : Folds snapshot input point) (below : List (CompiledEntry MessagePolicyContext))
    {above : List (CompiledEntry MessagePolicyContext)} {prepared : PreparedResults} {middle : FoldState}
    {fuel : ℕ} (calls : List ConsultInput) (hg : Gathered snapshot input point above below prepared middle)
    (hfresh : ∀ entry ∈ below, prepared.get? entry.id = none)
    (hfuel : (consultedEntries (baseContext snapshot input point) snapshot.consultants below).length < fuel) :
    EndsAs snapshot input point (consultRounds snapshot input fuel prepared calls) calls
      (passEntries (baseContext snapshot input point) snapshot.consultants below middle) := by
  induction below generalizing above prepared middle calls fuel with
  | nil =>
    obtain ⟨fuel, rfl⟩ := Nat.exists_eq_add_one_of_ne_zero (Nat.ne_zero_of_lt hfuel)
    exact hg.finish h calls fuel
  | cons entry below ih =>
    obtain ⟨fuel, rfl⟩ := Nat.exists_eq_add_one_of_ne_zero (Nat.ne_zero_of_lt hfuel)
    have hentry := hfresh entry mem_cons_self
    have hbelow : ∀ other ∈ below, prepared.get? other.id = none := fun other hother =>
      hfresh other (mem_cons_of_mem entry hother)
    by_cases hmatch : entryMatches entry (baseContext snapshot input point).input = true
    · cases hconsultant : consultantOf snapshot.consultants entry with
      | none =>
        rw [consultedEntries_unasked hconsultant] at hfuel
        have hasked : askedOf (baseContext snapshot input point) snapshot.consultants entry middle.value = (Dict.empty, []) :=
          askedOf_unasked hconsultant middle.value
        have hunanswered : prepared.get? entry.id =
            (askedOf (baseContext snapshot input point) snapshot.consultants entry middle.value).1.get? entry.id := by
          rw [hasked, hentry, Dict.get?_empty]
        have hstep := hg.step h hmatch (awaited_none hconsultant prepared) hunanswered calls fuel
          fun next calls hnext => ih calls hnext hbelow hfuel
        rwa [hasked, append_nil] at hstep
      | some consultant =>
        obtain ⟨ref, hawaited, hregistered⟩ := awaited_of_consultant hconsultant hentry
        rw [consultedEntries_asked hmatch hconsultant, length_cons] at hfuel
        have hround := hg.evaluation h
        rw [foldEntries_await hmatch hawaited] at hround
        -- The round asks, and the next one starts over with the answer at hand.
        rw [consultRounds_ask fuel hround rfl hregistered]
        obtain ⟨fuel, rfl⟩ := Nat.exists_eq_add_one_of_ne_zero (show fuel ≠ 0 by omega)
        have hasked : askedOf (baseContext snapshot input point) snapshot.consultants entry middle.value = (_, _) :=
          askedOf_asked hconsultant middle.value
        have hself := Dict.get?_set_self prepared entry.id
          (consultant (questionOf (baseContext snapshot input point) entry middle.value))
        have hanswered : (prepared.set entry.id
            (consultant (questionOf (baseContext snapshot input point) entry middle.value))).get? entry.id =
              (askedOf (baseContext snapshot input point) snapshot.consultants entry middle.value).1.get? entry.id := by
          rw [hasked, hself, Dict.get?_set_self]
        have hstill : ∀ other ∈ below, (prepared.set entry.id
            (consultant (questionOf (baseContext snapshot input point) entry middle.value))).get? other.id = none := by
          intro other hother
          rw [Dict.get?_set_of_ne prepared _ (hg.distinct other hother)]
          exact hbelow other hother
        have hstep := (hg.answer _).step h hmatch (awaited_answered entry snapshot.pendingAsync hself) hanswered calls fuel
          fun next calls hnext => ih calls hnext hstill (by omega)
        rwa [hasked] at hstep
    · rw [consultedEntries_skip hmatch] at hfuel
      have hskip : foldEntries ((baseContext snapshot input point).round prepared snapshot.pendingAsync) [entry] middle =
          some (middle, none) := by
        rw [foldEntries_skip hmatch, foldEntries]
      rw [passEntries_skip hmatch]
      exact ih calls (hg.advance hskip) hbelow hfuel

omit [PlainCoding] in
lemma awaited_nil (entry : CompiledEntry Context) (prepared : PreparedResults) :
    awaitedConsultRef entry [] prepared = none := by
  unfold awaitedConsultRef
  split
  · rfl
  · simp

lemma foldEntries_pending_nil {context : FoldContext Context} (hnil : context.pendingAsync = [])
    {entries : List (CompiledEntry Context)} {state : FoldState} {folded : FoldState × Option PendingConsult}
    (h : foldEntries context entries state = some folded) : folded.2 = none := by
  induction entries generalizing state with
  | nil =>
    cases h
    rfl
  | cons entry entries ih =>
    rw [foldEntries, hnil, awaited_nil] at h
    split at h
    · obtain ⟨next, _, hrest⟩ := Option.bind_eq_some_iff.mp h
      exact ih hrest
    · exact ih h

/-- The evaluation does not fold: whatever the answers, it is refused or replayed at once. -/
def Settles (snapshot : PolicySnapshot) (input : PolicyEvaluationInput) (evaluation : PolicyEvaluation) : Prop :=
  ∀ prepared pendingAsync, evaluate snapshot input { prepared, pendingAsync } = some evaluation ∧ evaluation.pending = none

lemma settles_refused {reason : String} (h : evaluationPoint snapshot input = .error reason) :
    Settles snapshot input (refusedEvaluation snapshot input reason) := by
  intro prepared pendingAsync
  unfold evaluate
  rw [h]
  exact ⟨rfl, rfl⟩

def replayedOutcome (recorded : GateDecision) : GateOutcome := ⟨recorded, recorded.output, [], true, none⟩

lemma decidePoint_replays {recorded : GateDecision}
    (h : input.recorded.filter (replays snapshot (input.pointInput point) input.hash) = some recorded)
    (prepared : PreparedResults) (pendingAsync : List String) :
    decidePoint snapshot (input.pointInput point) (input.options { prepared, pendingAsync }) =
      some (replayedOutcome recorded) := by
  rw [decidePoint, options_filter rfl h]
  rfl

lemma settles_replayed {recorded : GateDecision} (hpoint : evaluationPoint snapshot input = .ok point)
    (h : input.recorded.filter (replays snapshot (input.pointInput point) input.hash) = some recorded) :
    Settles snapshot input (projectOutcome snapshot input (replayedOutcome recorded)) := by
  intro prepared pendingAsync
  have hdecide := decidePoint_replays h prepared pendingAsync
  unfold evaluate
  rw [hpoint]
  simp only []
  rw [hdecide]
  exact ⟨rfl, rfl⟩

lemma Settles.rounds {evaluation : PolicyEvaluation} (h : Settles snapshot input evaluation) (fuel : ℕ) :
    consultRounds snapshot input (fuel + 1) Dict.empty [] = some ⟨.success evaluation, [], Dict.empty⟩ := by
  obtain ⟨hround, hdone⟩ := h Dict.empty snapshot.pendingAsync
  obtain ⟨hlast, _⟩ := h Dict.empty []
  rw [consultRounds_done fuel hround hdone, hlast]
  rfl

theorem evaluateEffect_eq_rounds (snapshot : PolicySnapshot) (input : PolicyEvaluationInput) (fuel : ℕ) :
    evaluateEffect snapshot input (fuel + 1) = consultRounds snapshot input (fuel + 1) Dict.empty [] := by
  unfold evaluateEffect
  split
  · rename_i hnone
    have hpending : snapshot.pendingAsync = [] := by simp [CompiledPolicySnapshot.pendingAsync, hnone]
    cases heval : evaluate snapshot input { prepared := Dict.empty, pendingAsync := snapshot.pendingAsync } with
    | none =>
      rw [consultRounds_died fuel heval]
      rw [hpending] at heval
      rw [heval]
      rfl
    | some evaluation =>
      have hdone : evaluation.pending = none := by
        rw [hpending] at heval
        unfold evaluate at heval
        split at heval
        · cases heval
          rfl
        · obtain ⟨outcome, hdecide, rfl⟩ := Option.map_eq_some_iff.mp heval
          unfold decidePoint at hdecide
          split at hdecide
          · cases hdecide
            rfl
          · obtain ⟨folded, hfold, rfl⟩ := Option.map_eq_some_iff.mp hdecide
            exact foldEntries_pending_nil rfl hfold
      rw [consultRounds_done fuel heval hdone]
  · rfl

end Simulation

def consultedRows (snapshot : PolicySnapshot) (input : PolicyEvaluationInput) : List (CompiledEntry MessagePolicyContext) :=
  match evaluationPoint snapshot input with
  | .error _ => []
  | .ok point => consultedEntries (baseContext snapshot input point) snapshot.consultants (snapshot.entries point)

/-- Each matched consulted row is asked about once, on the value that the pass over the rows before it leaves. -/
def AsksOnce (snapshot : PolicySnapshot) (input : PolicyEvaluationInput) (point : PointId) (calls : List ConsultInput) :
    Prop :=
  calls.map (·.rowId) = (consultedRows snapshot input).map CompiledEntry.id ∧ (calls.map (·.rowId)).Nodup ∧
    ∀ above entry below, snapshot.entries point = above ++ entry :: below →
      entryMatches entry (input.pointInput point) = true → (consultantOf snapshot.consultants entry).isSome →
        ∃ middle, (passEntries (baseContext snapshot input point) snapshot.consultants above
            (initialFoldState input.value)).1 = some middle ∧
          calls.filter (·.rowId = entry.id) = [questionOf (baseContext snapshot input point) entry middle.value]

lemma asksOnce_pass {snapshot : PolicySnapshot} {input : PolicyEvaluationInput} {point : PointId} {last : FoldState}
    (hpoint : evaluationPoint snapshot input = .ok point)
    (h : (passEntries (baseContext snapshot input point) snapshot.consultants (snapshot.entries point)
      (initialFoldState input.value)).1 = some last) :
    AsksOnce snapshot input point (passEntries (baseContext snapshot input point) snapshot.consultants
      (snapshot.entries point) (initialFoldState input.value)).2 := by
  have hcalls := passEntries_calls _ _ h
  have hnodup := snapshot.ids_nodup point
  have hrows : consultedRows snapshot input =
      consultedEntries (baseContext snapshot input point) snapshot.consultants (snapshot.entries point) := by
    unfold consultedRows
    rw [hpoint]
  refine ⟨by rw [hcalls, hrows], ?_, ?_⟩
  · rw [hcalls]
    have hsub : (consultedEntries (baseContext snapshot input point) snapshot.consultants (snapshot.entries point)).Sublist
        (snapshot.entries point) := List.Sublist.trans filter_sublist filter_sublist
    exact List.Nodup.sublist (hsub.map CompiledEntry.id) hnodup
  · intro above entry below hentries hmatch hconsultant
    change ((snapshot.entries point).map CompiledEntry.id).Nodup at hnodup
    rw [hentries] at hnodup h ⊢
    exact passEntries_question _ _ hnodup hmatch hconsultant h

/-- The asynchronous evaluation, given one round more than there are matched consulted rows, ends as the single pass
does: with its exit, its questions, and answers that give its outcome, emissions included. -/
theorem consult_loop_refines (snapshot : PolicySnapshot) (input : PolicyEvaluationInput) (fuel : ℕ)
    (hfuel : (consultedRows snapshot input).length < fuel) :
    ∃ run, evaluateEffect snapshot input fuel = some run ∧ (run.exit, run.calls) = evaluatePass snapshot input ∧
      ∀ point, evaluationPoint snapshot input = .ok point →
        decidePoint snapshot (input.pointInput point) (input.options { prepared := run.prepared }) =
            (passPoint snapshot (input.pointInput point) (input.options {})).1 ∧
          ∀ outcome, (passPoint snapshot (input.pointInput point) (input.options {})).1 = some outcome →
            outcome.replayed = false → AsksOnce snapshot input point run.calls := by
  obtain ⟨fuel, rfl⟩ := Nat.exists_eq_add_one_of_ne_zero (Nat.ne_zero_of_lt hfuel)
  rw [evaluateEffect_eq_rounds]
  cases hpoint : evaluationPoint snapshot input with
  | error reason =>
    refine ⟨_, (settles_refused hpoint).rounds fuel, ?_, ?_⟩
    · simp [evaluatePass, hpoint]
    · intro point h
      cases h
  | ok point =>
    cases hreplay : input.recorded.filter (replays snapshot (input.pointInput point) input.hash) with
    | some recorded =>
      have hpass : passPoint snapshot (input.pointInput point) (input.options {}) =
          (some (replayedOutcome recorded), []) := by
        rw [passPoint, options_filter rfl hreplay]
        rfl
      refine ⟨_, (settles_replayed hpoint hreplay).rounds fuel, ?_, ?_⟩
      · unfold evaluatePass
        rw [hpoint]
        simp only []
        rw [hpass]
        rfl
      · intro point' hsame
        cases hsame
        rw [hpass]
        refine ⟨decidePoint_replays hreplay _ _, fun outcome houtcome hfolded => ?_⟩
        cases houtcome
        cases hfolded
    | none =>
      have hfolds : Folds snapshot input point := ⟨hpoint, hreplay⟩
      have hpass : passPoint snapshot (input.pointInput point) (input.options {}) =
          ((passEntries (baseContext snapshot input point) snapshot.consultants (snapshot.entries point)
              (initialFoldState input.value)).1.map (fun state => roundOutcome snapshot input point (state, none)),
            (passEntries (baseContext snapshot input point) snapshot.consultants (snapshot.entries point)
              (initialFoldState input.value)).2) := by
        rw [passPoint, options_filter rfl hreplay]
        rfl
      have hstart : Gathered snapshot input point [] (snapshot.entries point) Dict.empty (initialFoldState input.value) :=
        ⟨rfl, rfl⟩
      have hconsults : (consultedEntries (baseContext snapshot input point) snapshot.consultants
          (snapshot.entries point)).length < fuel + 1 := by
        unfold consultedRows at hfuel
        rw [hpoint] at hfuel
        exact hfuel
      obtain ⟨gathered, hrun, hfinal⟩ := consultRounds_pass hfolds (snapshot.entries point) [] hstart
        (fun entry _ => Dict.get?_empty entry.id) hconsults
      rw [nil_append] at hrun
      refine ⟨_, hrun, ?_, ?_⟩
      · unfold evaluatePass
        rw [hpoint]
        simp only []
        rw [hpass]
      · intro point' hsame
        cases hsame
        rw [hpass]
        refine ⟨hfinal, fun outcome houtcome _ => ?_⟩
        obtain ⟨last, hlast, _⟩ := Option.map_eq_some_iff.mp houtcome
        exact asksOnce_pass hpoint hlast

end Rounds

namespace GateSample

attribute [local instance] textCoding

def storedRow (name : String) (priority : ℤ) (verdict : RowVerdict) : CompiledRow where
  name := name
  kind := "tool"
  phase := .pre
  priority := priority
  «match» := {}
  verdict := verdict

def storedEntry (id : String) («do» : PointDo) (how : GateHow) (row : CompiledRow) :
    CompiledEntry MessagePolicyContext where
  row := ⟨id, .toolPre, [], «do», how, 0, 1⟩
  emit := none
  matcher := none
  policy := some row

/-- A consultant that masks the command, and one that denies the command it would otherwise see. -/
def consulted : PolicySnapshot :=
  { atPoint .toolPre
      [storedEntry "mask/tool.pre#0" .rewrite { ref := some "hook/mask", fields := some ["command"] }
          (storedRow "mask" 2 (.consult "hook/mask" none false true)),
        storedEntry "guard/tool.pre#1" .gate { ref := some "hook/guard" }
          (storedRow "guard" 1 (.consult "hook/guard" none false false))]
      []
      [("hook/mask", fun _ =>
          { value := some (record [("command", some (.str "ls"))]), payload := some (.str "masked") }),
        ("hook/guard", fun question =>
          { verdict := some (if question.value.get? "command" = some (.str "rm") then .deny else .allow)
            payload := some (.str "seen") })] (by decide) with
    pointTable := Dict.empty.set .toolPre ⟨.toolPre, [.gate, .rewrite], ["input"], [], false, true⟩ }

def operation : PolicyEvaluationInput where
  kind := "tool"
  phase := .pre
  value := record [("command", some (.str "rm"))]

theorem consult_loop_refines_two : ∃ run, evaluateEffect consulted operation 3 = some run ∧
    (run.exit, run.calls) = evaluatePass consulted operation := by
  have hfuel : (consultedRows consulted operation).length < 3 := by
    decide
  obtain ⟨run, hrun, hpass, _⟩ := consult_loop_refines consulted operation 3 hfuel
  exact ⟨run, hrun, hpass⟩

end GateSample
end OpenOmni
