import OpenOmni.Compaction.SpeculateRun

/-! What holds across any interleaving of a session with its preparations. -/
namespace OpenOmni
namespace Compaction
open List

open Message Transition

def SessionLabel.fiber : SessionLabel → Option ℕ
  | .enter i | .succeed i _ | .fail i | .interrupt i | .finalize i => some i
  | _ => none

def SessionLabel.Aborts (l : SessionLabel) : Prop := l = .abort ∨ l = .disable

/-- Preparation `i` belongs to the generation of `s`. -/
def isCurrent (s : CompactionSession) (i : ℕ) : Bool :=
  (s.preparations[i]?).any fun p => p.generation = s.generation

/-- The failures since the last success, of preparations that were not aborted. -/
def failuresInRow (trace : List (CompactionSession × SessionLabel)) : ℕ :=
  trace.foldl (fun n e =>
    match e.2 with
    | .succeed i _ => if isCurrent e.1 i then 0 else n
    | .fail i => if isCurrent e.1 i then n + 1 else n
    | _ => n) 0

/-- Preparations are only added, and keep their generation; that of the session only grows. -/
structure Grown (s s' : CompactionSession) : Prop where
  generation : s.generation ≤ s'.generation
  kept : ∀ (i : ℕ) (p : Preparation), s.preparations[i]? = some p →
    ∃ q, s'.preparations[i]? = some q ∧ q.generation = p.generation

lemma Grown.trans {a b c : CompactionSession} (h : Grown a b) (h' : Grown b c) : Grown a c := by
  refine ⟨h.generation.trans h'.generation, fun i p hp => ?_⟩
  obtain ⟨q, hq, hqp⟩ := h.kept i p hp
  obtain ⟨r, hr, hrq⟩ := h'.kept i q hq
  exact ⟨r, hr, hrq.trans hqp⟩

namespace CompactionSession

variable {s s' t : CompactionSession} {i : ℕ} {p : Preparation} {l : SessionLabel}
  {trace : List (CompactionSession × SessionLabel)}

lemma grown_of_eq (hgen : s.generation ≤ s'.generation) (hpreps : s'.preparations = s.preparations) : Grown s s' :=
  ⟨hgen, fun i p hp => ⟨p, by rwa [hpreps], rfl⟩⟩

lemma grown_moveTo (hgen : t.generation = s.generation) (hpreps : t.preparations = s.preparations) (i : ℕ)
    (stage : Stage) : Grown s (t.moveTo i stage) := by
  refine ⟨le_of_eq hgen.symm, fun j p hp => ?_⟩
  refine ⟨if i = j then { p with stage } else p, ?_, by split_ifs <;> rfl⟩
  rw [getElem?_moveTo, hpreps, hp]
  rfl

lemma onSuccess_fields (s : CompactionSession) (p : Preparation) (summary : String) :
    (s.onSuccess p summary).generation = s.generation ∧ (s.onSuccess p summary).preparations = s.preparations := by
  rw [onSuccess]
  split_ifs <;> exact ⟨rfl, rfl⟩

lemma onFailure_fields (s : CompactionSession) (p : Preparation) :
    (s.onFailure p).generation = s.generation ∧ (s.onFailure p).preparations = s.preparations := by
  rw [onFailure]
  split_ifs <;> exact ⟨rfl, rfl⟩

lemma ensuring_fields (s : CompactionSession) (p : Preparation) :
    (s.ensuring p).generation = s.generation ∧ (s.ensuring p).preparations = s.preparations := by
  rw [ensuring]
  split_ifs <;> exact ⟨rfl, rfl⟩

variable {c : CompactionCandidate} {protect : ℤ} {before after : List (CompactionSession × SessionLabel)}

lemma candidateOf_spec {summary : String} (h : candidateOf p summary = some c) :
    c.prefixIds = p.plan.prefixIds ∧ c.prefixFingerprint = p.plan.prefixFingerprint ∧
      c.compactionAnchorId = latestCompactionAnchorId p.messages ∧ c.anchorBody = summary := by
  unfold candidateOf at h
  split_ifs at h
  cases h
  exact ⟨rfl, rfl, rfl, rfl⟩

variable [PlainCoding]

lemma grown_prepare (s : CompactionSession) (messages : List WithParts) (contextTokens prepareTokens window : ℚ) :
    Grown s (s.prepare messages contextTokens prepareTokens window) := by
  obtain ⟨hpreps, hgen, -, -, -⟩ := dropStale_fields (s := s) messages
  rcases prepare_cases (s := s) messages contextTokens prepareTokens window with (hs | hs) | ⟨p, -, -, -, hs⟩
  · rw [hs]
    exact grown_of_eq le_rfl rfl
  · rw [hs]
    exact grown_of_eq (le_of_eq hgen.symm) hpreps
  · rw [hs]
    refine ⟨le_of_eq hgen.symm, fun j q hq => ⟨q, ?_, rfl⟩⟩
    have hlt := (List.getElem?_eq_some_iff.mp hq).1
    change ((s.dropStale messages).preparations ++ [p])[j]? = some q
    rwa [hpreps, getElem?_append_left hlt]

lemma grown_step (h : s.step l = some s') : Grown s s' := by
  rcases step_cases h with ⟨messages, contextTokens, prepareTokens, window, -, rfl⟩ | ⟨-, rfl⟩ | ⟨-, rfl⟩ |
    ⟨-, rfl⟩ | ⟨-, rfl⟩ | ⟨i, p, -, hturn⟩
  · exact grown_prepare s messages contextTokens prepareTokens window
  · exact grown_of_eq le_rfl rfl
  · exact grown_of_eq (Nat.le_succ _) rfl
  · exact grown_of_eq (Nat.le_succ _) rfl
  · exact grown_of_eq le_rfl rfl
  · rcases hturn with ⟨-, -, rfl⟩ | ⟨summary, -, -, rfl⟩ | ⟨-, -, rfl⟩ | ⟨-, -, stage, -, rfl⟩ | ⟨-, -, rfl⟩
    · exact grown_moveTo rfl rfl i _
    · exact grown_moveTo (onSuccess_fields s p summary).1 (onSuccess_fields s p summary).2 i _
    · exact grown_moveTo (onFailure_fields s p).1 (onFailure_fields s p).2 i _
    · exact grown_moveTo rfl rfl i _
    · exact grown_moveTo (ensuring_fields s p).1 (ensuring_fields s p).2 i _

lemma stale_turn (h : s.step l = some s') (hl : l.fiber = some i)
    (hstale : ∀ p, s.preparations[i]? = some p → p.generation ≠ s.generation) :
    s'.candidate = s.candidate ∧ s'.failureStreak = s.failureStreak ∧ s'.inFlight = s.inFlight := by
  rcases step_cases h with ⟨messages, contextTokens, prepareTokens, window, rfl, -⟩ | ⟨rfl, -⟩ | ⟨rfl, -⟩ |
    ⟨rfl, -⟩ | ⟨rfl, -⟩ | ⟨j, p, hp, hturn⟩
  · cases hl
  · cases hl
  · cases hl
  · cases hl
  · cases hl
  rcases hturn with ⟨rfl, -, rfl⟩ | ⟨summary, rfl, -, rfl⟩ | ⟨rfl, -, rfl⟩ | ⟨rfl, -, stage, -, rfl⟩ | ⟨rfl, -, rfl⟩
  all_goals
    cases hl
    have hne := hstale p hp
  · exact ⟨rfl, rfl, rfl⟩
  · rw [onSuccess, if_pos hne]
    exact ⟨rfl, rfl, rfl⟩
  · rw [onFailure, if_pos hne]
    exact ⟨rfl, rfl, rfl⟩
  · exact ⟨rfl, rfl, rfl⟩
  · rw [ensuring, if_neg hne]
    exact ⟨rfl, rfl, rfl⟩

lemma stopped_step (hguard : Guarded s) (hlimit : MAX_PREPARE_FAILURES ≤ s.failureStreak) (h : s.step l = some s') :
    MAX_PREPARE_FAILURES ≤ s'.failureStreak ∧ s'.preparations.length = s.preparations.length := by
  have hmove : ∀ (t : CompactionSession) (i : ℕ) (stage : Stage),
      (t.moveTo i stage).preparations.length = t.preparations.length :=
    fun t i stage => length_modify _ _ _
  rcases step_cases h with ⟨messages, contextTokens, prepareTokens, window, -, rfl⟩ | ⟨-, rfl⟩ | ⟨-, rfl⟩ |
    ⟨-, rfl⟩ | ⟨-, rfl⟩ | ⟨i, p, hp, hturn⟩
  · rw [prepare, if_pos hlimit]
    exact ⟨hlimit, rfl⟩
  · exact ⟨hlimit, rfl⟩
  · exact ⟨le_rfl, rfl⟩
  · exact ⟨hlimit, rfl⟩
  · exact ⟨hlimit, rfl⟩
  · rcases hturn with ⟨-, -, rfl⟩ | ⟨summary, -, hstage, rfl⟩ | ⟨-, -, rfl⟩ | ⟨-, -, stage, -, rfl⟩ | ⟨-, -, rfl⟩
    · exact ⟨hlimit, hmove _ _ _⟩
    · -- a call under way at the limit belongs to another generation
      have hne : p.generation ≠ s.generation := by
        intro hgen
        have hold := hguard.stopped hlimit p (mem_iff_getElem?.mpr ⟨i, hp⟩) hgen
        simp [hstage] at hold
      rw [onSuccess, if_pos hne]
      exact ⟨hlimit, hmove _ _ _⟩
    · refine ⟨?_, (hmove _ _ _).trans (by rw [(onFailure_fields s p).2])⟩
      change _ ≤ (s.onFailure p).failureStreak
      rw [onFailure]
      split_ifs
      · exact hlimit
      · exact Nat.le_succ_of_le hlimit
    · exact ⟨hlimit, hmove _ _ _⟩
    · refine ⟨?_, (hmove _ _ _).trans (by rw [(ensuring_fields s p).2])⟩
      change _ ≤ (s.ensuring p).failureStreak
      rw [ensuring]
      split_ifs <;> exact hlimit

lemma candidate_step (h : s.step l = some s') (hc : s'.candidate = some c) :
    s.candidate = some c ∨ ∃ i p, l = .succeed i c.anchorBody ∧ s.preparations[i]? = some p ∧
      candidateOf p c.anchorBody = some c := by
  rcases step_cases h with ⟨messages, contextTokens, prepareTokens, window, -, rfl⟩ | ⟨-, rfl⟩ | ⟨-, rfl⟩ |
    ⟨-, rfl⟩ | ⟨-, rfl⟩ | ⟨i, p, hp, hturn⟩
  · left
    obtain ⟨-, -, -, -, hdrop⟩ := dropStale_fields (s := s) messages
    have hkeep : (s.dropStale messages).candidate = some c → s.candidate = some c := by
      intro hc
      rcases hdrop with hdrop | hdrop
      · exact hdrop.symm.trans hc
      · cases hdrop.symm.trans hc
    rcases prepare_cases (s := s) messages contextTokens prepareTokens window with (hs | hs) | ⟨p, -, -, -, hs⟩
    · rwa [hs] at hc
    · rw [hs] at hc
      exact hkeep hc
    · rw [hs] at hc
      exact hkeep hc
  · cases hc
  · cases hc
  · cases hc
  · exact .inl hc
  · rcases hturn with ⟨-, -, rfl⟩ | ⟨summary, rfl, -, rfl⟩ | ⟨-, -, rfl⟩ | ⟨-, -, stage, -, rfl⟩ | ⟨-, -, rfl⟩
    · exact .inl hc
    · change (s.onSuccess p summary).candidate = some c at hc
      by_cases hgen : p.generation = s.generation
      · rw [onSuccess, if_neg (not_not.mpr hgen)] at hc
        dsimp only at hc
        rw [(candidateOf_spec hc).2.2.2]
        exact .inr ⟨i, p, rfl, hp, hc⟩
      · rw [onSuccess, if_pos hgen] at hc
        exact .inl hc
    · change (s.onFailure p).candidate = some c at hc
      rw [onFailure] at hc
      split_ifs at hc
      exact .inl hc
    · exact .inl hc
    · change (s.ensuring p).candidate = some c at hc
      rw [ensuring] at hc
      split_ifs at hc <;> exact .inl hc

def Steps (a : CompactionSession) (l : SessionLabel) (b : CompactionSession) : Prop := a.step l = some b

section
variable (h : Run Steps (create protect) trace s)
include h

lemma candidate_made (hc : s.candidate = some c) :
    ∃ e ∈ trace, ∃ i p, e.2 = .succeed i c.anchorBody ∧
      e.1.preparations[i]? = some p ∧ candidateOf p c.anchorBody = some c := by
  induction h with
  | nil => cases hc
  | @snoc trace t u l run step ih =>
    rcases candidate_step step hc with hold | hnew
    · obtain ⟨e, he, hmade⟩ := ih hold
      exact ⟨e, mem_append_left _ he, hmade⟩
    · exact ⟨(t, l), mem_append_right _ (mem_singleton.mpr rfl), hnew⟩

lemma guarded_run : Guarded s :=
  h.preserves (guarded_create protect) fun _ _ _ hguard hstep => guarded_step hguard hstep

lemma failuresInRow_le : min (failuresInRow trace) MAX_PREPARE_FAILURES ≤ s.failureStreak := by
  induction h with
  | nil => exact Nat.min_le_left _ _
  | @snoc trace t u l run step ih =>
    unfold failuresInRow at ih ⊢
    rw [foldl_append, foldl_cons, foldl_nil]
    generalize List.foldl _ 0 trace = n at ih ⊢
    rcases step_cases step with ⟨messages, contextTokens, prepareTokens, window, rfl, rfl⟩ | ⟨rfl, rfl⟩ | ⟨rfl, rfl⟩ |
      ⟨rfl, rfl⟩ | ⟨rfl, rfl⟩ | ⟨i, p, hp, hturn⟩
    · obtain ⟨-, -, -, hfail, -⟩ := dropStale_fields (s := t) messages
      rcases prepare_cases (s := t) messages contextTokens prepareTokens window with (hs | hs) | ⟨p, -, -, -, hs⟩
      · rw [hs]
        exact ih
      · rw [hs, hfail]
        exact ih
      · rw [hs]
        exact hfail ▸ ih
    · exact ih
    · exact Nat.min_le_right _ _
    · exact ih
    · exact ih
    · rcases hturn with ⟨rfl, -, rfl⟩ | ⟨summary, rfl, -, rfl⟩ | ⟨rfl, -, rfl⟩ | ⟨rfl, -, stage, -, rfl⟩ |
        ⟨rfl, -, rfl⟩
      · exact ih
      · change min (if isCurrent t i then 0 else n) _ ≤ (t.onSuccess p summary).failureStreak
        by_cases hgen : p.generation = t.generation
        · have hcur : isCurrent t i = true := by simp [isCurrent, hp, hgen]
          rw [if_pos hcur]
          exact (Nat.min_le_left _ _).trans (Nat.zero_le _)
        · have hcur : ¬ isCurrent t i = true := by simp [isCurrent, hp, hgen]
          rw [if_neg hcur, onSuccess, if_pos hgen]
          exact ih
      · change min (if isCurrent t i then n + 1 else n) _ ≤ (t.onFailure p).failureStreak
        by_cases hgen : p.generation = t.generation
        · have hcur : isCurrent t i = true := by simp [isCurrent, hp, hgen]
          rw [if_pos hcur, onFailure, if_neg (not_not.mpr hgen)]
          change _ ≤ t.failureStreak + 1
          omega
        · have hcur : ¬ isCurrent t i = true := by simp [isCurrent, hp, hgen]
          rw [if_neg hcur, onFailure, if_pos hgen]
          exact ih
      · exact ih
      · change _ ≤ (t.ensuring p).failureStreak
        rw [ensuring]
        split_ifs <;> exact ih

end

lemma stale_after_abort (h : Run Steps (create protect) (before ++ (t, l) :: after) s) (hl : l.Aborts) :
    ∀ e ∈ after, ∀ i s', e.2.fiber = some i → i < t.preparations.length → e.1.step e.2 = some s' →
      s'.candidate = e.1.candidate ∧ s'.failureStreak = e.1.failureStreak ∧ s'.inFlight = e.1.inFlight := by
  intro e he i s' hfiber hi hstep
  obtain ⟨u, hbefore, hturn, hafter⟩ := h.between
  have hguard : Guarded t := guarded_run hbefore
  -- the abort leaves the preparations and moves to a new generation
  have habort : t.generation < u.generation ∧ u.preparations = t.preparations := by
    rcases hl with rfl | rfl <;> obtain rfl := Option.some.inj hturn <;> exact ⟨Nat.lt_succ_self _, rfl⟩
  have hgrown : Grown u e.1 := hafter.visits (grown_of_eq le_rfl rfl)
    (fun _ _ _ hgrown hstep => hgrown.trans (grown_step hstep)) e he
  refine stale_turn hstep hfiber fun p hp => ?_
  have hq := getElem?_eq_getElem hi
  obtain ⟨r, hr, hgen⟩ := hgrown.kept i t.preparations[i] (by rw [habort.2, hq])
  obtain rfl := Option.mem_unique hr hp
  have hold := hguard.old _ (getElem_mem hi)
  have hnew := hgrown.generation
  omega

lemma none_begins (h : Run Steps (create protect) (before ++ after) s)
    (hstop : (∃ e ∈ before, e.2 = .disable) ∨ MAX_PREPARE_FAILURES ≤ failuresInRow before) :
    ∀ e ∈ after, ∀ s', e.1.step e.2 = some s' → s'.preparations.length = e.1.preparations.length := by
  let Stopped : CompactionSession → Prop := fun a => Guarded a ∧ MAX_PREPARE_FAILURES ≤ a.failureStreak
  have hkeep : ∀ a l b, Stopped a → Steps a l b → Stopped b :=
    fun a l b hstopped hstep => ⟨guarded_step hstopped.1 hstep, (stopped_step hstopped.1 hstopped.2 hstep).1⟩
  obtain ⟨u, hbefore, hafter⟩ := h.split
  have hlimit : MAX_PREPARE_FAILURES ≤ u.failureStreak := by
    rcases hstop with ⟨e, he, hdisable⟩ | hrow
    · obtain ⟨early, late, rfl⟩ := append_of_mem he
      obtain ⟨v, hearly, hstep, hlate⟩ := hbefore.between
      rw [hdisable] at hstep
      cases hstep
      exact (hlate.preserves (P := Stopped) ⟨guarded_abort (guarded_run hearly) _, le_rfl⟩ hkeep).2
    · have hstreak := failuresInRow_le hbefore
      omega
  intro e he s' hstep
  obtain ⟨hguard, hstreak⟩ := hafter.visits (P := Stopped) ⟨guarded_run hbefore, hlimit⟩ hkeep e he
  exact (stopped_step hguard hstreak hstep).2

lemma summarised_from {messages : List WithParts} (h : Run Steps (create protect) trace s) (hc : s.candidate = some c)
    (hvalid : isWarmCandidateValid c messages)
    (hcollision : ∀ e ∈ trace, ∀ p ∈ e.1.preparations,
      canonicalPrefixFingerprint (messages.take c.prefixIds.length) = canonicalPrefixFingerprint p.plan.summarizerInput →
      canonicalMessages (messages.take c.prefixIds.length) = canonicalMessages p.plan.summarizerInput) :
    ∃ e ∈ trace, ∃ i p, e.2 = .succeed i c.anchorBody ∧ e.1.preparations[i]? = some p ∧
      p.plan.summarizerInput = p.messages.take c.prefixIds.length ∧
      (∃ window, p.call.messages =
        (prepareSummarizerInput p.plan.summarizerInput window p.plan.previousAnchor).messages) ∧
      List.Forall₂ SameMessage (messages.take c.prefixIds.length) p.plan.summarizerInput ∧
      latestCompactionAnchorId messages = latestCompactionAnchorId p.messages := by
  obtain ⟨e, he, i, p, hl, hp, hmade⟩ := candidate_made h hc
  have hguard : Guarded e.1 := h.visits (guarded_create protect) (fun _ _ _ hguard hstep => guarded_step hguard hstep) e he
  have hmem : p ∈ e.1.preparations := mem_iff_getElem?.mpr ⟨i, hp⟩
  have hplan := hguard.planned p hmem
  obtain ⟨window, hcall, -⟩ := hplan.call
  obtain ⟨hids, hanchor, hprint⟩ := isWarmCandidateValid_spec hvalid
  obtain ⟨hinput, hfinger, hlatest, -⟩ := candidateOf_spec hmade
  refine ⟨e, he, i, p, hl, hp, by rw [hinput]; exact hplan.input, ⟨window, hcall⟩, ?_, hanchor.trans hlatest⟩
  refine sameMessages_of_canonical (hids.trans (hinput.trans hplan.ids)) ?_
  exact hcollision e he p hmem (hprint.trans (hfinger.trans hplan.print))

/-- In every run of a session: one preparation of the generation is in flight at most; one from
before an abort changes nothing after it; none begins past a disable or the failure limit; and a
candidate that stands for a list of messages was summarised from the leading ones it replaces,
when the fingerprint tells the compared prefixes apart. -/
theorem speculation_generation_safe {protect : ℤ} (h : Run Steps (create protect) trace s) :
    (∀ (i j : ℕ) (p q : Preparation), s.preparations[i]? = some p → s.preparations[j]? = some q →
      Active s p → Active s q → i = j) ∧
    (∀ (before after : List (CompactionSession × SessionLabel)) (t : CompactionSession) (l : SessionLabel),
      trace = before ++ (t, l) :: after → l.Aborts →
      ∀ e ∈ after, ∀ i s', e.2.fiber = some i → i < t.preparations.length → e.1.step e.2 = some s' →
        s'.candidate = e.1.candidate ∧ s'.failureStreak = e.1.failureStreak ∧ s'.inFlight = e.1.inFlight) ∧
    (∀ before after : List (CompactionSession × SessionLabel), trace = before ++ after →
      (∃ e ∈ before, e.2 = .disable) ∨ MAX_PREPARE_FAILURES ≤ failuresInRow before →
      ∀ e ∈ after, ∀ s', e.1.step e.2 = some s' → s'.preparations.length = e.1.preparations.length) ∧
    (∀ (c : CompactionCandidate) (messages : List WithParts), s.candidate = some c → isWarmCandidateValid c messages →
      (∀ e ∈ trace, ∀ p ∈ e.1.preparations,
        canonicalPrefixFingerprint (messages.take c.prefixIds.length) =
          canonicalPrefixFingerprint p.plan.summarizerInput →
        canonicalMessages (messages.take c.prefixIds.length) = canonicalMessages p.plan.summarizerInput) →
      ∃ e ∈ trace, ∃ i p, e.2 = .succeed i c.anchorBody ∧ e.1.preparations[i]? = some p ∧
        p.plan.summarizerInput = p.messages.take c.prefixIds.length ∧
        (∃ window, p.call.messages =
          (prepareSummarizerInput p.plan.summarizerInput window p.plan.previousAnchor).messages) ∧
        List.Forall₂ SameMessage (messages.take c.prefixIds.length) p.plan.summarizerInput ∧
        latestCompactionAnchorId messages = latestCompactionAnchorId p.messages) := by
  refine ⟨(guarded_run h).single, ?_, ?_, ?_⟩
  · rintro before after t l rfl hl
    exact stale_after_abort h hl
  · rintro before after rfl hstop
    exact none_begins h hstop
  · intro c messages hc hvalid hcollision
    exact summarised_from h hc hvalid hcollision

end CompactionSession
section Sample

open CompactionSession

attribute [local instance] textCoding

def speech (id role text : String) : WithParts where
  info := if role = "user" then .user ⟨id, "s", 0, "agent", "p", "m", none, none, none⟩
    else .assistant
      { id, sessionID := "s", created := 0, parentID := "u", modelID := "m", providerID := "p", agent := "agent"
        tokens := ⟨0, 0, 0, 0, 0⟩ }
  parts := [.text ⟨"part", "s", id⟩ text none none]

def spoken : List WithParts :=
  [speech "u1" "user" "Rename it", speech "a1" "assistant" "Renamed", speech "u2" "user" "Thanks"]

def spokenOn : List WithParts := spoken ++ [speech "a2" "assistant" "You are welcome"]

def begun : CompactionSession := (create 1).prepare spoken 50 10 100

def entered : CompactionSession := (begun.step (.enter 0)).get (by decide +kernel)

def summarised : CompactionSession := (entered.step (.succeed 0 "It is renamed.")).get (by decide +kernel)

def preparedTrace : List (CompactionSession × SessionLabel) :=
  [(create 1, .prepare spoken 50 10 100), (begun, .enter 0), (entered, .succeed 0 "It is renamed.")]

theorem speculation_generation_safe_promoted : ∃ c, summarised.candidate = some c ∧
    isWarmCandidateValid c spokenOn = true ∧
    ∃ e ∈ preparedTrace, ∃ i p, e.2 = .succeed i c.anchorBody ∧ e.1.preparations[i]? = some p ∧
      p.plan.summarizerInput = p.messages.take c.prefixIds.length ∧
      List.Forall₂ SameMessage (spokenOn.take c.prefixIds.length) p.plan.summarizerInput ∧
      latestCompactionAnchorId spokenOn = latestCompactionAnchorId p.messages := by
  have hrun : Run Steps (create 1) preparedTrace summarised := by
    have hbegin : Steps (create 1) (.prepare spoken 50 10 100) begun := rfl
    have henter : Steps begun (.enter 0) entered := (Option.some_get _).symm
    have hsucceed : Steps entered (.succeed 0 "It is renamed.") summarised := (Option.some_get _).symm
    exact ((Run.nil.snoc hbegin).snoc henter).snoc hsucceed
  obtain ⟨c, hc⟩ := Option.isSome_iff_exists.mp (by decide +kernel : summarised.candidate.isSome = true)
  have hstands : (summarised.candidate.all fun c => spokenOn.findIdx? (·.info.id = c.firstKeptId) = some c.prefixIds.length &&
      latestCompactionAnchorId spokenOn = c.compactionAnchorId &&
      c.prefixIds.zipIdx.all fun e => (spokenOn[e.2]?).map (·.info.id) = some e.1) = true := by
    decide +kernel
  have hsame : (preparedTrace.all fun e => e.1.preparations.all fun p => summarised.candidate.all fun c =>
      decide (canonicalMessages (spokenOn.take c.prefixIds.length) = canonicalMessages p.plan.summarizerInput)) = true := by
    decide +kernel
  rw [hc] at hstands hsame
  rw [Option.all_some] at hstands
  simp only [all_eq_true, Option.all_some, decide_eq_true_eq] at hsame
  have hvalid : isWarmCandidateValid c spokenOn = true := by
    obtain ⟨e, he, i, p, -, hp, hmade⟩ := candidate_made hrun hc
    have hguard : Guarded e.1 := hrun.visits (guarded_create 1) (fun _ _ _ hguard hstep => guarded_step hguard hstep) e he
    have hmem : p ∈ e.1.preparations := mem_iff_getElem?.mpr ⟨i, hp⟩
    unfold isWarmCandidateValid
    rw [Bool.and_eq_true, decide_eq_true_eq, (candidateOf_spec hmade).2.1, (hguard.planned p hmem).print]
    refine ⟨hstands, ?_⟩
    unfold canonicalPrefixFingerprint
    rw [hsame e he p hmem]
  obtain ⟨e, he, i, p, hl, hp, hinput, -, hrest⟩ :=
    (speculation_generation_safe hrun).2.2.2 c spokenOn hc hvalid fun e he p hp _ => hsame e he p hp
  exact ⟨c, hc, hvalid, e, he, i, p, hl, hp, hinput, hrest⟩

end Sample

end Compaction
end OpenOmni
