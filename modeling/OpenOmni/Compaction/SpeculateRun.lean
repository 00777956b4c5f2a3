import OpenOmni.Compaction.Speculate
import OpenOmni.Lib.Run

/-! Runs of the speculative session: one preparation at a time, none that outlives its generation,
and what a candidate that stands was summarised from. -/
namespace OpenOmni
namespace Compaction
open List

open Message PlainValue Transition

def blankOutput : Tool.State → Tool.State
  | .completed input _ title metadata start stop => .completed input "[tool output]" title metadata start stop
  | state => state

/-- The content of a part: its kind and fields, but for ids, times and completed outputs. -/
inductive Content
  | text (text : String) (metadata : Option PlainObject)
  | reasoning (text : String) (signature : Option String) (metadata : Option PlainObject)
  | stepStart
  | stepFinish (reason : String) (tokens : Tokens)
  | tool (callID tool : String) (state : Tool.State)

def contentOf : Part → Content
  | .text _ text _ metadata => .text text metadata
  | .reasoning _ text signature _ metadata => .reasoning text signature metadata
  | .stepStart _ => .stepStart
  | .stepFinish _ reason tokens => .stepFinish reason tokens
  | .tool _ callID tool state => .tool callID tool (blankOutput state)

structure SameMessage (m original : WithParts) : Prop where
  id : m.info.id = original.info.id
  role : isUser m = isUser original
  parts : m.parts.map contentOf = original.parts.map contentOf

lemma canonicalState_eq (state : Tool.State) : canonicalState state = (blankOutput state).toPlain := by
  cases state <;> rfl

lemma toPlain_state_inj {a b : Tool.State} (h : a.toPlain = b.toPlain) : a = b := by
  cases a <;> cases b <;> simp_all [Tool.State.toPlain, record, Tool.startTime, Tool.spanTime]

lemma toPlain_tokens_inj {a b : Tokens} (h : a.toPlain = b.toPlain) : a = b := by
  cases a
  cases b
  simp_all [Tokens.toPlain, record]

lemma contentOf_eq {p q : Part} (h : canonicalPartContent p = canonicalPartContent q) : contentOf p = contentOf q := by
  cases p with
  | text base text time metadata =>
    cases q with
    | text base' text' time' metadata' =>
      cases metadata <;> cases metadata' <;> simp_all [canonicalPartContent, record, contentOf]
    | _ => simp [canonicalPartContent, record] at h
  | reasoning base text signature time metadata =>
    cases q with
    | reasoning base' text' signature' time' metadata' =>
      cases signature <;> cases signature' <;> cases metadata <;> cases metadata' <;>
        simp_all [canonicalPartContent, record, contentOf]
    | _ => simp [canonicalPartContent, record] at h
  | stepStart base =>
    cases q with
    | stepStart base' => rfl
    | _ => simp [canonicalPartContent, record] at h
  | stepFinish base reason tokens =>
    cases q with
    | stepFinish base' reason' tokens' =>
      simp only [canonicalPartContent, record, filterMap_cons, Option.map_some, filterMap_nil,
        PlainValue.obj.injEq, List.cons.injEq, Prod.mk.injEq, PlainValue.str.injEq, true_and, and_true] at h
      rw [contentOf, contentOf, h.1, toPlain_tokens_inj h.2]
    | _ => simp [canonicalPartContent, record] at h
  | tool base callID tool state =>
    cases q with
    | tool base' callID' tool' state' =>
      simp only [canonicalPartContent, record, filterMap_cons, Option.map_some, filterMap_nil,
        PlainValue.obj.injEq, List.cons.injEq, Prod.mk.injEq, PlainValue.str.injEq, true_and, and_true,
        canonicalState_eq] at h
      rw [contentOf, contentOf, h.1, h.2.1, toPlain_state_inj h.2.2]
    | _ => simp [canonicalPartContent, record] at h

variable {m n : WithParts} {messages : List WithParts}

lemma roleOf_inj (h : roleOf m = roleOf n) : isUser m = isUser n := by
  unfold roleOf at h
  cases hm : isUser m <;> cases hn : isUser n <;> simp_all

lemma canonicalMessage_inj (h : canonicalMessage m = canonicalMessage n) :
    isUser m = isUser n ∧ m.parts.map contentOf = n.parts.map contentOf := by
  simp only [canonicalMessage, record, filterMap_cons, Option.map_some, filterMap_nil,
    PlainValue.obj.injEq, List.cons.injEq, Prod.mk.injEq, PlainValue.str.injEq, PlainValue.arr.injEq, true_and,
    and_true] at h
  refine ⟨roleOf_inj h.1, ?_⟩
  have hparts := h.2
  generalize m.parts = a at hparts
  generalize n.parts = b at hparts
  induction a generalizing b with
  | nil =>
    cases b with
    | nil => rfl
    | cons q b => exact absurd hparts (by simp)
  | cons p a ih =>
    cases b with
    | nil => exact absurd hparts (by simp)
    | cons q b =>
      obtain ⟨hhead, htail⟩ := List.cons.inj hparts
      rw [map_cons, map_cons, contentOf_eq hhead, ih b htail]

lemma sameMessages_of_canonical {a b : List WithParts} (hids : a.map (·.info.id) = b.map (·.info.id))
    (h : canonicalMessages a = canonicalMessages b) : List.Forall₂ SameMessage a b := by
  have hmap : a.map canonicalMessage = b.map canonicalMessage := PlainValue.arr.inj h
  clear h
  induction a generalizing b with
  | nil =>
    cases b with
    | nil => exact .nil
    | cons n b => exact absurd hmap (by simp)
  | cons m a ih =>
    cases b with
    | nil => exact absurd hmap (by simp)
    | cons n b =>
      obtain ⟨hhead, htail⟩ := List.cons.inj hmap
      obtain ⟨hid, hrest⟩ := List.cons.inj hids
      obtain ⟨hrole, hparts⟩ := canonicalMessage_inj hhead
      exact .cons ⟨hid, hrole, hparts⟩ (ih hrest htail)

variable [PlainCoding]

lemma planAnchoredCut_spec {protect : ℤ} {plan : AnchoredPlan} (h : planAnchoredCut messages protect = some plan) :
    plan.summarizerInput = messages.take plan.prefixIds.length ∧
      plan.prefixIds = plan.summarizerInput.map (·.info.id) ∧
      plan.prefixFingerprint = canonicalPrefixFingerprint plan.summarizerInput ∧
      plan.previousAnchor = latestAnchorBody plan.summarizerInput ∧ plan.summarizerInput.any summarizable := by
  unfold planAnchoredCut at h
  dsimp only at h
  split_ifs at h with h1 h2 h3
  cases h
  refine ⟨?_, rfl, rfl, rfl, h3⟩
  rw [length_map, length_take, take_eq_take_iff]
  omega

lemma candidateOf_print {s : CompactionSession} {window : ℚ} {p : Preparation} {summary : String}
    {c : CompactionCandidate} (hp : s.planned messages window = some p)
    (hmade : CompactionSession.candidateOf p summary = some c) :
    canonicalPrefixFingerprint (messages.take c.prefixIds.length) = c.prefixFingerprint := by
  obtain ⟨plan, hplan, hp⟩ := Option.bind_eq_some_iff.mp hp
  obtain ⟨firstKept, -, hp⟩ := Option.bind_eq_some_iff.mp hp
  obtain ⟨hinput, -, hprint, -⟩ := planAnchoredCut_spec hplan
  dsimp only at hp
  split_ifs at hp
  cases hp
  unfold CompactionSession.candidateOf at hmade
  split_ifs at hmade
  cases hmade
  rw [hprint, hinput]

lemma isWarmCandidateValid_spec {candidate : CompactionCandidate} (h : isWarmCandidateValid candidate messages) :
    (messages.take candidate.prefixIds.length).map (·.info.id) = candidate.prefixIds ∧
      latestCompactionAnchorId messages = candidate.compactionAnchorId ∧
      canonicalPrefixFingerprint (messages.take candidate.prefixIds.length) = candidate.prefixFingerprint := by
  unfold isWarmCandidateValid at h
  simp only [Bool.and_eq_true, decide_eq_true_eq, all_eq_true] at h
  obtain ⟨⟨⟨-, hanchor⟩, hids⟩, hprint⟩ := h
  refine ⟨?_, hanchor, hprint⟩
  apply ext_getElem?
  intro i
  rw [getElem?_map]
  by_cases hi : i < candidate.prefixIds.length
  · have hid := hids (candidate.prefixIds[i], i) (by
      rw [mem_zipIdx_iff_getElem?]
      exact getElem?_eq_getElem hi)
    rw [getElem?_take_of_lt hi, hid, getElem?_eq_getElem hi]
  · rw [getElem?_eq_none (Nat.not_lt.mp hi), getElem?_eq_none (by
      rw [length_take]
      omega)]
    rfl

def Active (s : CompactionSession) (p : Preparation) : Prop := p.generation = s.generation ∧ p.stage ≠ .done

structure Preparation.Planned (p : Preparation) : Prop where
  input : p.plan.summarizerInput = p.messages.take p.plan.prefixIds.length
  ids : p.plan.prefixIds = p.plan.summarizerInput.map (·.info.id)
  print : p.plan.prefixFingerprint = canonicalPrefixFingerprint p.plan.summarizerInput
  call : ∃ window, p.call.messages = (prepareSummarizerInput p.plan.summarizerInput window p.plan.previousAnchor).messages ∧
    p.call.previousAnchor = p.plan.previousAnchor

structure Guarded (s : CompactionSession) : Prop where
  old : ∀ p ∈ s.preparations, p.generation ≤ s.generation
  single : ∀ (i j : ℕ) (p q : Preparation), s.preparations[i]? = some p → s.preparations[j]? = some q →
    Active s p → Active s q → i = j
  flag : ∀ p ∈ s.preparations, Active s p → s.inFlight = true
  stopped : MAX_PREPARE_FAILURES ≤ s.failureStreak → ∀ p ∈ s.preparations, p.generation = s.generation →
    p.stage = .settling ∨ p.stage = .done
  planned : ∀ p ∈ s.preparations, p.Planned

namespace CompactionSession

variable {s s' t : CompactionSession} {i : ℕ} {p : Preparation}

omit [PlainCoding] in
lemma getElem?_moveTo (s : CompactionSession) (i : ℕ) (stage : Stage) (j : ℕ) : (s.moveTo i stage).preparations[j]? =
    (s.preparations[j]?).map fun p => if i = j then { p with stage } else p := by
  change (s.preparations.modify i _)[j]? = _
  rw [getElem?_modify]
  cases s.preparations[j]? with
  | none => rfl
  | some p => by_cases h : i = j <;> simp [h]

variable {stage : Stage} {l : SessionLabel}

omit [PlainCoding] in
lemma exists_of_moveTo {j : ℕ} {q : Preparation} (h : (t.moveTo i stage).preparations[j]? = some q) :
    ∃ p, t.preparations[j]? = some p ∧ q = if i = j then { p with stage } else p := by
  rw [getElem?_moveTo] at h
  obtain ⟨p, hp, rfl⟩ := Option.map_eq_some_iff.mp h
  exact ⟨p, hp, rfl⟩

lemma guarded_turn (h : Guarded s) (hp : s.preparations[i]? = some p) (hgen : t.generation = s.generation)
    (hpreps : t.preparations = s.preparations) (hstage : p.stage ≠ .done)
    (hflag : ∀ (j : ℕ) (q : Preparation), s.preparations[j]? = some q → Active s q → j ≠ i ∨ stage ≠ .done →
      t.inFlight = true)
    (hstop : MAX_PREPARE_FAILURES ≤ t.failureStreak →
      (stage = .settling ∨ stage = .done ∨ p.generation ≠ s.generation) ∧
        (MAX_PREPARE_FAILURES ≤ s.failureStreak ∨ p.generation = s.generation)) : Guarded (t.moveTo i stage) := by
  have hback : ∀ {j : ℕ} {q : Preparation}, (t.moveTo i stage).preparations[j]? = some q →
      ∃ r, s.preparations[j]? = some r ∧ q = if i = j then { r with stage } else r := by
    intro j q hq
    rw [← hpreps]
    exact exists_of_moveTo hq
  have hactive : ∀ {j : ℕ} {q r : Preparation}, s.preparations[j]? = some r →
      (q = if i = j then { r with stage } else r) → Active (t.moveTo i stage) q →
      Active s r ∧ (j ≠ i ∨ stage ≠ .done) := by
    intro j q r hr hq hact
    obtain ⟨hcur, hrun⟩ := hact
    have hcur : q.generation = s.generation := hcur.trans hgen
    by_cases hij : i = j
    · rw [if_pos hij] at hq
      subst hij
      obtain rfl := Option.mem_unique hp hr
      rw [hq] at hcur hrun
      exact ⟨⟨hcur, hstage⟩, .inr hrun⟩
    · rw [if_neg hij] at hq
      rw [hq] at hcur hrun
      exact ⟨⟨hcur, hrun⟩, .inl fun h => hij h.symm⟩
  refine ⟨?_, ?_, ?_, ?_, ?_⟩
  · intro q hq
    obtain ⟨j, hj⟩ := mem_iff_getElem?.mp hq
    obtain ⟨r, hr, rfl⟩ := hback hj
    have hle := h.old r (mem_iff_getElem?.mpr ⟨j, hr⟩)
    change _ ≤ t.generation
    rw [hgen]
    split_ifs <;> exact hle
  · intro j k q r hq hr hactq hactr
    obtain ⟨q', hq', hqe⟩ := hback hq
    obtain ⟨r', hr', hre⟩ := hback hr
    exact h.single j k q' r' hq' hr' (hactive hq' hqe hactq).1 (hactive hr' hre hactr).1
  · intro q hq hact
    obtain ⟨j, hj⟩ := mem_iff_getElem?.mp hq
    obtain ⟨r, hr, hre⟩ := hback hj
    obtain ⟨hold, hor⟩ := hactive hr hre hact
    exact hflag j r hr hold hor
  · intro hstreak q hq hcur
    obtain ⟨hself, hrest⟩ := hstop hstreak
    obtain ⟨j, hj⟩ := mem_iff_getElem?.mp hq
    obtain ⟨r, hr, hre⟩ := hback hj
    have hcur : q.generation = s.generation := hcur.trans hgen
    by_cases hij : i = j
    · rw [if_pos hij] at hre
      subst hij
      obtain rfl := Option.mem_unique hp hr
      rw [hre] at hcur ⊢
      rcases hself with hself | hself | hself
      · exact .inl hself
      · exact .inr hself
      · exact absurd hcur hself
    · rw [if_neg hij] at hre
      subst hre
      rcases hrest with hrest | hrest
      · exact h.stopped hrest q (mem_iff_getElem?.mpr ⟨j, hr⟩) hcur
      · -- two of one generation are not in flight together
        right
        by_contra hrun
        exact hij (h.single i j p q hp hr ⟨hrest, hstage⟩ ⟨hcur, hrun⟩)
  · intro q hq
    obtain ⟨j, hj⟩ := mem_iff_getElem?.mp hq
    obtain ⟨r, hr, rfl⟩ := hback hj
    have hplan := h.planned r (mem_iff_getElem?.mpr ⟨j, hr⟩)
    split_ifs
    · exact ⟨hplan.input, hplan.ids, hplan.print, hplan.call⟩
    · exact hplan

lemma guarded_candidate (h : Guarded s) (candidate : Option CompactionCandidate) : Guarded { s with candidate } :=
  ⟨h.old, h.single, h.flag, h.stopped, h.planned⟩

lemma guarded_dropStale (h : Guarded s) (messages : List WithParts) : Guarded (s.dropStale messages) := by
  unfold dropStale
  split
  · split_ifs
    · exact h
    · exact guarded_candidate h none
  · exact h

lemma guarded_abort (h : Guarded s) (failureStreak : ℕ) : Guarded { s with failureStreak }.abort := by
  have hnone : ∀ p ∈ s.preparations, p.generation ≠ s.generation + 1 := by
    intro p hp
    have hle := h.old p hp
    omega
  refine ⟨fun p hp => Nat.le_succ_of_le (h.old p hp), ?_, ?_, ?_, h.planned⟩
  · intro j k q r hq _ hact _
    exact absurd hact.1 (hnone q (mem_iff_getElem?.mpr ⟨j, hq⟩))
  · intro q hq hact
    exact absurd hact.1 (hnone q hq)
  · intro _ q hq hcur
    exact absurd hcur (hnone q hq)

lemma planned_spec {messages : List WithParts} {window : ℚ} (h : s.planned messages window = some p) :
    p.generation = s.generation ∧ p.messages = messages ∧ p.stage = .forked ∧ p.Planned := by
  unfold planned at h
  obtain ⟨plan, hplan, h⟩ := Option.bind_eq_some_iff.mp h
  obtain ⟨firstKept, -, h⟩ := Option.bind_eq_some_iff.mp h
  dsimp only at h
  split_ifs at h
  cases h
  obtain ⟨hinput, hids, hprint, -, -⟩ := planAnchoredCut_spec hplan
  exact ⟨rfl, rfl, rfl, ⟨hinput, hids, hprint, window, rfl, rfl⟩⟩

lemma prepare_cases (messages : List WithParts) (contextTokens prepareTokens window : ℚ) :
    (s.prepare messages contextTokens prepareTokens window = s ∨
      s.prepare messages contextTokens prepareTokens window = s.dropStale messages) ∨
    ∃ p, s.failureStreak < MAX_PREPARE_FAILURES ∧ (s.dropStale messages).inFlight = false ∧
      (s.dropStale messages).planned messages window = some p ∧
      s.prepare messages contextTokens prepareTokens window = { s.dropStale messages with
        inFlight := true
        preparation := some (s.dropStale messages).preparations.length
        preparations := (s.dropStale messages).preparations ++ [p] } := by
  unfold prepare
  by_cases hstreak : MAX_PREPARE_FAILURES ≤ s.failureStreak
  · rw [if_pos hstreak]
    exact .inl (.inl rfl)
  rw [if_neg hstreak]
  dsimp only
  by_cases hbusy : (s.dropStale messages).inFlight = true ∨ (s.dropStale messages).candidate.isSome = true ∨
      contextTokens < prepareTokens
  · rw [if_pos hbusy]
    exact .inl (.inr rfl)
  rw [if_neg hbusy]
  rw [not_or] at hbusy
  cases hplanned : (s.dropStale messages).planned messages window with
  | none => exact .inl (.inr rfl)
  | some p => exact .inr ⟨p, Nat.not_le.mp hstreak, Bool.not_eq_true _ ▸ hbusy.1, rfl, rfl⟩

lemma dropStale_fields (messages : List WithParts) : (s.dropStale messages).preparations = s.preparations ∧
    (s.dropStale messages).generation = s.generation ∧ (s.dropStale messages).inFlight = s.inFlight ∧
    (s.dropStale messages).failureStreak = s.failureStreak ∧
    ((s.dropStale messages).candidate = s.candidate ∨ (s.dropStale messages).candidate = none) := by
  unfold dropStale
  split
  · split_ifs
    · exact ⟨rfl, rfl, rfl, rfl, .inl rfl⟩
    · exact ⟨rfl, rfl, rfl, rfl, .inr rfl⟩
  · exact ⟨rfl, rfl, rfl, rfl, .inl rfl⟩

lemma guarded_begin (h : Guarded s) (hidle : s.inFlight = false) (hstreak : s.failureStreak < MAX_PREPARE_FAILURES)
    (hgen : p.generation = s.generation) (hplanned : p.Planned) : Guarded { s with
      inFlight := true
      preparation := some s.preparations.length
      preparations := s.preparations ++ [p] } := by
  have hnone : ∀ q ∈ s.preparations, ¬ Active s q := by
    intro q hq hact
    have hflag := h.flag q hq hact
    rw [hidle] at hflag
    exact absurd hflag Bool.false_ne_true
  have hmem : ∀ q ∈ s.preparations ++ [p], q ∈ s.preparations ∨ q = p := by
    intro q hq
    rwa [mem_append, mem_singleton] at hq
  refine ⟨?_, ?_, fun _ _ _ => rfl, fun hlimit => absurd hlimit (Nat.not_le.mpr hstreak), ?_⟩
  · intro q hq
    rcases hmem q hq with hq | rfl
    · exact h.old q hq
    · exact le_of_eq hgen
  · intro j k q r hq hr hactq hactr
    have hlast : ∀ {l : ℕ} {q : Preparation}, (s.preparations ++ [p])[l]? = some q → Active s q →
        l = s.preparations.length := by
      intro l q hq hact
      by_cases hl : l < s.preparations.length
      · rw [getElem?_append_left hl] at hq
        exact absurd hact (hnone q (mem_iff_getElem?.mpr ⟨l, hq⟩))
      · have hlt := (List.getElem?_eq_some_iff.mp hq).1
        rw [length_append, length_singleton] at hlt
        omega
    rw [hlast hq hactq, hlast hr hactr]
  · intro q hq
    rcases hmem q hq with hq | rfl
    · exact h.planned q hq
    · exact hplanned

lemma guarded_prepare (h : Guarded s) (messages : List WithParts) (contextTokens prepareTokens window : ℚ) :
    Guarded (s.prepare messages contextTokens prepareTokens window) := by
  rcases prepare_cases messages contextTokens prepareTokens window with (hs | hs) | ⟨p, hstreak, hidle, hplanned, hs⟩
  · rw [hs]
    exact h
  · rw [hs]
    exact guarded_dropStale h messages
  · obtain ⟨hgen, -, -, hplan⟩ := planned_spec hplanned
    obtain ⟨-, -, -, hfail, -⟩ := dropStale_fields (s := s) messages
    rw [hs]
    exact guarded_begin (guarded_dropStale h messages) hidle (by rw [hfail]; exact hstreak) hgen hplan

omit [PlainCoding] in
lemma turnOf_spec {turn : Preparation → CompactionSession} (h : s.turnOf i stage turn = some s') :
    ∃ p, s.preparations[i]? = some p ∧ p.stage = stage ∧ s' = turn p := by
  obtain ⟨p, hp, h⟩ := Option.bind_eq_some_iff.mp h
  split_ifs at h with hstage
  exact ⟨p, hp, hstage, (Option.some.inj h).symm⟩

section
variable (h : Guarded s) (hp : s.preparations[i]? = some p)
include h hp

lemma guarded_enter (hstage : p.stage = .forked) :
    Guarded (s.moveTo i .summarizing) := by
  refine guarded_turn h hp rfl rfl (by simp [hstage]) ?_ ?_
  · intro j q hq hact _
    exact h.flag q (mem_iff_getElem?.mpr ⟨j, hq⟩) hact
  · intro hlimit
    refine ⟨.inr (.inr fun hgen => ?_), .inl hlimit⟩
    have hold := h.stopped hlimit p (mem_iff_getElem?.mpr ⟨i, hp⟩) hgen
    simp [hstage] at hold

lemma guarded_succeed (hstage : p.stage = .summarizing)
    (summary : String) : Guarded ((s.onSuccess p summary).moveTo i .settling) := by
  have hrun : p.stage ≠ .done := by simp [hstage]
  have hflag : ∀ (j : ℕ) (q : Preparation), s.preparations[j]? = some q → Active s q → s.inFlight = true :=
    fun j q hq hact => h.flag q (mem_iff_getElem?.mpr ⟨j, hq⟩) hact
  by_cases hgen : p.generation = s.generation
  · rw [onSuccess, if_neg (not_not.mpr hgen)]
    refine guarded_turn (t := { s with failureStreak := 0, candidate := candidateOf p summary }) h hp rfl rfl hrun
      (fun j q hq hact _ => hflag j q hq hact) fun hlimit => ?_
    exact absurd hlimit (Nat.not_succ_le_zero 1)
  · rw [onSuccess, if_pos hgen]
    exact guarded_turn h hp rfl rfl hrun (fun j q hq hact _ => hflag j q hq hact) fun hlimit => ⟨.inl rfl, .inl hlimit⟩

lemma guarded_fail (hstage : p.stage = .summarizing) :
    Guarded ((s.onFailure p).moveTo i .settling) := by
  have hrun : p.stage ≠ .done := by simp [hstage]
  have hflag : ∀ (j : ℕ) (q : Preparation), s.preparations[j]? = some q → Active s q → s.inFlight = true :=
    fun j q hq hact => h.flag q (mem_iff_getElem?.mpr ⟨j, hq⟩) hact
  by_cases hgen : p.generation = s.generation
  · rw [onFailure, if_neg (not_not.mpr hgen)]
    exact guarded_turn (t := { s with candidate := none, failureStreak := s.failureStreak + 1 }) h hp rfl rfl hrun
      (fun j q hq hact _ => hflag j q hq hact) fun _ => ⟨.inl rfl, .inr hgen⟩
  · rw [onFailure, if_pos hgen]
    exact guarded_turn h hp rfl rfl hrun (fun j q hq hact _ => hflag j q hq hact) fun hlimit => ⟨.inl rfl, .inl hlimit⟩

lemma guarded_interrupt (hrun : p.stage ≠ .done)
    (hstage : stage = .settling ∨ stage = .done) : Guarded (s.moveTo i stage) := by
  refine guarded_turn h hp rfl rfl hrun ?_ fun hlimit => ⟨?_, .inl hlimit⟩
  · intro j q hq hact _
    exact h.flag q (mem_iff_getElem?.mpr ⟨j, hq⟩) hact
  · rcases hstage with hstage | hstage
    · exact .inl hstage
    · exact .inr (.inl hstage)

lemma guarded_finalize (hstage : p.stage = .settling) :
    Guarded ((s.ensuring p).moveTo i .done) := by
  have hrun : p.stage ≠ .done := by simp [hstage]
  by_cases hgen : p.generation = s.generation
  · rw [ensuring, if_pos hgen]
    refine guarded_turn (t := { s with inFlight := false }) h hp rfl rfl hrun ?_ fun hlimit => ⟨.inr (.inl rfl), .inl hlimit⟩
    -- the flag drops with the one preparation that held it
    intro j q hq hact hother
    rcases hother with hother | hother
    · exact absurd (h.single j i q p hq hp hact ⟨hgen, hrun⟩) hother
    · exact absurd rfl hother
  · rw [ensuring, if_neg hgen]
    refine guarded_turn h hp rfl rfl hrun ?_ fun hlimit => ⟨.inr (.inl rfl), .inl hlimit⟩
    intro j q hq hact _
    exact h.flag q (mem_iff_getElem?.mpr ⟨j, hq⟩) hact

end

lemma step_cases (h : s.step l = some s') :
    (∃ messages contextTokens prepareTokens window, l = .prepare messages contextTokens prepareTokens window ∧
      s' = s.prepare messages contextTokens prepareTokens window) ∨
    (l = .consume ∧ s' = s.consume) ∨ (l = .disable ∧ s' = s.disable) ∨ (l = .abort ∧ s' = s.abort) ∨
    (l = .settle ∧ s' = s) ∨
    ∃ i p, s.preparations[i]? = some p ∧
      ((l = .enter i ∧ p.stage = .forked ∧ s' = s.moveTo i .summarizing) ∨
        (∃ summary, l = .succeed i summary ∧ p.stage = .summarizing ∧
          s' = (s.onSuccess p summary).moveTo i .settling) ∨
        (l = .fail i ∧ p.stage = .summarizing ∧ s' = (s.onFailure p).moveTo i .settling) ∨
        (l = .interrupt i ∧ p.stage ≠ .done ∧
          ∃ stage : Stage, (stage = .settling ∨ stage = .done) ∧ s' = s.moveTo i stage) ∨
        (l = .finalize i ∧ p.stage = .settling ∧ s' = (s.ensuring p).moveTo i .done)) := by
  cases l with
  | prepare messages contextTokens prepareTokens window =>
    exact .inl ⟨_, _, _, _, rfl, (Option.some.inj h).symm⟩
  | consume => exact .inr (.inl ⟨rfl, (Option.some.inj h).symm⟩)
  | disable => exact .inr (.inr (.inl ⟨rfl, (Option.some.inj h).symm⟩))
  | abort => exact .inr (.inr (.inr (.inl ⟨rfl, (Option.some.inj h).symm⟩)))
  | settle => exact .inr (.inr (.inr (.inr (.inl ⟨rfl, (Option.some.inj h).symm⟩))))
  | enter i =>
    obtain ⟨p, hp, hstage, hs⟩ := turnOf_spec h
    exact .inr (.inr (.inr (.inr (.inr ⟨i, p, hp, .inl ⟨rfl, hstage, hs⟩⟩))))
  | succeed i summary =>
    obtain ⟨p, hp, hstage, hs⟩ := turnOf_spec h
    exact .inr (.inr (.inr (.inr (.inr ⟨i, p, hp, .inr (.inl ⟨summary, rfl, hstage, hs⟩)⟩))))
  | fail i =>
    obtain ⟨p, hp, hstage, hs⟩ := turnOf_spec h
    exact .inr (.inr (.inr (.inr (.inr ⟨i, p, hp, .inr (.inr (.inl ⟨rfl, hstage, hs⟩))⟩))))
  | interrupt i =>
    rcases Option.or_eq_some_iff.mp h with h | ⟨-, h⟩
    · obtain ⟨p, hp, hstage, hs⟩ := turnOf_spec h
      exact .inr (.inr (.inr (.inr (.inr ⟨i, p, hp, .inr (.inr (.inr (.inl
        ⟨rfl, by simp [hstage], .done, .inr rfl, hs⟩)))⟩))))
    · obtain ⟨p, hp, hstage, hs⟩ := turnOf_spec h
      exact .inr (.inr (.inr (.inr (.inr ⟨i, p, hp, .inr (.inr (.inr (.inl
        ⟨rfl, by simp [hstage], .settling, .inl rfl, hs⟩)))⟩))))
  | finalize i =>
    obtain ⟨p, hp, hstage, hs⟩ := turnOf_spec h
    exact .inr (.inr (.inr (.inr (.inr ⟨i, p, hp, .inr (.inr (.inr (.inr ⟨rfl, hstage, hs⟩)))⟩))))

lemma guarded_step (h : Guarded s) (hs : s.step l = some s') : Guarded s' := by
  rcases step_cases hs with ⟨messages, contextTokens, prepareTokens, window, -, rfl⟩ | ⟨-, rfl⟩ | ⟨-, rfl⟩ |
    ⟨-, rfl⟩ | ⟨-, rfl⟩ | ⟨i, p, hp, hturn⟩
  · exact guarded_prepare h messages contextTokens prepareTokens window
  · exact guarded_candidate h none
  · exact guarded_abort h MAX_PREPARE_FAILURES
  · exact guarded_abort h s.failureStreak
  · exact h
  · rcases hturn with ⟨-, hstage, rfl⟩ | ⟨summary, -, hstage, rfl⟩ | ⟨-, hstage, rfl⟩ |
      ⟨-, hrun, stage, hstage, rfl⟩ | ⟨-, hstage, rfl⟩
    · exact guarded_enter h hp hstage
    · exact guarded_succeed h hp hstage summary
    · exact guarded_fail h hp hstage
    · exact guarded_interrupt h hp hrun hstage
    · exact guarded_finalize h hp hstage

lemma guarded_create (protectRecentMessages : ℤ) : Guarded (create protectRecentMessages) where
  old := fun p hp => absurd hp not_mem_nil
  single := fun i _ p _ hp => absurd hp (by simp [create])
  flag := fun p hp => absurd hp not_mem_nil
  stopped := fun _ p hp => absurd hp not_mem_nil
  planned := fun p hp => absurd hp not_mem_nil

end CompactionSession
end Compaction
end OpenOmni
