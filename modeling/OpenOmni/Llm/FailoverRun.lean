import OpenOmni.Lib.Run
import OpenOmni.Llm.Failover

/-! The calls of a router over whole runs: failover is replay-safe, ends, and is billed unless a call is
stopped between two candidates. -/
namespace OpenOmni
open List

namespace Router

/-- What the stream of an attempt does, which takes a call nowhere else. -/
def Action.streams : Action → Bool
  | .message _ => true
  | .delta => true
  | .toolCall _ => true
  | .toolResult _ => true
  | _ => false

def Action.stops : Action → Bool
  | .select aborted _ => aborted
  | _ => false

def Route.width (route : Route) : ℕ := max 1 route.slots.length

def Route.stride (route : Route) : ℕ := 2 * route.width + 5

def Control.rank (route : Route) : Control → ℕ
  | .waiting => route.stride * route.selectors.length + 2
  | .selecting rest => route.stride * rest.length + 1
  | .resolving _ _ rest => route.stride * rest.length + 2 * route.width + 5
  | .authorizing _ _ rest => route.stride * rest.length + 2 * route.width + 4
  | .slotting _ slots rest => route.stride * rest.length + 2 * slots.length + 2
  | .attempting _ _ slots rest => route.stride * rest.length + 2 * slots.length + 3
  | .ended _ => 0

section Steps
variable {route : Route} {s : Shared} {call : Call} {candidate : Candidate} {attempt : Attempt}
  {slots : List Slot} {rest : List String}

lemma rank_cons (selector : String) (rest : List String) :
    (Control.selecting (selector :: rest)).rank route =
      route.stride * rest.length + 2 * route.width + 6 := by
  simp only [Control.rank, length_cons, Nat.mul_add, Route.stride]
  omega

lemma startCandidate_rank (selector : String) (lease : Circuit) (fingerprints : List String)
    (hlength : fingerprints.length ≤ route.width) :
    (startCandidate call selector lease rest fingerprints).control.rank route ≤
      route.stride * rest.length + 2 * route.width + 2 := by
  have hslots : (orderedSlots call.previous selector fingerprints).length = fingerprints.length := by
    rw [(orderedSlots_perm call.previous selector fingerprints).length_eq, length_mapIdx]
  simp only [startCandidate, Control.rank, hslots]
  omega

lemma authorize_rank (selector : String) (lease : Circuit) :
    (authorize route call selector lease rest).control.rank route ≤
      route.stride * rest.length + 2 * route.width + 4 := by
  unfold authorize
  dsimp only
  split
  · exact le_rfl
  · refine (startCandidate_rank selector lease _ ?_).trans (by omega)
    rw [length_map]
    exact (length_filter_le _ _).trans (le_max_right _ _)

lemma selectStep_rank (aborted : Bool) (clock : ℕ → ℚ) :
    (selectStep route s call rest aborted clock).2.control.rank route <
      (Control.selecting rest).rank route := by
  unfold selectStep
  split
  · exact Nat.succ_pos _
  · case h_2 selector rest =>
    rw [rank_cons]
    split
    · exact Nat.succ_pos _
    · split
      · simp only [Control.rank]
        omega
      · dsimp only
        split
        · exact Nat.lt_of_le_of_lt (authorize_rank selector _) (by omega)
        · simp only [Control.rank]
          omega

lemma caught_rank (selector : String) (lease : Circuit) (error : LlmError) (clock : ℕ → ℚ) :
    (caught s call selector lease rest error clock).2.control.rank route ≤
      (Control.selecting rest).rank route := by
  unfold caught
  dsimp only
  split
  · exact le_rfl
  · exact Nat.zero_le _

lemma slotStep_rank (clock : ℕ → ℚ) :
    (slotStep route s call candidate slots rest clock).2.control.rank route <
      (Control.slotting candidate slots rest).rank route := by
  unfold slotStep
  split
  · simp only [Control.rank]
    omega
  · dsimp only
    split
    · simp only [Control.rank, length_cons]
      omega
    · simp only [startAttempt, Control.rank, length_cons]
      omega

lemma failureStep_rank (error : LlmError) (thrown : Bool) (clock : ℕ → ℚ) :
    (failureStep route s call candidate attempt slots rest error thrown clock).2.control.rank route <
      (Control.attempting candidate attempt slots rest).rank route := by
  unfold failureStep
  extract_lets streak struck decision seen pinned lease opened freed maybeOpened flushed released
  split
  · simp only [Control.rank]
    omega
  · simp only [Control.rank]
    omega
  · split
    · refine Nat.lt_of_le_of_lt (caught_rank _ _ _ _) ?_
      simp only [Control.rank]
      omega
    · simp only [Control.rank]
      omega

lemma finish_rank (outcome : AttemptOutcome) (clock : ℕ → ℚ) :
    (finish route s call candidate attempt slots rest outcome clock).2.control.rank route <
      (Control.attempting candidate attempt slots rest).rank route := by
  unfold finish
  cases outcome with
  | stop usage | aborted usage =>
    simp only [Control.rank]
    omega
  | error cause => exact failureStep_rank cause false clock
  | failure cause => exact failureStep_rank cause true clock

variable {action : Action} {result : Shared × Call} {outcome : Outcome}

theorem act_rank (h : act route s call action = some result) :
    result.2.control.rank route + (if action.streams then 0 else 1) ≤ call.control.rank route := by
  cases acts_of_act h with
  | enter hcontrol =>
    rw [hcontrol]
    have hlength := (order_perm route.selectors route.selectors_nodup (s.pins route.sessionId)
      route.primary route.turn).length_eq
    simp only [Control.rank, hlength, Action.streams, Bool.false_eq_true, if_false]
    omega
  | select rest aborted clock hcontrol =>
    rw [hcontrol]
    exact selectStep_rank aborted clock
  | resolved selector lease rest clock hcontrol =>
    rw [hcontrol]
    exact Nat.succ_le_succ (authorize_rank selector lease)
  | unresolved selector lease rest error clock hcontrol | unauthorized selector lease rest error clock hcontrol =>
    rw [hcontrol]
    refine (Nat.succ_le_succ (caught_rank selector lease error clock)).trans ?_
    simp only [Control.rank]
    omega
  | authorized selector lease rest fingerprint clock hcontrol =>
    rw [hcontrol]
    refine (Nat.succ_le_succ (startCandidate_rank selector lease [fingerprint] ?_)).trans ?_
    · exact le_max_left _ _
    · simp only [Control.rank]
      omega
  | slot candidate slots rest clock hcontrol =>
    rw [hcontrol]
    exact slotStep_rank clock
  | message candidate attempt slots rest text hcontrol =>
    rw [hcontrol]
    unfold onMessage
    dsimp only
    split
    · exact hcontrol ▸ le_rfl
    · exact le_rfl
  | delta candidate attempt slots rest hcontrol =>
    rw [hcontrol]
    unfold observe
    split
    · exact hcontrol ▸ le_rfl
    · exact le_rfl
  | toolCall candidate attempt slots rest id hcontrol hphase =>
    rw [hcontrol]
    exact le_rfl
  | toolResult candidate attempt slots rest id hcontrol hphase => exact le_rfl
  | finish candidate attempt slots rest outcome clock hcontrol hrefusal =>
    rw [hcontrol]
    exact finish_rank outcome clock
  | interrupt hcontrol =>
    have hended : (interrupt s call).2.control.rank route = 0 := by
      unfold interrupt
      split <;> rfl
    rw [hended]
    cases hcase : call.control with
    | ended answer => exact absurd hcase (hcontrol.2 answer)
    | waiting | selecting rest | resolving selector lease rest | authorizing selector lease rest
    | slotting candidate slots rest | attempting candidate attempt slots rest => exact Nat.succ_pos _

theorem act_continues (h : ∀ answer, call.control ≠ .ended answer) :
    ∃ action, action.streams = false ∧ action ≠ .interrupt ∧ (act route s call action).isSome := by
  cases hcontrol : call.control with
  | waiting => exact ⟨.enter, rfl, nofun, by simp [act, hcontrol]⟩
  | selecting rest => exact ⟨.select false 0, rfl, nofun, by simp [act, hcontrol]⟩
  | resolving selector lease rest => exact ⟨.resolved (.ok ()) 0, rfl, nofun, by simp [act, hcontrol]⟩
  | authorizing selector lease rest =>
    exact ⟨.authorized (.ok "") 0, rfl, nofun, by simp [act, hcontrol]⟩
  | slotting candidate slots rest => exact ⟨.slot 0, rfl, nofun, by simp [act, hcontrol]⟩
  | attempting candidate attempt slots rest =>
    exact ⟨.finish (.stop none) 0, rfl, nofun, by simp [act, hcontrol, AttemptOutcome.isRefusal]⟩
  | ended answer => exact absurd hcontrol (h answer)

lemma caught_unanswered (selector : String) (lease : Circuit) (error : LlmError) (clock : ℕ → ℚ) :
    (caught s call selector lease rest error clock).2.control ≠ .ended (.ok outcome) := by
  unfold caught
  dsimp only
  split
  · nofun
  · nofun

lemma failureStep_billed (error : LlmError) (thrown : Bool) (clock : ℕ → ℚ)
    (h : (failureStep route s call candidate attempt slots rest error thrown clock).2.control =
      .ended (.ok outcome)) : outcome.billedUsage.isSome := by
  unfold failureStep at h
  extract_lets streak struck decision seen pinned lease opened freed maybeOpened flushed released at h
  split at h
  · cases h
  · cases h
  · split at h
    · exact absurd h (caught_unanswered _ _ _ _)
    · cases h
      rfl

theorem finish_billed (cause : AttemptOutcome) (clock : ℕ → ℚ)
    (h : (finish route s call candidate attempt slots rest cause clock).2.control = .ended (.ok outcome)) :
    outcome.billedUsage.isSome := by
  unfold finish at h
  cases cause with
  | stop usage | aborted usage =>
    cases h
    rfl
  | error cause => exact failureStep_billed cause false clock h
  | failure cause => exact failureStep_billed cause true clock h

lemma startCandidate_unanswered (selector : String) (lease : Circuit) (fingerprints : List String) :
    (startCandidate call selector lease rest fingerprints).control ≠ .ended (.ok outcome) := nofun

lemma authorize_unanswered (selector : String) (lease : Circuit) :
    (authorize route call selector lease rest).control ≠ .ended (.ok outcome) := by
  unfold authorize
  dsimp only
  split
  · nofun
  · exact startCandidate_unanswered selector lease _

theorem selectStep_answered (aborted : Bool) (clock : ℕ → ℚ)
    (h : (selectStep route s call rest aborted clock).2.control = .ended (.ok outcome)) :
    aborted = true ∧ (∃ selector others, rest = selector :: others) ∧
      (selectStep route s call rest aborted clock).2.charged = call.charged := by
  unfold selectStep at h ⊢
  split at h
  · cases h
  · case h_2 selector rest =>
    split at h
    · case isTrue haborted =>
      subst haborted
      exact ⟨rfl, ⟨selector, rest, rfl⟩, rfl⟩
    · split at h
      · cases h
      · dsimp only at h
        split at h
        · exact absurd h (authorize_unanswered _ _)
        · cases h

theorem act_unbilled (h : act route s call action = some result) (hended : result.2.control = .ended (.ok outcome))
    (hnone : outcome.billedUsage = none) : ∃ clock selector rest, action = .select true clock ∧
      call.control = .selecting (selector :: rest) ∧ result.2.charged = call.charged := by
  cases acts_of_act h with
  | enter hcontrol | authorized selector lease rest fingerprint clock hcontrol
  | toolCall candidate attempt slots rest id hcontrol hphase => cases hended
  | select rest aborted clock hcontrol =>
    obtain ⟨rfl, ⟨selector, others, rfl⟩, hcharged⟩ := selectStep_answered aborted clock hended
    exact ⟨clock, selector, others, rfl, hcontrol, hcharged⟩
  | resolved selector lease rest clock hcontrol =>
    exact absurd hended (authorize_unanswered selector lease)
  | unresolved selector lease rest error clock hcontrol | unauthorized selector lease rest error clock hcontrol =>
    exact absurd hended (caught_unanswered selector lease error clock)
  | slot candidate slots rest clock hcontrol =>
    unfold slotStep at hended
    split at hended
    · cases hended
    · dsimp only at hended
      split at hended
      · cases hended
      · cases hended
  | message candidate attempt slots rest text hcontrol =>
    unfold onMessage at hended
    dsimp only at hended
    split at hended
    · exact absurd (hcontrol.symm.trans hended) nofun
    · cases hended
  | delta candidate attempt slots rest hcontrol =>
    unfold observe at hended
    split at hended
    · exact absurd (hcontrol.symm.trans hended) nofun
    · cases hended
  | toolResult candidate attempt slots rest id hcontrol hphase =>
    exact absurd (hcontrol.symm.trans hended) nofun
  | finish candidate attempt slots rest cause clock hcontrol hrefusal =>
    have hbilled := finish_billed cause clock hended
    rw [hnone] at hbilled
    cases hbilled
  | interrupt hcontrol =>
    unfold interrupt at hended
    split at hended <;> cases hended

end Steps

/-- What one call must keep to be replay-safe: nothing is tried behind the attempt that showed something,
no credential of a candidate is tried twice, the sink has the messages of one attempt only, and an
outcome bills every attempt. -/
structure FailoverSafe (call : Call) : Prop where
  untried : ∀ n ∈ call.visible, n = call.tried.length
  once : call.tried.Nodup
  oneShown : ∀ e ∈ call.shown, e.1 = call.tried.length
  /-- The outcome of an attempt leaves none of its messages behind. -/
  handed : ∀ outcome, call.control = .ended (.ok outcome) → outcome.billedUsage.isSome →
    ∀ text, call.heard = some (call.tried.length, text) →
      (call.tried.length, .message text) ∈ call.shown
  billed : ∀ outcome, call.control = .ended (.ok outcome) →
    call.charged.length = call.tried.length ∧
      outcome.billedUsage.getD .zero = Usage.sum call.charged

/-- A call whose signal is found aborted between two candidates has no usage to bill yet. -/
def UnbilledAbort (i : ℕ) (s : System) (label : ℕ × Action) : Prop :=
  label.1 = i → ∀ clock selector rest, label.2 = .select true clock →
    (s.calls i).control = .selecting (selector :: rest) → Usage.sum (s.calls i).charged = .zero

theorem CallKept.failoverSafe_iff {call : Call} (h : CallKept call) :
    FailoverSafe call ↔ ∀ outcome, call.control = .ended (.ok outcome) →
      outcome.billedUsage = none → Usage.sum call.charged = .zero := by
  constructor
  · intro hsafe outcome hended hnone
    have hbill := (hsafe.billed outcome hended).2
    rw [hnone] at hbill
    exact hbill.symm
  · intro hunbilled
    have hstands : ∀ outcome, call.control = .ended (.ok outcome) →
        outcome.billedUsage = none ∧ call.tally.Between ∨
          outcome.billedUsage = some call.billedUsage ∧ call.tally.Answered := by
      intro outcome hended
      have hstands := h.stands
      rwa [hended] at hstands
    refine ⟨h.attempted.seen, h.attempted.once, h.attempted.told, fun outcome hended hsome => ?_,
      fun outcome hended => ?_⟩
    · cases hstands outcome hended with
      | inl hbetween =>
        rw [hbetween.1] at hsome
        cases hsome
      | inr hanswered => exact hanswered.2.handed
    · cases hstands outcome hended with
      | inl hbetween =>
        refine ⟨hbetween.2.charged, ?_⟩
        rw [hbetween.1, hunbilled outcome hended hbetween.1]
        rfl
      | inr hanswered =>
        refine ⟨hanswered.2.charged, ?_⟩
        rw [hanswered.1]
        exact h.attempted.billed

namespace System
variable {routes : ℕ → Route} {s t : System} {trace : List (System × (ℕ × Action))}

abbrev Runs (routes : ℕ → Route) : System → List (System × (ℕ × Action)) → System → Prop :=
  Transition.Run fun s label t => s.step routes label.1 label.2 = some t

variable {i : ℕ}

lemma step_callKept {j : ℕ} {action : Action} (h : s.step routes j action = some t) (hkept : CallKept (s.calls i)) :
    CallKept (t.calls i) := by
  obtain ⟨hact, hcalls⟩ := step_act h
  by_cases hj : i = j
  · subst hj
    exact act_kept hkept hact
  · rw [hcalls, Function.update_of_ne hj]
    exact hkept

theorem step_safe_iff {label : ℕ × Action} (h : s.step routes label.1 label.2 = some t) (hkept : CallKept (s.calls i))
    (hsafe : FailoverSafe (s.calls i)) : UnbilledAbort i s label ↔ FailoverSafe (t.calls i) := by
  obtain ⟨hact, hcalls⟩ := step_act h
  by_cases hi : label.1 = i
  · subst hi
    rw [(act_kept hkept hact).failoverSafe_iff]
    constructor
    · intro hunbilled outcome hended hnone
      obtain ⟨clock, selector, rest, hlabel, hcontrol, hcharged⟩ := act_unbilled hact hended hnone
      have hsum := hunbilled rfl clock selector rest hlabel hcontrol
      exact (congrArg Usage.sum hcharged).trans hsum
    · intro hunbilled _ clock selector rest hlabel hcontrol
      rw [hlabel] at hact
      simp only [act, hcontrol, selectStep, if_true, Option.some.injEq, Prod.mk.injEq] at hact
      have hbill := hunbilled ⟨.aborted, none, (s.calls label.1).facts, none⟩
        (by rw [← hact.2]) rfl
      rw [← hact.2] at hbill
      exact hbill
  · have hsame : t.calls i = s.calls i := by
      rw [hcalls, Function.update_of_ne (Ne.symm hi)]
    rw [hsame]
    exact ⟨fun _ => hsafe, fun _ heq => absurd heq hi⟩

lemma runs_rank (h : Runs routes s trace t) (i : ℕ) :
    (t.calls i).control.rank (routes i) +
        (trace.filter fun e => e.2.1 = i && !e.2.2.streams).length ≤
      (s.calls i).control.rank (routes i) := by
  induction h with
  | nil => exact le_rfl
  | @snoc trace u t label run step ih =>
    obtain ⟨hact, hcalls⟩ := step_act step
    rw [filter_append, length_append]
    by_cases hi : label.1 = i
    · subst hi
      have hrank := act_rank hact
      cases hstreams : label.2.streams with
      | true =>
        simp only [hstreams, if_true] at hrank
        simp only [filter_cons, filter_nil, hstreams, decide_true, Bool.not_true,
          Bool.and_false, Bool.false_eq_true, if_false, length_nil]
        omega
      | false =>
        simp only [hstreams, Bool.false_eq_true, if_false] at hrank
        simp only [filter_cons, filter_nil, hstreams, decide_true, Bool.not_false,
          Bool.and_true, if_true, length_singleton]
        omega
    · have hsame : t.calls i = u.calls i := by
        rw [hcalls, Function.update_of_ne (Ne.symm hi)]
      rw [hsame]
      simp only [filter_cons, filter_nil, hi, decide_false, Bool.false_and,
        Bool.false_eq_true, if_false, length_nil]
      omega

/-- What a run makes of call `i`: it is safe in every state, takes no more steps than its candidates and
credentials make for, and can go on until it has ended. -/
structure FailsOver (routes : ℕ → Route) (i : ℕ) (trace : List (System × (ℕ × Action)))
    (t : System) : Prop where
  safe : (∀ e ∈ trace, FailoverSafe (e.1.calls i)) ∧ FailoverSafe (t.calls i)
  bounded : (trace.filter fun e => e.2.1 = i && !e.2.2.streams).length ≤
    (routes i).stride * (routes i).selectors.length + 2
  continues : (∀ answer, (t.calls i).control ≠ .ended answer) →
    ∃ action, action.streams = false ∧ action ≠ .interrupt ∧ (t.step routes i action).isSome

lemma start_safe : FailoverSafe .start :=
  start_callKept.failoverSafe_iff.mpr fun _ hended => by cases hended

def Safe (i : ℕ) (s : System) : Prop := CallKept (s.calls i) ∧ FailoverSafe (s.calls i)

/-- Failover is safe, and all of it billed, in exactly the runs in which no call is stopped between two
candidates with usage to bill. -/
theorem failover_iff (routes : ℕ → Route) (trace : List (System × (ℕ × Action))) (t : System)
    (h : Runs routes start trace t) (i : ℕ) :
    FailsOver routes i trace t ↔ ∀ e ∈ trace, UnbilledAbort i e.1 e.2 := by
  have hstart : Safe i start := ⟨start_callKept, start_safe⟩
  have hstep : ∀ a label b, Safe i a → a.step routes label.1 label.2 = some b →
      (UnbilledAbort i a label ↔ Safe i b) := by
    intro a label b ha hstep
    rw [step_safe_iff hstep ha.1 ha.2]
    exact ⟨fun hsafe => ⟨step_callKept hstep ha.1, hsafe⟩, And.right⟩
  have hruns := h.forall_iff hstart hstep
  have hkept : (∀ e ∈ trace, CallKept (e.1.calls i)) ∧ CallKept (t.calls i) :=
    ⟨h.visits start_callKept fun a label b ha hab => step_callKept hab ha,
      h.preserves start_callKept fun a label b ha hab => step_callKept hab ha⟩
  constructor
  · intro hfails
    refine hruns.mpr ⟨fun e he => ⟨hkept.1 e he, hfails.safe.1 e he⟩, hkept.2, hfails.safe.2⟩
  · intro hunbilled
    obtain ⟨hbefore, hnow⟩ := hruns.mp hunbilled
    refine ⟨⟨fun e he => (hbefore e he).2, hnow.2⟩, ?_, fun hopen => ?_⟩
    · have hrank := runs_rank h i
      have hwaiting : (start.calls i).control.rank (routes i) =
          (routes i).stride * (routes i).selectors.length + 2 := rfl
      omega
    · obtain ⟨action, hstreams, hinterrupt, hact⟩ := act_continues hopen
      refine ⟨action, hstreams, hinterrupt, ?_⟩
      unfold step
      rw [Option.isSome_map]
      exact hact

end System

namespace System

def chainRoute : Route :=
  ⟨"p/m", "main", ["p/m", "q/n"], none, [⟨"p", "a"⟩, ⟨"q", "b"⟩], "session", "turn"⟩

def goneAfter (inputTokens : ℕ) : AttemptOutcome :=
  let failure : Attempts.FailureClass := .terminal .transientError .nonRetryable (some 404) none
  .error ⟨failure, failure, some ⟨inputTokens, 0, 0, 0, 0⟩, none⟩

/-- The first model is gone; `last` is what follows. -/
def firstGone (last : List Action) : List (ℕ × Action) :=
  let first : List Action :=
    [.enter, .select false 0, .slot 0, .message "lost", .finish (goneAfter 10) 0]
  (first ++ last).map fun action => (0, action)

/-- The second model answers, and both are billed. -/
theorem failover_iff_second : ∃ trace t, Runs (fun _ => chainRoute) start trace t ∧
    FailsOver (fun _ => chainRoute) 0 trace t ∧
    (t.calls 0).shown = [(2, .message "answer")] ∧
    ∃ facts, (t.calls 0).control =
      .ended (.ok ⟨.stop, some ⟨15, 0, 0, 0, 0⟩, facts, some "q/n"⟩) := by
  let labels := firstGone [.select false 0, .resolved (.ok ()) 0, .slot 0, .message "answer", .delta,
    .finish (.stop (some ⟨5, 0, 0, 0, 0⟩)) 0]
  have hfold : labels.foldlM (fun s label => step (fun _ => chainRoute) s label.1 label.2) start =
      some _ := rfl
  obtain ⟨trace, hlabels, hrun⟩ := Transition.Run.ofLabels hfold
  refine ⟨trace, _, hrun, (failover_iff _ trace _ hrun 0).mpr fun e he => ?_, rfl, _, rfl⟩
  -- no step of the run finds the signal aborted
  have hlabel : e.2 ∈ labels := hlabels ▸ mem_map_of_mem he
  have hrunning : ∀ label ∈ labels, label.2.stops = false := by decide
  intro _ clock selector rest hselect _
  have hstops := hrunning e.2 hlabel
  rw [hselect] at hstops
  cases hstops

/-- A call stopped between its candidates answers without the bill of the attempt it made. -/
theorem stopped_between_unbilled :
    ¬ ∀ routes trace t, Runs routes start trace t → ∀ i, FailsOver routes i trace t := by
  intro hall
  have hfold : (firstGone [.select true 0]).foldlM
      (fun s label => step (fun _ => chainRoute) s label.1 label.2) start = some _ := rfl
  obtain ⟨trace, -, hrun⟩ := Transition.Run.ofLabels hfold
  have hbill := ((hall _ _ _ hrun 0).safe.2.billed _ rfl).2
  exact absurd hbill (by decide)

end System

end Router
end OpenOmni
