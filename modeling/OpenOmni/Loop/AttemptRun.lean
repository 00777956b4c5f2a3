import OpenOmni.Loop.AttemptTrace

/-! The attempt loop over every sequence of outcomes: what it writes and when it tries again. -/
namespace OpenOmni
open List

namespace Attempts

variable [PlainCoding] {options : AttemptOptions} {attempt : ℕ} {state : LoopState}
  {inputs : AttemptInputs}

def Unaborted (inputs : AttemptInputs) : Prop :=
  inputs.abortedAtStart = false ∧ inputs.abortedAtIntent = false

/-- An attempt that is answered with another one, as far as its retry alarm lets it: its intent `id`
written, its result too, and a failure in between that may be replayed; `streak` instant failures
came before. -/
structure Retriable (attempt : ℕ) (inputs : AttemptInputs) (streak : ℕ) (id : String)
    (prepared : Prepared) (failure : AttemptError) : Prop where
  running : Unaborted inputs
  offered : inputs.prepare = .ok prepared
  passed : Passed attempt inputs
  written : inputs.appendIntent = .ok id
  failed : FailedBody inputs failure
  recorded : ∃ answer, inputs.appendResult = .ok answer
  replayable : Replayable attempt inputs failure (nextStreak inputs failure streak)
    prepared.fallbackAvailable

inductive AttemptTrace (options : AttemptOptions) (attempt : ℕ) (state : LoopState)
    (inputs : AttemptInputs) : Traced (PlainValue ⊕ LoopState) → Prop where
  | unwritten (cause : FailureCause) : AttemptTrace options attempt state inputs ([], .error cause)
  | unapproved (row : IntentRow) (id : String) (tail : List AttemptEvent) (cause : FailureCause)
      (hrunning : Unaborted inputs) (htail : tail = [] ∨ ∃ reason, tail = [.blocked attempt id reason]) :
      AttemptTrace options attempt state inputs (.intent attempt row id :: tail, .error cause)
  | refused (row : IntentRow) (id : String) (result : ResultRow) (cause : FailureCause)
      (hrunning : Unaborted inputs) :
      AttemptTrace options attempt state inputs
        ([.intent attempt row id, .body attempt, .result attempt id result false], .error cause)
  | ended (row : IntentRow) (id : String) (result : ResultRow) (exit : Except FailureCause PlainValue)
      (hrunning : Unaborted inputs) :
      AttemptTrace options attempt state inputs
        ([.intent attempt row id, .body attempt, .result attempt id result true], exit.map .inl)
  | cutOff (row : IntentRow) (id : String) (result : ResultRow) (delayMs : ℚ) (reason : RetryReason)
      (tail : List AttemptEvent) (cause : FailureCause) (hrunning : Unaborted inputs)
      (hretry : ∃ prepared failure, Retriable attempt inputs state.instantFailures id prepared failure)
      (hdelay : Delayed attempt inputs delayMs)
      (htail : CutShort options attempt inputs id reason delayMs tail) :
      AttemptTrace options attempt state inputs
        (.intent attempt row id :: .body attempt :: .result attempt id result true ::
          .retry attempt delayMs reason :: tail, .error cause)
  | again (row : IntentRow) (id : String) (result : ResultRow) (delayMs : ℚ) (reason : RetryReason)
      (next : LoopState) (hrunning : Unaborted inputs)
      (hretry : ∃ prepared failure, Retriable attempt inputs state.instantFailures id prepared failure ∧
        next.instantFailures = nextStreak inputs failure state.instantFailures)
      (hdelay : Delayed attempt inputs delayMs) (hkept : AlarmKept inputs) :
      AttemptTrace options attempt state inputs
        (.intent attempt row id :: .body attempt :: .result attempt id result true ::
          .retry attempt delayMs reason :: alarmEvents options attempt inputs id reason delayMs,
          .ok (.inr next))

inductive Answered (options : AttemptOptions) (attempt : ℕ) (state : LoopState)
    (inputs : AttemptInputs) (prepared : Prepared) (id : String) :
    Traced (PlainValue ⊕ LoopState) → Prop where
  | ended (exit : Except FailureCause PlainValue) :
      Answered options attempt state inputs prepared id ([], exit.map .inl)
  | cutOff (delayMs : ℚ) (reason : RetryReason) (tail : List AttemptEvent) (cause : FailureCause)
      (hretry : ∃ failure, FailedBody inputs failure ∧ Replayable attempt inputs failure
        (nextStreak inputs failure state.instantFailures) prepared.fallbackAvailable)
      (hdelay : Delayed attempt inputs delayMs)
      (htail : CutShort options attempt inputs id reason delayMs tail) :
      Answered options attempt state inputs prepared id
        (.retry attempt delayMs reason :: tail, .error cause)
  | again (delayMs : ℚ) (reason : RetryReason) (next : LoopState)
      (hretry : ∃ failure, FailedBody inputs failure ∧ Replayable attempt inputs failure
        (nextStreak inputs failure state.instantFailures) prepared.fallbackAvailable ∧
        next.instantFailures = nextStreak inputs failure state.instantFailures)
      (hdelay : Delayed attempt inputs delayMs) (hkept : AlarmKept inputs) :
      Answered options attempt state inputs prepared id
        (.retry attempt delayMs reason :: alarmEvents options attempt inputs id reason delayMs,
          .ok (.inr next))

lemma answerOutcome_answered (prepared : Prepared) (id : String) :
    Answered options attempt state inputs prepared id
      (answerOutcome options attempt state inputs prepared id inputs.body) := by
  cases hbody : inputs.body with
  | ok value => exact .ended (.ok value)
  | error cause =>
    rw [answerOutcome]
    cases hfailure : retryableFailure cause with
    | error stop => exact .ended (.error stop)
    | ok failure =>
      have hfailed : FailedBody inputs failure := ⟨cause, hbody, retryableFailure_ok hfailure⟩
      rw [Traced.ofExcept_ok_bind]
      cases hout : scheduleRetry options attempt inputs failure
        (nextStreak inputs failure state.instantFailures) prepared id with
      | mk events answer =>
        have hscheduled : Scheduled options attempt inputs failure
          (nextStreak inputs failure state.instantFailures) prepared id (events, answer) :=
          hout ▸ scheduleRetry_scheduled failure _ prepared id
        cases hscheduled with
        | stopped stop => exact .ended (.error stop)
        | cutOff delayMs reason tail stop hreplay hdelay htail =>
          exact .cutOff delayMs reason tail stop ⟨failure, hfailed, hreplay⟩ hdelay htail
        | settled delayMs reason hreplay hdelay hkept =>
          rw [Traced.bind_of_ok rfl]
          simp only [Traced.pure, append_nil]
          exact .again delayMs reason _ ⟨failure, hfailed, hreplay, rfl⟩ hdelay hkept

omit [PlainCoding] in
theorem executeAttempt_cases (options : AttemptOptions) (attempt : ℕ) (inputs : AttemptInputs)
    (prepared : Prepared) (id : String) : ∃ row,
    (∃ answer, inputs.appendResult = .ok answer ∧
      executeAttempt options attempt inputs prepared id =
        ([.body attempt, .result attempt id row true], .ok inputs.body)) ∨
      ∃ cause, executeAttempt options attempt inputs prepared id =
        ([.body attempt, .result attempt id row false], .error cause) := by
  refine ⟨resultRow options inputs prepared, ?_⟩
  unfold executeAttempt
  cases inputs.appendResult with
  | ok answer => exact .inl ⟨answer, rfl, rfl⟩
  | error cause => exact .inr ⟨cause, rfl⟩

lemma runAttempt_trace :
    AttemptTrace options attempt state inputs (runAttempt options attempt state inputs) := by
  unfold runAttempt
  split
  · exact .unwritten _
  · case isFalse hstart =>
    have hstarted : inputs.abortedAtStart = false := by simpa using hstart
    cases hout : admitAttempt options attempt state inputs with
    | mk events answer =>
      have hadmitted : Admitted options attempt state inputs (events, answer) :=
        hout ▸ admitAttempt_admitted
      cases hadmitted with
      | unwritten cause => exact .unwritten cause
      | unapproved prepared id tail cause hid hrunning htail =>
        exact .unapproved _ id tail cause ⟨hstarted, hrunning⟩ htail
      | ready prepared id hprepare hid hrunning hpassed =>
        have hgo : Unaborted inputs := ⟨hstarted, hrunning⟩
        rw [Traced.bind_of_ok rfl]
        obtain ⟨result, hexecuted⟩ := executeAttempt_cases options attempt inputs prepared id
        cases hexecuted with
        | inr hfail =>
          obtain ⟨cause, heq⟩ := hfail
          rw [heq, Traced.bind_of_error rfl]
          exact .refused _ id result cause hgo
        | inl hokay =>
          obtain ⟨answer, hwritten, heq⟩ := hokay
          rw [heq, Traced.bind_of_ok rfl]
          have hanswered : Answered options attempt state inputs prepared id
            (answerOutcome options attempt state inputs prepared id inputs.body) :=
            answerOutcome_answered prepared id
          cases hreply : answerOutcome options attempt state inputs prepared id inputs.body with
          | mk events answer =>
            rw [hreply] at hanswered
            cases hanswered with
            | ended exit => exact .ended _ id result exit hgo
            | cutOff delayMs reason tail cause hretry hdelay htail =>
              obtain ⟨failure, hfailed, hreplay⟩ := hretry
              exact .cutOff _ id result delayMs reason tail cause hgo ⟨prepared, failure,
                hgo, hprepare, hpassed, hid, hfailed, ⟨_, hwritten⟩, hreplay⟩ hdelay htail
            | again delayMs reason next hretry hdelay hkept =>
              obtain ⟨failure, hfailed, hreplay, hstreak⟩ := hretry
              exact .again _ id result delayMs reason next hgo ⟨prepared, failure,
                ⟨hgo, hprepare, hpassed, hid, hfailed, ⟨_, hwritten⟩, hreplay⟩, hstreak⟩ hdelay hkept

variable {events : List AttemptEvent} {next : LoopState}

theorem AttemptTrace.below (h : AttemptTrace options attempt state inputs (events, .ok (.inr next))) :
    attempt < maxAttempts := by
  generalize hout : (events, (Except.ok (.inr next) : Except FailureCause (PlainValue ⊕ LoopState))) =
    out at h
  cases h with
  | again row id result delayMs reason next hrunning hretry hdelay hkept =>
    obtain ⟨prepared, failure, hretriable, -⟩ := hretry
    exact hretriable.replayable.below
  | ended row id result exit hrunning =>
    cases exit <;> cases hout
  | _ => cases hout

lemma runAttempt_below (h : runAttempt options attempt state inputs = (events, .ok (.inr next))) :
    attempt < maxAttempts :=
  AttemptTrace.below (h ▸ runAttempt_trace)

/-- `loop` of `runAttempts`; `env` holds what the ports answer in each attempt. -/
def loop (options : AttemptOptions) (env : ℕ → AttemptInputs) (attempt : ℕ) (state : LoopState) :
    Traced PlainValue :=
  match _h : runAttempt options attempt state (env attempt) with
  | (events, .error cause) => (events, .error cause)
  | (events, .ok (.inl value)) => (events, .ok value)
  | (events, .ok (.inr next)) =>
    let rest := loop options env (attempt + 1) next
    (events ++ rest.1, rest.2)
termination_by maxAttempts - attempt
decreasing_by
  have hbelow := runAttempt_below _h
  omega

def runAttempts (options : AttemptOptions) (env : ℕ → AttemptInputs) : Traced PlainValue :=
  loop options env 1 .start

/-- The events of the loop from one attempt on: the attempts that were followed by another, and the
last. -/
inductive RunTrace (options : AttemptOptions) (env : ℕ → AttemptInputs) :
    ℕ → LoopState → List AttemptEvent → Prop where
  | last (attempt : ℕ) (state : LoopState) (events : List AttemptEvent)
      (out : Except FailureCause (PlainValue ⊕ LoopState)) (hout : ∀ next, out ≠ .ok (.inr next))
      (h : AttemptTrace options attempt state (env attempt) (events, out)) :
      RunTrace options env attempt state events
  | next (attempt : ℕ) (state next : LoopState) (events rest : List AttemptEvent)
      (h : AttemptTrace options attempt state (env attempt) (events, .ok (.inr next)))
      (tail : RunTrace options env (attempt + 1) next rest) :
      RunTrace options env attempt state (events ++ rest)

lemma loop_trace (options : AttemptOptions) (env : ℕ → AttemptInputs) (attempt : ℕ)
    (state : LoopState) : RunTrace options env attempt state (loop options env attempt state).1 := by
  fun_induction loop options env attempt state with
  | case1 attempt state events cause h =>
    exact .last _ _ _ (.error cause) (fun _ heq => by cases heq) (h ▸ runAttempt_trace)
  | case2 attempt state events value h =>
    exact .last _ _ _ (.ok (.inl value)) (fun _ heq => by cases heq) (h ▸ runAttempt_trace)
  | case3 attempt state events next h rest ih => exact .next _ _ _ _ _ (h ▸ runAttempt_trace) ih

section Facts
variable {events : List AttemptEvent} {out : Except FailureCause (PlainValue ⊕ LoopState)}

def AttemptEvent.isIntent : AttemptEvent → Bool
  | .intent .. => true
  | _ => false

def AttemptEvent.isBody : AttemptEvent → Bool
  | .body _ => true
  | _ => false

def AttemptEvent.isWrite : AttemptEvent → Bool
  | .intent .. => true
  | .result .. => true
  | _ => false

variable {n : ℕ} {id : String} {tail : List AttemptEvent} {e : AttemptEvent} {reason : RetryReason} {delayMs : ℚ}

omit [PlainCoding] in
lemma blocked_attempt (htail : tail = [] ∨ ∃ reason, tail = [.blocked n id reason]) (he : e ∈ tail) :
    ∃ reason, e = .blocked n id reason := by
  cases htail with
  | inl hnil => simp [hnil] at he
  | inr hone =>
    obtain ⟨reason, rfl⟩ := hone
    exact ⟨reason, mem_singleton.mp he⟩

theorem mem_alarmEvents (he : e ∈ alarmEvents options n inputs id reason delayMs) :
    (∃ row, e = .arm n row) ∨ (∃ fireAt, e = .waited n fireAt) ∨ ∃ row, e = .settle n row := by
  simp only [alarmEvents, mem_cons, not_mem_nil, or_false] at he
  obtain rfl | rfl | rfl := he
  · exact .inl ⟨_, rfl⟩
  · exact .inr (.inl ⟨_, rfl⟩)
  · exact .inr (.inr ⟨_, rfl⟩)

lemma mem_cutShort (htail : CutShort options n inputs id reason delayMs tail) (he : e ∈ tail) :
    (∃ row, e = .arm n row) ∨ (∃ fireAt, e = .waited n fireAt) ∨ ∃ row, e = .settle n row := by
  obtain rfl | ⟨-, rfl | rfl⟩ := htail
  · cases he
  · exact mem_alarmEvents (mem_of_mem_take he)
  · exact mem_alarmEvents (mem_of_mem_take he)

def AttemptEvent.Quiet (n : ℕ) (e : AttemptEvent) : Prop :=
  e.attempt = n ∧ e.isWrite = false ∧ e.isBody = false

/-- What the core of an attempt is: nothing, an intent, or a body between its intent and result. -/
inductive Core (n : ℕ) : List AttemptEvent → Prop where
  | unwritten : Core n []
  | intent (row : IntentRow) (id : String) : Core n [.intent n row id]
  | body (row : IntentRow) (id : String) (result : ResultRow) (committed : Bool) :
      Core n [.intent n row id, .body n, .result n id result committed]

theorem AttemptTrace.core (h : AttemptTrace options attempt state inputs (events, out)) :
    ∃ core tail, events = core ++ tail ∧ Core attempt core ∧ ∀ e ∈ tail, e.Quiet attempt := by
  cases h with
  | unwritten cause => exact ⟨[], [], rfl, .unwritten, forall_mem_nil _⟩
  | unapproved row id tail cause hrunning htail =>
    refine ⟨[_], tail, rfl, .intent row id, fun e he => ?_⟩
    obtain ⟨reason, rfl⟩ := blocked_attempt htail he
    exact ⟨rfl, rfl, rfl⟩
  | refused row id result cause hrunning => exact ⟨_, [], rfl, .body row id result false, forall_mem_nil _⟩
  | ended row id result exit hrunning => exact ⟨_, [], rfl, .body row id result true, forall_mem_nil _⟩
  | cutOff row id result delayMs reason tail cause hrunning hretry hdelay htail =>
    refine ⟨[_, _, _], _ :: tail, rfl, .body row id result true, fun e he => ?_⟩
    cases mem_cons.mp he with
    | inl heq => exact heq ▸ ⟨rfl, rfl, rfl⟩
    | inr hmem =>
      obtain ⟨_, rfl⟩ | ⟨_, rfl⟩ | ⟨_, rfl⟩ := mem_cutShort htail hmem <;>
        exact ⟨rfl, rfl, rfl⟩
  | again row id result delayMs reason next hrunning hretry hdelay hkept =>
    refine ⟨[_, _, _], _ :: alarmEvents options attempt inputs id reason delayMs, rfl,
      .body row id result true, fun e he => ?_⟩
    cases mem_cons.mp he with
    | inl heq => exact heq ▸ ⟨rfl, rfl, rfl⟩
    | inr hmem =>
      obtain ⟨_, rfl⟩ | ⟨_, rfl⟩ | ⟨_, rfl⟩ := mem_alarmEvents hmem <;> exact ⟨rfl, rfl, rfl⟩

lemma AttemptTrace.attempt_eq (h : AttemptTrace options attempt state inputs (events, out)) (he : e ∈ events) :
    e.attempt = attempt := by
  obtain ⟨core, tail, rfl, hcore, htail⟩ := h.core
  cases mem_append.mp he with
  | inr hquiet => exact (htail e hquiet).1
  | inl hmem =>
    cases hcore with
    | unwritten => cases hmem
    | intent row id =>
      rw [mem_singleton.mp hmem]
      rfl
    | body row id result committed =>
      simp only [mem_cons, not_mem_nil, or_false] at hmem
      obtain rfl | rfl | rfl := hmem <;> rfl

omit [PlainCoding] in
theorem quiet_writes (h : ∀ e ∈ tail, e.Quiet n) : tail.filter (·.isWrite) = [] ∧ tail.countP (·.isBody) = 0 :=
  ⟨filter_eq_nil_iff.mpr fun e he => by simp [(h e he).2.1],
    countP_eq_zero.mpr fun e he => by simp [(h e he).2.2]⟩

section
variable (h : AttemptTrace options attempt state inputs (events, out))
include h

theorem AttemptTrace.writes (hbody : .body attempt ∈ events) : ∃ row id result committed,
      events.filter (·.isWrite) = [.intent attempt row id, .result attempt id result committed] ∧
      events.countP (·.isBody) = 1 := by
  obtain ⟨core, tail, rfl, hcore, htail⟩ := h.core
  obtain ⟨hnone, hzero⟩ := quiet_writes htail
  have hin : .body attempt ∈ core := (mem_append.mp hbody).resolve_right fun hquiet =>
    absurd (htail _ hquiet).2.2 nofun
  cases hcore with
  | unwritten => cases hin
  | intent row id => cases mem_singleton.mp hin
  | body row id result committed =>
    refine ⟨row, id, result, committed, ?_, ?_⟩
    · rw [filter_append, hnone]
      rfl
    · rw [countP_append, hzero]
      rfl

lemma AttemptTrace.bodies_le :
    events.countP (·.isBody) ≤ 1 ∧ (events.filter (·.isWrite)).countP (·.isIntent) ≤ 1 := by
  obtain ⟨core, tail, rfl, hcore, htail⟩ := h.core
  obtain ⟨hnone, hzero⟩ := quiet_writes htail
  rw [countP_append, hzero, filter_append, hnone, append_nil]
  cases hcore with
  | unwritten => exact ⟨Nat.zero_le 1, Nat.zero_le 1⟩
  | intent row id => exact ⟨Nat.zero_le 1, Nat.le_refl 1⟩
  | body row id result committed => exact ⟨Nat.le_refl 1, Nat.le_refl 1⟩

lemma AttemptTrace.unaborted {row : IntentRow}
    (he : .intent attempt row id ∈ events) : Unaborted inputs := by
  cases h with
  | unwritten cause => cases he
  | unapproved _ _ _ _ hrunning | refused _ _ _ _ hrunning | ended _ _ _ _ hrunning
  | cutOff _ _ _ _ _ _ _ hrunning | again _ _ _ _ _ _ hrunning => exact hrunning

lemma AttemptTrace.delayed (he : .retry n delayMs reason ∈ events) : Delayed attempt inputs delayMs := by
  cases h with
  | unwritten cause => cases he
  | unapproved row id tail cause hrunning htail =>
    obtain ⟨_, heq⟩ := blocked_attempt htail ((mem_cons.mp he).resolve_left nofun)
    cases heq
  | refused | ended => simp at he
  | cutOff row id result _ _ tail cause hrunning hretry hdelay htail =>
    simp only [mem_cons, reduceCtorEq, false_or, AttemptEvent.retry.injEq] at he
    cases he with
    | inl heq => exact heq.2.1 ▸ hdelay
    | inr hmem => obtain ⟨_, heq⟩ | ⟨_, heq⟩ | ⟨_, heq⟩ := mem_cutShort htail hmem <;> cases heq
  | again row id result _ _ next hrunning hretry hdelay hkept =>
    simp only [mem_cons, reduceCtorEq, false_or, AttemptEvent.retry.injEq] at he
    cases he with
    | inl heq => exact heq.2.1 ▸ hdelay
    | inr hmem => obtain ⟨_, heq⟩ | ⟨_, heq⟩ | ⟨_, heq⟩ := mem_alarmEvents hmem <;> cases heq

end

theorem AttemptTrace.followed {next : LoopState}
    (h : AttemptTrace options attempt state inputs (events, .ok (.inr next))) :
    ∃ id, (∃ prepared failure, Retriable attempt inputs state.instantFailures id prepared failure ∧
        next.instantFailures = nextStreak inputs failure state.instantFailures) ∧
      ∃ before reason delayMs,
        events = before ++ alarmEvents options attempt inputs id reason delayMs := by
  generalize hout : (events, (Except.ok (.inr next) : Except FailureCause (PlainValue ⊕ LoopState))) =
    out at h
  cases h with
  | again row id result delayMs reason next hrunning hretry hdelay hkept =>
    cases hout
    exact ⟨id, hretry, [_, _, _, _], reason, delayMs, rfl⟩
  | ended row id result exit hrunning => cases exit <;> cases hout
  | _ => cases hout

theorem AttemptTrace.refusal (h : AttemptTrace options attempt state inputs (events, out)) {result : ResultRow}
    (he : .result n id result false ∈ events) :
    events.getLast? = some (.result n id result false) ∧ ∃ cause, out = .error cause := by
  cases h with
  | unwritten cause => cases he
  | unapproved row id tail cause hrunning htail =>
    obtain ⟨_, heq⟩ := blocked_attempt htail ((mem_cons.mp he).resolve_left nofun)
    cases heq
  | refused row id result cause hrunning =>
    simp only [mem_cons, reduceCtorEq, not_mem_nil, or_false, false_or] at he
    cases he
    exact ⟨rfl, cause, rfl⟩
  | ended => simp at he
  | cutOff row id result _ _ tail cause hrunning hretry hdelay htail =>
    simp only [mem_cons, reduceCtorEq, false_or, AttemptEvent.result.injEq, Bool.false_eq_true,
      and_false] at he
    obtain ⟨_, heq⟩ | ⟨_, heq⟩ | ⟨_, heq⟩ := mem_cutShort htail he <;> cases heq
  | again row id result _ _ next hrunning hretry hdelay hkept =>
    simp only [mem_cons, reduceCtorEq, false_or, AttemptEvent.result.injEq, Bool.false_eq_true,
      and_false] at he
    obtain ⟨_, heq⟩ | ⟨_, heq⟩ | ⟨_, heq⟩ := mem_alarmEvents he <;> cases heq

end Facts

end Attempts
end OpenOmni
