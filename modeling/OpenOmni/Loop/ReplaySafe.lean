import OpenOmni.Loop.AttemptRun

/-! No attempt is made that could replay what was seen: the attempt loop over whole runs. -/
namespace OpenOmni
open List

namespace Attempts

section
variable [PlainCoding] {options : AttemptOptions} {env : ℕ → AttemptInputs} {attempt : ℕ}
  {state : LoopState} {events : List AttemptEvent}

namespace RunTrace

variable {e : AttemptEvent} {n : ℕ} {row : IntentRow} {id : String}

section
variable (h : RunTrace options env attempt state events)
include h

lemma attempt_ge (he : e ∈ events) : attempt ≤ e.attempt := by
  induction h with
  | last attempt state events out hout h => exact (h.attempt_eq he).ge
  | next attempt state next events rest h tail ih =>
    cases mem_append.mp he with
    | inl hfirst => exact (h.attempt_eq hfirst).ge
    | inr hlater => exact (Nat.le_succ attempt).trans (ih hlater)

lemma attempt_le (hlimit : attempt ≤ maxAttempts) (he : e ∈ events) :
    e.attempt ≤ maxAttempts := by
  induction h with
  | last attempt state events out hout h => exact (h.attempt_eq he).le.trans hlimit
  | next attempt state next events rest h tail ih =>
    cases mem_append.mp he with
    | inl hfirst => exact (h.attempt_eq hfirst).le.trans hlimit
    | inr hlater => exact ih h.below hlater

theorem bodies_le (hlimit : attempt ≤ maxAttempts) :
    events.countP (·.isBody) + attempt ≤ maxAttempts + 1 ∧
      (events.filter (·.isWrite)).countP (·.isIntent) + attempt ≤ maxAttempts + 1 := by
  induction h with
  | last attempt state events out hout h =>
    obtain ⟨hbodies, hintents⟩ := h.bodies_le
    omega
  | next attempt state next events rest h tail ih =>
    obtain ⟨hbodies, hintents⟩ := h.bodies_le
    obtain ⟨hrest, hwrites⟩ := ih h.below
    rw [countP_append, filter_append, countP_append]
    omega

end

def ofAttempt (n : ℕ) (events : List AttemptEvent) : List AttemptEvent :=
  events.filter (·.attempt = n)

section
variable (h : RunTrace options env attempt state events)
include h

theorem ofAttempt_spec (he : e ∈ events) (hn : e.attempt = n) :
    ∃ state out,
      AttemptTrace options n state (env n) (ofAttempt n events, out) ∧
      ((∃ cause, out = .error cause) → ofAttempt n events <:+ events) := by
  induction h with
  | last attempt state events out hout h =>
    have hsame : attempt = n := (h.attempt_eq he).symm.trans hn
    subst hsame
    have hall : ofAttempt attempt events = events :=
      filter_eq_self.mpr fun x hx => by simp [h.attempt_eq hx]
    rw [hall]
    exact ⟨state, out, h, fun _ => suffix_rfl⟩
  | next attempt state next events rest h tail ih =>
    have hsplit : ofAttempt n (events ++ rest) = ofAttempt n events ++ ofAttempt n rest :=
      filter_append _ _
    cases mem_append.mp he with
    | inl hfirst =>
      have hsame : attempt = n := (h.attempt_eq hfirst).symm.trans hn
      subst hsame
      have hall : ofAttempt attempt events = events :=
        filter_eq_self.mpr fun x hx => by simp [h.attempt_eq hx]
      have hnone : ofAttempt attempt rest = [] := filter_eq_nil_iff.mpr fun x hx => by
        have hlate := tail.attempt_ge hx
        simp only [decide_eq_true_eq]
        omega
      rw [hsplit, hall, hnone, append_nil]
      exact ⟨state, _, h, fun ⟨cause, heq⟩ => by cases heq⟩
    | inr hlater =>
      have hnone : ofAttempt n events = [] := filter_eq_nil_iff.mpr fun x hx => by
        have hlate := tail.attempt_ge hlater
        rw [hn] at hlate
        simp only [h.attempt_eq hx, decide_eq_true_eq]
        omega
      rw [hsplit, hnone, nil_append]
      obtain ⟨state', out, htrace, hsuffix⟩ := ih hlater
      exact ⟨state', out, htrace, fun hstop => (hsuffix hstop).trans (suffix_append _ _)⟩

theorem preceded (hn : attempt ≤ n)
    (he : .intent (n + 1) row id ∈ events) :
    ∃ id', (∃ streak prepared failure, Retriable n (env n) streak id' prepared failure) ∧
      ∃ before after reason delayMs, events = before ++ .intent (n + 1) row id :: after ∧
        alarmEvents options n (env n) id' reason delayMs <:+: before := by
  induction h with
  | last attempt state events out hout h =>
    have hsame : n + 1 = attempt := h.attempt_eq he
    omega
  | next attempt state next events rest h tail ih =>
    cases mem_append.mp he with
    | inl hfirst =>
      have hsame : n + 1 = attempt := h.attempt_eq hfirst
      omega
    | inr hlater =>
      cases Nat.eq_or_lt_of_le hn with
      | inl hfirst =>
        subst hfirst
        obtain ⟨id', ⟨prepared, failure, hretry, -⟩, before, reason, delayMs, halarm⟩ := h.followed
        obtain ⟨between, after, hsplit⟩ := append_of_mem hlater
        refine ⟨id', ⟨_, prepared, failure, hretry⟩, events ++ between, after, reason, delayMs, ?_,
          before, between, ?_⟩
        · rw [hsplit, append_assoc]
        · rw [halarm]
      | inr hafter =>
        obtain ⟨id', hretry, before, after, reason, delayMs, hsplit, hinfix⟩ := ih hafter hlater
        refine ⟨id', hretry, events ++ before, after, reason, delayMs, ?_, ?_⟩
        · rw [hsplit, append_assoc]
        · exact hinfix.trans (suffix_append _ _).isInfix

lemma delayed {delayMs : ℚ} {reason : RetryReason}
    (he : .retry n delayMs reason ∈ events) : Delayed n (env n) delayMs := by
  obtain ⟨_, _, htrace, -⟩ := h.ofAttempt_spec he rfl
  exact htrace.delayed (mem_filter.mpr ⟨he, by simp [AttemptEvent.attempt]⟩)

lemma unaborted (he : .intent n row id ∈ events) :
    Unaborted (env n) := by
  obtain ⟨_, _, htrace, -⟩ := h.ofAttempt_spec he rfl
  exact htrace.unaborted (mem_filter.mpr ⟨he, by simp [AttemptEvent.attempt]⟩)

lemma writes (he : .body n ∈ events) : ∃ row id result committed,
      (ofAttempt n events).filter (·.isWrite) = [.intent n row id, .result n id result committed] ∧
      (ofAttempt n events).countP (·.isBody) = 1 := by
  obtain ⟨_, _, htrace, -⟩ := h.ofAttempt_spec he rfl
  exact htrace.writes (mem_filter.mpr ⟨he, by simp [AttemptEvent.attempt]⟩)

lemma refusal {result : ResultRow}
    (he : .result n id result false ∈ events) : events.getLast? = some (.result n id result false) := by
  obtain ⟨_, _, htrace, hsuffix⟩ := h.ofAttempt_spec he rfl
  obtain ⟨hlast, hstop⟩ :=
    htrace.refusal (mem_filter.mpr ⟨he, by simp [AttemptEvent.attempt]⟩)
  obtain ⟨before, heq⟩ := hsuffix hstop
  rw [← heq, getLast?_append]
  simp only [AttemptEvent.attempt] at hlast ⊢
  rw [hlast, Option.some_or]

end

end RunTrace

structure ReplaySafe (options : AttemptOptions) (env : ℕ → AttemptInputs)
    (events : List AttemptEvent) : Prop where
  /-- The attempts are numbered from one up to the limit, which bounds their intents and bodies. -/
  limit : (∀ e ∈ events, 1 ≤ e.attempt ∧ e.attempt ≤ maxAttempts) ∧
    events.countP (·.isBody) ≤ maxAttempts ∧
    (events.filter (·.isWrite)).countP (·.isIntent) ≤ maxAttempts
  running : ∀ n row id, .intent n row id ∈ events → Unaborted (env n)
  /-- Another attempt starts only behind a failure that may be replayed, and behind its alarm: armed,
  waited for and settled. -/
  preceded : ∀ n row id, 1 ≤ n → .intent (n + 1) row id ∈ events →
    ∃ id', (∃ streak prepared failure, Retriable n (env n) streak id' prepared failure) ∧
      ∃ before after reason delayMs, events = before ++ .intent (n + 1) row id :: after ∧
        alarmEvents options n (env n) id' reason delayMs <:+: before
  writes : ∀ n, .body n ∈ events → ∃ row id result committed,
    (RunTrace.ofAttempt n events).filter (·.isWrite) =
      [.intent n row id, .result n id result committed] ∧
    (RunTrace.ofAttempt n events).countP (·.isBody) = 1
  refusal : ∀ n id result, .result n id result false ∈ events →
    events.getLast? = some (.result n id result false)
  delays : ∀ n delayMs reason, .retry n delayMs reason ∈ events → Bounded delayMs

/-- Every run of the attempt loop is safe to replay, given that the jitter is drawn from the unit
interval; and so is the delay of any attempt number. -/
theorem attempts_replay_safe (options : AttemptOptions) (env : ℕ → AttemptInputs)
    (hrandom : ∀ n, 0 ≤ (env n).random ∧ (env n).random ≤ 1) :
    ReplaySafe options env (runAttempts options env).1 ∧
      ∀ (attempt : ℤ) (failure : FailureClass) (n streak : ℕ) (recover fallbackAvailable : Bool),
        Bounded (retryDelay recover
          (decideRetry attempt failure (env n).random streak fallbackAvailable)) := by
  have htrace : RunTrace options env 1 .start (runAttempts options env).1 :=
    loop_trace options env 1 .start
  have hone : 1 ≤ maxAttempts := by decide
  have hbounded (attempt : ℤ) (failure : FailureClass) (n streak : ℕ)
      (recover fallbackAvailable : Bool) : Bounded (retryDelay recover
        (decideRetry attempt failure (env n).random streak fallbackAvailable)) :=
    retryDelay_bounded recover
      (decideRetry_bounded attempt failure streak fallbackAvailable (hrandom n).1 (hrandom n).2)
  obtain ⟨hbodies, hintents⟩ := htrace.bodies_le hone
  refine ⟨⟨⟨fun e he => ⟨htrace.attempt_ge he, htrace.attempt_le hone he⟩, by omega, by omega⟩,
    fun n row id he => htrace.unaborted he, fun n row id hn he => htrace.preceded hn he,
    fun n he => htrace.writes he, fun n id result he => htrace.refusal he,
    fun n delayMs reason he => ?_⟩, hbounded⟩
  obtain ⟨failure, streak, recover, fallbackAvailable, rfl⟩ := (htrace.delayed he).computed
  exact hbounded n _ n streak recover fallbackAvailable

theorem loop_extends (options : AttemptOptions) (env : ℕ → AttemptInputs) (attempt : ℕ)
    (state : LoopState) :
    (runAttempt options attempt state (env attempt)).1 <+: (loop options env attempt state).1 := by
  rw [loop]
  split
  · case h_1 events cause h => exact h ▸ prefix_rfl
  · case h_2 events value h => exact h ▸ prefix_rfl
  · case h_3 events next h =>
    rw [h]
    exact prefix_append _ _

lemma loop_again {events : List AttemptEvent} {next : LoopState}
    (h : runAttempt options attempt state (env attempt) = (events, .ok (.inr next))) :
    (loop options env attempt state).1 = events ++ (loop options env (attempt + 1) next).1 := by
  rw [loop]
  split
  · case h_1 heq => cases h.symm.trans heq
  · case h_2 heq => cases h.symm.trans heq
  · case h_3 heq =>
    cases h.symm.trans heq
    rfl

end

/-- Ports that answer at once: a body that fails, a classification, and nothing else in the way. -/
def failingInputs (failure : LlmRunFailure) (failureClass : FailureClass) (id : String) :
    AttemptInputs where
  abortedAtStart := false
  prepare := .ok ⟨"chat", .null, .null, true⟩
  policy := .ok ⟨.allow, []⟩
  admitBody := .ok ()
  abortedAtIntent := false
  appendIntent := .ok id
  approve := .ok .approve
  appendBlocked := .ok ()
  started := 0
  body := .error [.fail (.llmRunFailure failure)]
  appendResult := .ok ()
  classify := fun _ => failureClass
  ended := 0
  abortedAtFailure := false
  random := 0
  recoverOverflow := none
  now := 0
  commitArm := .ok ()
  send := .ok ()
  wait := .ok ()
  settledAt := 0
  commitSettle := .ok ()

def plainOptions : AttemptOptions := ⟨"parent", "session", none, fun _ => .null⟩

/-- Every attempt is refused with a status 400 while a fallback model is left. -/
def refusedEnv (n : ℕ) : AttemptInputs :=
  failingInputs ⟨false, false, none⟩ (.terminal .validationError .nonRetryable (some 400) none)
    (toString n)

theorem attempts_replay_safe_refused :
    letI := textCoding
    ReplaySafe plainOptions refusedEnv (runAttempts plainOptions refusedEnv).1 :=
  letI := textCoding
  (attempts_replay_safe plainOptions refusedEnv fun _ => ⟨le_rfl, zero_le_one⟩).1

/-- A refusal with status 400 is terminal, and a second attempt is made all the same. -/
theorem terminal_error_rerouted :
    letI := textCoding
    ¬ ∀ (options : AttemptOptions) (env : ℕ → AttemptInputs) (n : ℕ) (row : IntentRow) (id : String)
      (failure : AttemptError), .intent (n + 1) row id ∈ (runAttempts options env).1 →
      FailedBody (env n) failure → ∀ reason providerReason status detail,
        (env n).classify failure ≠ .terminal reason providerReason status detail := by
  let _ := textCoding
  intro hall
  have hfirst : ∃ events next, runAttempt plainOptions 1 .start (refusedEnv 1) =
      (events, .ok (.inr next)) := ⟨_, _, rfl⟩
  obtain ⟨events, next, hfirst⟩ := hfirst
  have hsecond : ∃ row, .intent 2 row "2" ∈ (runAttempt plainOptions 2 next (refusedEnv 2)).1 :=
    ⟨_, mem_cons_self⟩
  obtain ⟨row, hsecond⟩ := hsecond
  have hin : .intent (1 + 1) row "2" ∈ (runAttempts plainOptions refusedEnv).1 := by
    rw [runAttempts, loop_again hfirst]
    exact mem_append_right _ ((loop_extends _ _ _ _).subset hsecond)
  exact hall _ _ _ _ _ _ hin ⟨_, rfl, rfl, rfl, rfl⟩ _ _ _ _ rfl

end Attempts
end OpenOmni
