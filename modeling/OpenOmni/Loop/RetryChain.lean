import OpenOmni.Loop.ReplaySafe

/-! The retry alarms of a run as a chain of supersessions, and the one run that breaks it. -/
namespace OpenOmni
open List

namespace Attempts

section
variable [PlainCoding]

def AttemptEvent.retryRow : AttemptEvent → Option Arm
  | .arm _ row => some row
  | .settle _ row => some row
  | _ => none

def retryRows (events : List AttemptEvent) : List Arm := events.filterMap (·.retryRow)

/-- A row goes on from the rows before it: it supersedes none, or an occurrence of its own alarm, and
its number is above those of its alarm. -/
def Linked (before : List Arm) (row : Arm) : Prop :=
  (row.supersedes = none ∨ ∃ earlier ∈ before,
    earlier.alarmId = row.alarmId ∧ row.supersedes = some earlier.occurrenceId) ∧
  ∀ earlier ∈ before, earlier.alarmId = row.alarmId → earlier.armSeq < row.armSeq

def Chained (rows : List Arm) : Prop :=
  ∀ before row after, rows = before ++ row :: after → Linked before row

lemma chained_nil : Chained [] := fun before row after h => by
  simp at h

lemma chained_snoc {rows : List Arm} {row : Arm} (h : Chained rows) (hrow : Linked rows row) :
    Chained (rows ++ [row]) := by
  intro before other after heq
  cases eq_nil_or_concat after with
  | inl hnil =>
    subst hnil
    obtain ⟨hbefore, hone⟩ := append_inj' heq rfl
    rw [← hbefore, ← singleton_inj.mp hone]
    exact hrow
  | inr hlast =>
    obtain ⟨middle, last, rfl⟩ := hlast
    rw [concat_eq_append, ← cons_append, ← append_assoc] at heq
    exact h before other middle (append_inj' heq rfl).1

omit [PlainCoding] in
lemma retryRows_append (first later : List AttemptEvent) :
    retryRows (first ++ later) = retryRows first ++ retryRows later := filterMap_append

variable {sessionId id : String} {attempt : ℕ} {reason : RetryReason} {fireAt clock : ℚ}

variable {before : List Arm}

theorem linked_first (hbefore : ∀ earlier ∈ before, earlier.alarmId ≠ alarmIdOf id) :
    Linked before (retryArm sessionId ⟨id, 1, reason, fireAt⟩) :=
  ⟨.inl rfl, fun earlier hearlier heq => absurd heq (hbefore earlier hearlier)⟩

theorem linked_settle (harm : retryArm sessionId ⟨id, attempt, reason, fireAt⟩ ∈ before)
    (hbefore : ∀ earlier ∈ before, earlier.alarmId = alarmIdOf id → earlier.armSeq < 2 * attempt) :
    Linked before (retrySettle sessionId id attempt clock) :=
  ⟨.inr ⟨_, harm, rfl, rfl⟩, hbefore⟩

def pairRows (sessionId id : String) (attempt : ℕ) (reason : RetryReason) (fireAt clock : ℚ) :
    List Arm :=
  [retryArm sessionId ⟨id, attempt, reason, fireAt⟩, retrySettle sessionId id attempt clock]

lemma chained_first : Chained [retryArm sessionId ⟨id, 1, reason, fireAt⟩] :=
  chained_snoc chained_nil (linked_first nofun)

lemma chained_pair : Chained (pairRows sessionId id 1 reason fireAt clock) := by
  refine chained_snoc chained_first (linked_settle mem_cons_self ?_)
  intro earlier hearlier _
  rw [mem_singleton.mp hearlier]
  exact Nat.lt_add_one 1

variable {id' : String} {reason' : RetryReason} {fireAt' clock' : ℚ}

theorem linked_second : Linked (pairRows sessionId id 1 reason fireAt clock)
    (retryArm sessionId ⟨id', 2, reason', fireAt'⟩) ↔ id = id' := by
  constructor
  · intro hlinked
    cases hlinked.1 with
    | inl hnone => cases hnone
    | inr hearlier =>
      obtain ⟨earlier, hmem, halarm, -⟩ := hearlier
      have hboth : earlier.alarmId = alarmIdOf id := by
        simp only [pairRows, mem_cons, not_mem_nil, or_false] at hmem
        obtain rfl | rfl := hmem <;> rfl
      exact alarmIdOf_injective (hboth.symm.trans halarm)
  · rintro rfl
    refine ⟨.inr ⟨_, mem_cons_self, rfl, rfl⟩, fun earlier hmem _ => ?_⟩
    simp only [pairRows, mem_cons, not_mem_nil, or_false] at hmem
    obtain rfl | rfl := hmem
    · exact (by decide : 1 < 3)
    · exact (by decide : 2 < 3)

lemma chained_second (hsame : id = id') : Chained (pairRows sessionId id 1 reason fireAt clock ++
    [retryArm sessionId ⟨id', 2, reason', fireAt'⟩]) :=
  chained_snoc chained_pair (linked_second.mpr hsame)

lemma chained_pairs (hsame : id = id') : Chained (pairRows sessionId id 1 reason fireAt clock ++
    pairRows sessionId id' 2 reason' fireAt' clock') := by
  have hchained : Chained (pairRows sessionId id 1 reason fireAt clock ++
    [retryArm sessionId ⟨id', 2, reason', fireAt'⟩]) := chained_second hsame
  have hsettle : Linked (pairRows sessionId id 1 reason fireAt clock ++
      [retryArm sessionId ⟨id', 2, reason', fireAt'⟩]) (retrySettle sessionId id' 2 clock') := by
    refine linked_settle (mem_append_right _ mem_cons_self) fun earlier hmem _ => ?_
    simp only [pairRows, mem_append, mem_cons, not_mem_nil, or_false] at hmem
    obtain (rfl | rfl) | rfl := hmem
    · exact (by decide : 1 < 4)
    · exact (by decide : 2 < 4)
    · exact (by decide : 3 < 4)
  have hall := chained_snoc hchained hsettle
  rwa [append_assoc] at hall

end

section
variable [PlainCoding] {options : AttemptOptions} {env : ℕ → AttemptInputs} {attempt : ℕ}
  {state : LoopState} {inputs : AttemptInputs} {events : List AttemptEvent}

/-- The rows of one attempt: none, an arm, or an arm and its settlement. -/
inductive AttemptRows (options : AttemptOptions) (attempt : ℕ) (streak : ℕ) (inputs : AttemptInputs) :
    List Arm → Prop where
  | none : AttemptRows options attempt streak inputs []
  | armed (id : String) (prepared : Prepared) (failure : AttemptError) (reason : RetryReason)
      (fireAt : ℚ) (hretry : Retriable attempt inputs streak id prepared failure)
      (harm : ∃ answer, inputs.commitArm = .ok answer) :
      AttemptRows options attempt streak inputs [retryArm options.sessionId ⟨id, attempt, reason, fireAt⟩]

variable {id : String} {prepared : Prepared} {failure : AttemptError} {streak : ℕ}

omit [PlainCoding] in
lemma retryRows_blocked {n : ℕ} {tail : List AttemptEvent}
    (htail : tail = [] ∨ ∃ reason, tail = [.blocked n id reason]) : retryRows tail = [] := by
  cases htail with
  | inl hnil => rw [hnil]; rfl
  | inr hone =>
    obtain ⟨reason, rfl⟩ := hone
    rfl

theorem AttemptTrace.lastRows {out : Except FailureCause (PlainValue ⊕ LoopState)}
    (h : AttemptTrace options attempt state inputs (events, out))
    (hout : ∀ next, out ≠ .ok (.inr next)) :
    AttemptRows options attempt state.instantFailures inputs (retryRows events) := by
  cases h with
  | unwritten cause | refused | ended => exact .none
  | unapproved row id tail cause hrunning htail =>
    have hblocked : retryRows tail = [] := retryRows_blocked htail
    have hnone : retryRows (.intent attempt row id :: tail) = [] := hblocked
    rw [hnone]
    exact .none
  | cutOff row id result delayMs reason tail cause hrunning hretry hdelay htail =>
    obtain ⟨prepared, failure, hretry⟩ := hretry
    obtain rfl | ⟨harm, rfl | rfl⟩ := htail
    · exact .none
    · exact .armed id prepared failure reason _ hretry harm
    · exact .armed id prepared failure reason _ hretry harm
  | again row id result delayMs reason next => exact absurd rfl (hout next)

theorem AttemptTrace.pairRows {next : LoopState}
    (h : AttemptTrace options attempt state inputs (events, .ok (.inr next))) :
    ∃ id prepared failure reason fireAt, Retriable attempt inputs state.instantFailures id prepared
        failure ∧ AlarmKept inputs ∧
      next.instantFailures = nextStreak inputs failure state.instantFailures ∧
      retryRows events =
        Attempts.pairRows options.sessionId id attempt reason fireAt inputs.settledAt := by
  generalize hout : (events, (Except.ok (.inr next) : Except FailureCause (PlainValue ⊕ LoopState))) =
    out at h
  cases h with
  | again row id result delayMs reason next hrunning hretry hdelay hkept =>
    cases hout
    obtain ⟨prepared, failure, hretry, hstreak⟩ := hretry
    exact ⟨id, prepared, failure, reason, _, hretry, hkept, hstreak, rfl⟩
  | ended row id result exit hrunning => cases exit <;> cases hout
  | _ => cases hout

/-- Two retries under different intents: the second attempt fails in a way that is retried too, and
its arm is committed. -/
def SecondRetry (env : ℕ → AttemptInputs) : Prop :=
  ∃ id prepared failure id' prepared' failure', Retriable 1 (env 1) 0 id prepared failure ∧
    AlarmKept (env 1) ∧
    Retriable 2 (env 2) (nextStreak (env 1) failure 0) id' prepared' failure' ∧
    (∃ answer, (env 2).commitArm = .ok answer) ∧ id ≠ id'

theorem RunTrace.rows_limit (h : RunTrace options env attempt state events)
    (hlimit : maxAttempts ≤ attempt) : retryRows events = [] := by
  cases h with
  | last _ _ _ out hout h =>
    have hrows := h.lastRows hout
    generalize retryRows events = rows at hrows
    cases hrows with
    | none => rfl
    | armed id prepared failure reason fireAt hretry harm =>
      exact absurd hretry.replayable.below (Nat.not_lt.mpr hlimit)
  | next _ _ next events rest h tail => exact absurd h.below (Nat.not_lt.mpr hlimit)

theorem RunTrace.rows_second (h : RunTrace options env 2 state events) (hno : ¬ SecondRetry env)
    (hfirst : Retriable 1 (env 1) 0 id prepared failure) (hkept : AlarmKept (env 1))
    (hstreak : state.instantFailures = nextStreak (env 1) failure 0) (reason : RetryReason) (fireAt clock : ℚ) :
    Chained (pairRows options.sessionId id 1 reason fireAt clock ++ retryRows events) := by
  have hsame : ∀ id' prepared' failure',
      Retriable 2 (env 2) state.instantFailures id' prepared' failure' →
      (∃ answer, (env 2).commitArm = .ok answer) → id = id' := by
    intro id' prepared' failure' hsecond harm
    by_contra hne
    exact hno ⟨id, prepared, failure, id', prepared', failure', hfirst, hkept, hstreak ▸ hsecond, harm,
      hne⟩
  cases h with
  | last _ _ _ out hout h =>
    have hrows := h.lastRows hout
    generalize retryRows events = rows at hrows
    cases hrows with
    | none =>
      rw [append_nil]
      exact chained_pair
    | armed id' prepared' failure' reason' fireAt' hsecond harm =>
      exact chained_second (hsame id' prepared' failure' hsecond harm)
  | next _ _ next events rest h tail =>
    obtain ⟨id', prepared', failure', reason', fireAt', hsecond, hkept', -, hpair⟩ := h.pairRows
    rw [retryRows_append, tail.rows_limit le_rfl, append_nil, hpair]
    exact chained_pairs (hsame id' prepared' failure' hsecond hkept'.armed)

theorem chained_of_not_secondRetry (hno : ¬ SecondRetry env) :
    Chained (retryRows (runAttempts options env).1) := by
  have htrace : RunTrace options env 1 .start (runAttempts options env).1 :=
    loop_trace options env 1 .start
  generalize (runAttempts options env).1 = events at htrace
  cases htrace with
  | last _ _ _ out hout h =>
    have hrows := h.lastRows hout
    generalize retryRows events = rows at hrows
    cases hrows with
    | none => exact chained_nil
    | armed id prepared failure reason fireAt hretry harm => exact chained_first
  | next _ _ next events rest h tail =>
    obtain ⟨id, prepared, failure, reason, fireAt, hretry, hkept, hstreak, hpair⟩ := h.pairRows
    rw [retryRows_append, hpair]
    exact tail.rows_second hno hretry hkept hstreak reason fireAt _

theorem admitAttempt_of_passed (hpassed : Passed attempt inputs) (hprepare : inputs.prepare = .ok prepared)
    (hid : inputs.appendIntent = .ok id) (hrunning : inputs.abortedAtIntent = false) :
    admitAttempt options attempt state inputs =
      ([.intent attempt (intentRow options attempt state prepared) id], .ok (prepared, id)) := by
  obtain ⟨hjudged, answer, hadmit⟩ := hpassed
  have hpolicy : ∃ policy, admitPolicy attempt inputs = .pure policy ∧ policyDenies policy = none ∧
      approveAttempt attempt inputs id policy = .pure () := by
    by_cases hfirst : attempt = 1
    · exact ⟨none, by rw [admitPolicy, if_pos hfirst], rfl, rfl⟩
    · obtain ⟨admission, hadmission, hdeny, htransform, happrove⟩ := hjudged.resolve_left hfirst
      refine ⟨some admission, by rw [admitPolicy, if_neg hfirst, hadmission]; rfl, ?_, ?_⟩
      · cases admission with
        | mk verdict ruleIds =>
          cases verdict with
          | deny => exact absurd rfl hdeny
          | transform => exact absurd rfl htransform
          | _ => rfl
      · cases admission with
        | mk verdict ruleIds =>
          cases verdict with
          | requireApproval =>
            rw [approveAttempt, happrove rfl]
            rfl
          | _ => rfl
  obtain ⟨policy, hadmitted, hallowed, happroved⟩ := hpolicy
  simp only [admitAttempt, hprepare, Traced.ofExcept_ok_bind, hadmitted, Traced.pure_bind, hallowed,
    hadmit, hrunning, Bool.false_eq_true, if_false, hid, Traced.emit_ok_bind, happroved]
  rfl

omit [PlainCoding] in
lemma failureRequiresStop_of_replayable {fallbackAvailable : Bool}
    (h : Replayable attempt inputs failure streak fallbackAvailable) :
    failureRequiresStop failure inputs.abortedAtFailure = false := by
  cases failure with
  | commitFailed => exact absurd rfl h.committed
  | llmRunFailure llm =>
    obtain ⟨haborted, hvisible⟩ := h.unseen llm rfl
    simp only [failureRequiresStop, h.running, haborted, hvisible, Bool.or_false]
  | policyDenied | other => exact h.running

theorem scheduleRetry_of_replayable (options : AttemptOptions) (id : String)
    (h : Replayable attempt inputs failure streak prepared.fallbackAvailable) :
    ∃ delayMs reason, scheduleRetry options attempt inputs failure streak prepared id =
      (.retry attempt delayMs reason :: (retryAlarm options attempt inputs id reason delayMs).1,
        (retryAlarm options attempt inputs id reason delayMs).2.map fun _ => reason) := by
  have hstop := failureRequiresStop_of_replayable h
  have hlive := h.live
  have hbelow := Nat.not_le.mpr h.below
  have hrecover : ∃ recover, recoverOverflow inputs (inputs.classify failure) = .pure recover ∧
      (!recover && (inputs.classify failure = .overflow || !(decideRetry attempt
        (inputs.classify failure) inputs.random streak prepared.fallbackAvailable).retries)) =
        false := by
    by_cases hoverflow : inputs.classify failure = .overflow
    · refine ⟨true, ?_, rfl⟩
      rw [recoverOverflow, if_pos hoverflow, h.recovered hoverflow]
      rfl
    · refine ⟨false, by rw [recoverOverflow, if_neg hoverflow], ?_⟩
      simp [hoverflow, h.decided.resolve_left hoverflow]
  obtain ⟨recover, hanswer, hgo⟩ := hrecover
  refine ⟨retryDelay recover (decideRetry attempt (inputs.classify failure) inputs.random streak
    prepared.fallbackAvailable), if recover then .contextOverflow
      else attemptReason (inputs.classify failure), ?_⟩
  simp only [scheduleRetry, hstop, hlive, decide_false, Bool.or_false, Bool.false_eq_true, if_false,
    hbelow, hanswer, Traced.pure_bind, hgo, Traced.emit_ok_bind]
  generalize retryAlarm options attempt inputs id _ _ = alarm
  cases alarm with
  | mk events answer =>
    cases answer with
    | error cause => rfl
    | ok _ => simp [Traced.bind, Traced.pure, Except.map]

theorem runAttempt_of_retriable (options : AttemptOptions)
    (h : Retriable attempt inputs state.instantFailures id prepared failure) :
    ∃ before delayMs reason next, retryRows before = [] ∧
      next.instantFailures = nextStreak inputs failure state.instantFailures ∧
      runAttempt options attempt state inputs =
        (before ++ (retryAlarm options attempt inputs id reason delayMs).1,
          (retryAlarm options attempt inputs id reason delayMs).2.map fun _ => .inr next) := by
  obtain ⟨cause, hbody, hinterrupts, hdies, herror⟩ := h.failed
  obtain ⟨answer, hresult⟩ := h.recorded
  have hadmitted : admitAttempt options attempt state inputs = _ :=
    admitAttempt_of_passed h.passed h.offered h.written h.running.2
  obtain ⟨delayMs, reason, hscheduled⟩ :=
    scheduleRetry_of_replayable options id h.replayable
  have hfailure : retryableFailure cause = .ok failure := by
    simp only [retryableFailure, hinterrupts, hdies, Bool.or_false, Bool.false_eq_true, if_false, herror]
  refine ⟨[.intent attempt (intentRow options attempt state prepared) id, .body attempt,
    .result attempt id (resultRow options inputs prepared) true, .retry attempt delayMs reason],
    delayMs, reason, ⟨state.failures ++ [reason], nextStreak inputs failure state.instantFailures,
      some ⟨id, prepared.intent⟩⟩, rfl, rfl, ?_⟩
  simp only [runAttempt, h.running.1, Bool.false_eq_true, if_false, hadmitted]
  rw [Traced.bind_of_ok rfl]
  simp only [executeAttempt, hresult]
  rw [Traced.bind_of_ok rfl]
  simp only [hbody, answerOutcome, hfailure, Traced.ofExcept_ok_bind, hscheduled]
  generalize retryAlarm options attempt inputs id reason delayMs = alarm
  cases alarm with
  | mk events answer =>
    cases answer with
    | error cause => rfl
    | ok _ => simp [Traced.bind, Traced.pure, Except.map]

lemma retryAlarm_of_kept {reason : RetryReason} {delayMs : ℚ} (h : AlarmKept inputs) :
    retryAlarm options attempt inputs id reason delayMs =
      (alarmEvents options attempt inputs id reason delayMs, .ok ()) := by
  obtain ⟨⟨_, harm⟩, ⟨_, hsend⟩, ⟨_, hwait⟩, ⟨_, hsettle⟩⟩ := h
  simp only [retryAlarm, harm, Traced.emit_ok_bind, hsend, Traced.ofExcept_ok_bind, hwait, hsettle]
  rfl

lemma retryAlarm_of_armed (options : AttemptOptions) (attempt : ℕ) (id : String)
    (reason : RetryReason) (delayMs : ℚ) (h : ∃ answer, inputs.commitArm = .ok answer) :
    ∃ tail, (retryAlarm options attempt inputs id reason delayMs).1 =
      .arm attempt (retryArm options.sessionId ⟨id, attempt, reason, inputs.now + delayMs⟩) :: tail := by
  obtain ⟨_, harm⟩ := h
  rw [retryAlarm, harm]
  exact ⟨_, rfl⟩

theorem not_chained_of_secondRetry (h : SecondRetry env) :
    ¬ Chained (retryRows (runAttempts options env).1) := by
  obtain ⟨id, prepared, failure, id', prepared', failure', hfirst, hkept, hsecond, harmed, hne⟩ := h
  intro hchained
  have hfirst : Retriable 1 (env 1) LoopState.start.instantFailures id prepared failure := hfirst
  have hstart : ∃ before delayMs reason next, retryRows before = [] ∧
      next.instantFailures = nextStreak (env 1) failure 0 ∧
      runAttempt options 1 .start (env 1) =
        (before ++ (retryAlarm options 1 (env 1) id reason delayMs).1,
          (retryAlarm options 1 (env 1) id reason delayMs).2.map fun _ => .inr next) :=
    runAttempt_of_retriable options hfirst
  obtain ⟨before, delayMs, reason, next, hnone, hstreak, hrun⟩ := hstart
  rw [retryAlarm_of_kept hkept] at hrun
  obtain ⟨before', delayMs', reason', next', hnone', -, hrun'⟩ :=
    runAttempt_of_retriable options (hstreak ▸ hsecond)
  obtain ⟨tail, harm⟩ := retryAlarm_of_armed options 2 id' reason' delayMs' harmed
  obtain ⟨later, hlater⟩ := loop_extends options env 2 next
  rw [hrun', harm] at hlater
  rw [runAttempts, loop_again hrun, ← hlater, retryRows_append, retryRows_append, hnone,
    nil_append, retryRows_append, retryRows_append, hnone', nil_append] at hchained
  exact hne (linked_second.mp (hchained _ _ (retryRows tail ++ retryRows later) rfl))

/-- The retry rows of a run form one supersession chain exactly when no second retry is armed under
an intent of its own. -/
theorem retry_rows_chained_iff (options : AttemptOptions) (env : ℕ → AttemptInputs) :
    Chained (retryRows (runAttempts options env).1) ↔ ¬ SecondRetry env :=
  ⟨fun hchained hsecond => not_chained_of_secondRetry hsecond hchained, chained_of_not_secondRetry⟩

end

def overloadedEnv (n : ℕ) : AttemptInputs :=
  failingInputs ⟨false, false, none⟩ (.retryable .transientError .overloaded none false false)
    (toString n)

lemma overloaded_retriable (n : ℕ) (hn : n < maxAttempts) (streak : ℕ) :
    Retriable n (overloadedEnv n) streak (toString n) ⟨"chat", .null, .null, true⟩
      (.llmRunFailure ⟨false, false, none⟩) where
  running := ⟨rfl, rfl⟩
  offered := rfl
  passed := ⟨.inr ⟨⟨.allow, []⟩, rfl, nofun, nofun, nofun⟩, (), rfl⟩
  written := rfl
  failed := ⟨_, rfl, rfl, rfl, rfl⟩
  recorded := ⟨(), rfl⟩
  replayable := by
    have hquiet : nextStreak (overloadedEnv n) (.llmRunFailure ⟨false, false, none⟩) streak = 0 := by
      simp [nextStreak, isInstantFailure, overloadedEnv, failingInputs]
    refine ⟨hn, nofun, rfl, fun llm hllm => ?_, nofun, nofun, nofun, .inr ?_⟩
    · cases hllm
      exact ⟨rfl, rfl⟩
    · rw [hquiet]
      rfl

/-- Two retries in a row break the chain. -/
theorem second_retry_unlinked :
    letI := textCoding
    ¬ ∀ (options : AttemptOptions) (env : ℕ → AttemptInputs),
      Chained (retryRows (runAttempts options env).1) := by
  let _ := textCoding
  intro hall
  refine not_chained_of_secondRetry ⟨_, _, _, _, _, _, overloaded_retriable 1 (by decide) 0, ?_,
    overloaded_retriable 2 (by decide) _, ⟨(), rfl⟩, by decide⟩ (hall plainOptions overloadedEnv)
  exact ⟨⟨(), rfl⟩, ⟨(), rfl⟩, ⟨(), rfl⟩, ⟨(), rfl⟩⟩

end Attempts
end OpenOmni
