import OpenOmni.Loop.Attempts

/-! What one attempt leaves behind, whatever its ports answer. -/
namespace OpenOmni

namespace Attempts

namespace Traced
variable {α β : Type} {x : Traced α} {f : α → Traced β} {a : α} {cause : FailureCause}

lemma bind_of_ok (h : x.2 = .ok a) : x.bind f = (x.1 ++ (f a).1, (f a).2) := by
  simp only [bind, h]

lemma bind_of_error (h : x.2 = .error cause) : x.bind f = (x.1, .error cause) := by
  simp only [bind, h]

@[simp] theorem pure_bind (a : α) (f : α → Traced β) : (pure a).bind f = f a := rfl

@[simp] theorem ofExcept_ok_bind (a : α) (f : α → Traced β) : (ofExcept (.ok a)).bind f = f a := rfl

@[simp] theorem emit_ok_bind (a : α) (event : α → AttemptEvent) (f : α → Traced β) :
    (emit (.ok a) event).bind f = (event a :: (f a).1, (f a).2) := rfl

end Traced

/-- A failure that the loop answers with another attempt, behind `streak` instant ones. -/
structure Replayable (attempt : ℕ) (inputs : AttemptInputs) (failure : AttemptError) (streak : ℕ)
    (fallbackAvailable : Bool) : Prop where
  below : attempt < maxAttempts
  committed : failure ≠ .commitFailed
  running : inputs.abortedAtFailure = false
  unseen : ∀ llm, failure = .llmRunFailure llm → llm.aborted = false ∧ llm.visibleOutput = false
  live : inputs.classify failure ≠ .aborted
  rerouted : ∀ reason providerReason status detail,
    inputs.classify failure = .terminal reason providerReason status detail →
      providerReason = .nonRetryable ∧ status = some 400 ∧ fallbackAvailable = true
  recovered : inputs.classify failure = .overflow → inputs.recoverOverflow = some (.ok true)
  decided : inputs.classify failure = .overflow ∨
    (decideRetry attempt (inputs.classify failure) inputs.random streak fallbackAvailable).retries

/-- A body that failed with a typed error, and neither interrupted nor died. -/
structure FailedBody (inputs : AttemptInputs) (failure : AttemptError) : Prop where
  exit : ∃ cause, inputs.body = .error cause ∧ cause.hasInterrupts = false ∧
    cause.hasDies = false ∧ cause.error? = some failure

/-- What admission asks of an attempt: a policy that lets it pass, with an approval where it is asked
for, and the attempt's own check. -/
structure Passed (attempt : ℕ) (inputs : AttemptInputs) : Prop where
  judged : attempt = 1 ∨ ∃ admission, inputs.policy = .ok admission ∧
    admission.verdict ≠ .deny ∧ admission.verdict ≠ .transform ∧
    (admission.verdict = .requireApproval → inputs.approve = .ok .approve)
  admitted : ∃ answer, inputs.admitBody = .ok answer

section
variable {inputs : AttemptInputs} {failure : AttemptError}

lemma failureRequiresStop_false {aborted : Bool} (h : failureRequiresStop failure aborted = false) :
    failure ≠ .commitFailed ∧ aborted = false ∧
      ∀ llm, failure = .llmRunFailure llm → llm.aborted = false ∧ llm.visibleOutput = false := by
  cases failure with
  | commitFailed => cases h
  | llmRunFailure llm =>
    simp only [failureRequiresStop, Bool.or_eq_false_iff] at h
    refine ⟨nofun, h.1.1, fun other heq => ?_⟩
    cases heq
    exact ⟨h.1.2, h.2⟩
  | policyDenied | other => exact ⟨nofun, h, nofun⟩

lemma retryableFailure_ok {cause : FailureCause} (h : retryableFailure cause = .ok failure) :
    cause.hasInterrupts = false ∧ cause.hasDies = false ∧ cause.error? = some failure := by
  unfold retryableFailure at h
  split at h
  · cases h
  · case isFalse hquiet =>
    simp only [Bool.or_eq_true, not_or, Bool.not_eq_true] at hquiet
    split at h
    · case h_1 error herror =>
      cases h
      exact ⟨hquiet.1, hquiet.2, herror⟩
    · cases h

end

theorem approveAttempt_cases (attempt : ℕ) (inputs : AttemptInputs) (id : String)
    (policy : Option Admission) :
    (approveAttempt attempt inputs id policy = ([], .ok ()) ∧ ∀ admission, policy = some admission →
      admission.verdict = .requireApproval → inputs.approve = .ok .approve) ∨
      ∃ tail cause, approveAttempt attempt inputs id policy = (tail, .error cause) ∧
        (tail = [] ∨ ∃ reason, tail = [.blocked attempt id reason]) := by
  unfold approveAttempt
  split
  · case h_1 ruleIds =>
    cases happrove : inputs.approve with
    | error cause => exact .inr ⟨[], cause, rfl, .inl rfl⟩
    | ok decision =>
      rw [Traced.ofExcept_ok_bind]
      split
      · case isTrue hyes => exact .inl ⟨rfl, fun _ _ _ => hyes ▸ rfl⟩
      · cases inputs.appendBlocked with
        | error cause => exact .inr ⟨[], cause, rfl, .inl rfl⟩
        | ok _ => exact .inr ⟨_, _, rfl, .inr ⟨_, rfl⟩⟩
  · case h_2 hother =>
    refine .inl ⟨rfl, fun admission hpolicy hverdict => ?_⟩
    cases admission with
    | mk verdict ruleIds => exact absurd (hverdict ▸ hpolicy) (hother ruleIds)

lemma admitPolicy_cases (attempt : ℕ) (inputs : AttemptInputs) :
    (∃ policy, admitPolicy attempt inputs = .pure policy ∧
      (attempt = 1 ∨ ∃ admission, policy = some admission ∧ inputs.policy = .ok admission)) ∨
      ∃ cause, admitPolicy attempt inputs = ([], .error cause) := by
  unfold admitPolicy
  split
  · case isTrue hfirst => exact .inl ⟨_, rfl, .inl hfirst⟩
  · cases inputs.policy with
    | error cause => exact .inr ⟨cause, rfl⟩
    | ok policy => exact .inl ⟨some policy, rfl, .inr ⟨policy, rfl, rfl⟩⟩

lemma policyDenies_none {admission : Admission} (h : policyDenies (some admission) = none) :
    admission.verdict ≠ .deny ∧ admission.verdict ≠ .transform := by
  cases admission with
  | mk verdict ruleIds =>
    cases verdict with
    | deny | transform => cases h
    | _ => exact ⟨nofun, nofun⟩

lemma recoverOverflow_cases (inputs : AttemptInputs) (classified : FailureClass) :
    (∃ cause, recoverOverflow inputs classified = ([], .error cause)) ∨
      ∃ recover, recoverOverflow inputs classified = .pure recover ∧
        (recover = true → classified = .overflow ∧ inputs.recoverOverflow = some (.ok true)) := by
  unfold recoverOverflow
  split
  · case isTrue hoverflow =>
    split
    · exact .inr ⟨false, rfl, nofun⟩
    · case h_2 answer hanswer =>
      cases answer with
      | error cause => exact .inl ⟨cause, rfl⟩
      | ok recover => exact .inr ⟨recover, rfl, fun htrue => ⟨hoverflow, htrue ▸ hanswer⟩⟩
  · exact .inr ⟨false, rfl, nofun⟩

variable [PlainCoding] {options : AttemptOptions} {attempt : ℕ} {state : LoopState}
  {inputs : AttemptInputs}

/-- How an admission ends: nothing written, an intent without a body, or an intent to execute. -/
inductive Admitted (options : AttemptOptions) (attempt : ℕ) (state : LoopState)
    (inputs : AttemptInputs) : Traced (Prepared × String) → Prop where
  | unwritten (cause : FailureCause) : Admitted options attempt state inputs ([], .error cause)
  | unapproved (prepared : Prepared) (id : String) (tail : List AttemptEvent) (cause : FailureCause)
      (hid : inputs.appendIntent = .ok id) (hrunning : inputs.abortedAtIntent = false)
      (htail : tail = [] ∨ ∃ reason, tail = [.blocked attempt id reason]) :
      Admitted options attempt state inputs
        (.intent attempt (intentRow options attempt state prepared) id :: tail, .error cause)
  | ready (prepared : Prepared) (id : String) (hprepare : inputs.prepare = .ok prepared)
      (hid : inputs.appendIntent = .ok id) (hrunning : inputs.abortedAtIntent = false)
      (hpassed : Passed attempt inputs) :
      Admitted options attempt state inputs
        ([.intent attempt (intentRow options attempt state prepared) id], .ok (prepared, id))

lemma admitAttempt_admitted :
    Admitted options attempt state inputs (admitAttempt options attempt state inputs) := by
  unfold admitAttempt
  cases hprepare : inputs.prepare with
  | error cause => exact .unwritten cause
  | ok prepared =>
    rw [Traced.ofExcept_ok_bind]
    cases admitPolicy_cases attempt inputs with
    | inr hfail =>
      obtain ⟨cause, hpolicy⟩ := hfail
      rw [hpolicy]
      exact .unwritten cause
    | inl hjudged =>
      obtain ⟨policy, hpolicy, hjudged⟩ := hjudged
      rw [hpolicy, Traced.pure_bind]
      split
      · exact .unwritten _
      · case h_2 hallowed =>
        cases hadmit : inputs.admitBody with
        | error cause => exact .unwritten cause
        | ok answer =>
          rw [Traced.ofExcept_ok_bind]
          split
          · exact .unwritten _
          · case isFalse hrunning =>
            have hrun : inputs.abortedAtIntent = false := by simpa using hrunning
            cases hid : inputs.appendIntent with
            | error cause => exact .unwritten cause
            | ok id =>
              rw [Traced.emit_ok_bind]
              cases approveAttempt_cases attempt inputs id policy with
              | inl hokay =>
                obtain ⟨heq, happroved⟩ := hokay
                rw [heq]
                refine .ready prepared id hprepare hid hrun ⟨hjudged.imp_right ?_, answer, hadmit⟩
                rintro ⟨admission, rfl, hanswer⟩
                obtain ⟨hdeny, htransform⟩ := policyDenies_none hallowed
                exact ⟨admission, hanswer, hdeny, htransform, happroved admission rfl⟩
              | inr hrefused =>
                obtain ⟨tail, cause, heq, htail⟩ := hrefused
                rw [heq]
                exact .unapproved prepared id tail cause hid hrun htail

def alarmEvents (options : AttemptOptions) (attempt : ℕ) (inputs : AttemptInputs) (intentId : String)
    (reason : RetryReason) (delayMs : ℚ) : List AttemptEvent :=
  [.arm attempt (retryArm options.sessionId ⟨intentId, attempt, reason, inputs.now + delayMs⟩),
    .waited attempt (inputs.now + delayMs),
    .settle attempt (retrySettle options.sessionId intentId attempt inputs.settledAt)]

structure AlarmKept (inputs : AttemptInputs) : Prop where
  armed : ∃ answer, inputs.commitArm = .ok answer
  sent : ∃ answer, inputs.send = .ok answer
  waited : ∃ answer, inputs.wait = .ok answer
  settled : ∃ answer, inputs.commitSettle = .ok answer

/-- What an alarm leaves that a port cuts off: nothing, or its arm and perhaps its wait. -/
def CutShort (options : AttemptOptions) (attempt : ℕ) (inputs : AttemptInputs) (intentId : String)
    (reason : RetryReason) (delayMs : ℚ) (tail : List AttemptEvent) : Prop :=
  tail = [] ∨ (∃ answer, inputs.commitArm = .ok answer) ∧
    (tail = (alarmEvents options attempt inputs intentId reason delayMs).take 1 ∨
      tail = (alarmEvents options attempt inputs intentId reason delayMs).take 2)

theorem retryAlarm_cases (options : AttemptOptions) (attempt : ℕ) (inputs : AttemptInputs)
    (intentId : String) (reason : RetryReason) (delayMs : ℚ) :
    (AlarmKept inputs ∧ retryAlarm options attempt inputs intentId reason delayMs =
        (alarmEvents options attempt inputs intentId reason delayMs, .ok ())) ∨
      ∃ tail cause, retryAlarm options attempt inputs intentId reason delayMs = (tail, .error cause) ∧
        CutShort options attempt inputs intentId reason delayMs tail := by
  unfold retryAlarm
  cases harm : inputs.commitArm with
  | error cause => exact .inr ⟨[], cause, rfl, .inl rfl⟩
  | ok armed =>
    rw [Traced.emit_ok_bind]
    cases hsend : inputs.send with
    | error cause => exact .inr ⟨_, cause, rfl, .inr ⟨⟨armed, harm⟩, .inl rfl⟩⟩
    | ok sent =>
      rw [Traced.ofExcept_ok_bind]
      cases hwait : inputs.wait with
      | error cause => exact .inr ⟨_, cause, rfl, .inr ⟨⟨armed, harm⟩, .inl rfl⟩⟩
      | ok waited =>
        rw [Traced.emit_ok_bind]
        cases hsettle : inputs.commitSettle with
        | error cause => exact .inr ⟨_, cause, rfl, .inr ⟨⟨armed, harm⟩, .inr rfl⟩⟩
        | ok settled =>
          exact .inl ⟨⟨⟨armed, harm⟩, ⟨sent, hsend⟩, ⟨waited, hwait⟩, ⟨settled, hsettle⟩⟩, rfl⟩

structure Delayed (attempt : ℕ) (inputs : AttemptInputs) (delayMs : ℚ) : Prop where
  computed : ∃ failure streak recover fallbackAvailable, delayMs = retryDelay recover
    (decideRetry attempt (inputs.classify failure) inputs.random streak fallbackAvailable)

/-- How a failure is answered: with the failure, an alarm cut off, or an alarm settled. -/
inductive Scheduled (options : AttemptOptions) (attempt : ℕ) (inputs : AttemptInputs)
    (failure : AttemptError) (streak : ℕ) (prepared : Prepared) (intentId : String) :
    Traced RetryReason → Prop where
  | stopped (cause : FailureCause) :
      Scheduled options attempt inputs failure streak prepared intentId ([], .error cause)
  | cutOff (delayMs : ℚ) (reason : RetryReason) (tail : List AttemptEvent) (cause : FailureCause)
      (hreplay : Replayable attempt inputs failure streak prepared.fallbackAvailable)
      (hdelay : Delayed attempt inputs delayMs)
      (htail : CutShort options attempt inputs intentId reason delayMs tail) :
      Scheduled options attempt inputs failure streak prepared intentId
        (.retry attempt delayMs reason :: tail, .error cause)
  | settled (delayMs : ℚ) (reason : RetryReason)
      (hreplay : Replayable attempt inputs failure streak prepared.fallbackAvailable)
      (hdelay : Delayed attempt inputs delayMs) (hkept : AlarmKept inputs) :
      Scheduled options attempt inputs failure streak prepared intentId
        (.retry attempt delayMs reason ::
          alarmEvents options attempt inputs intentId reason delayMs, .ok reason)

lemma scheduleRetry_scheduled (failure : AttemptError) (streak : ℕ) (prepared : Prepared)
    (intentId : String) :
    Scheduled options attempt inputs failure streak prepared intentId
      (scheduleRetry options attempt inputs failure streak prepared intentId) := by
  simp only [scheduleRetry]
  split
  · exact .stopped _
  · case isFalse hgo =>
    simp only [Bool.or_eq_true, not_or, Bool.not_eq_true, decide_eq_true_eq] at hgo
    obtain ⟨hcommitted, hrunning, hunseen⟩ := failureRequiresStop_false hgo.1
    split
    · exact .stopped _
    · case isFalse hbelow =>
      cases recoverOverflow_cases inputs (inputs.classify failure) with
      | inl hfail =>
        obtain ⟨cause, heq⟩ := hfail
        rw [heq]
        exact .stopped cause
      | inr hanswer =>
        obtain ⟨recover, heq, hrecover⟩ := hanswer
        rw [heq, Traced.pure_bind]
        split
        · exact .stopped _
        · case isFalse hretry =>
          have hreplay : Replayable attempt inputs failure streak prepared.fallbackAvailable := by
            refine ⟨by omega, hcommitted, hrunning, hunseen, by simpa using hgo.2, ?_, ?_, ?_⟩
            · intro reason providerReason status detail hterminal
              have hno : recover = false := by
                cases recover with
                | false => rfl
                | true => exact absurd ((hrecover rfl).1.symm.trans hterminal) nofun
              rw [hterminal, hno] at hretry
              exact decideRetry_terminal (by simpa using hretry)
            · intro hoverflow
              have hyes : recover = true := by
                cases recover with
                | true => rfl
                | false => simp [hoverflow] at hretry
              exact (hrecover hyes).2
            · cases recover with
              | true => exact .inl (hrecover rfl).1
              | false =>
                simp only [Bool.not_false, Bool.true_and, Bool.or_eq_true, not_or,
                  Bool.not_eq_true'] at hretry
                exact .inr (by simpa using hretry.2)
          rw [Traced.emit_ok_bind]
          generalize hdelay : retryDelay recover (decideRetry attempt (inputs.classify failure)
            inputs.random streak prepared.fallbackAvailable) = delayMs
          generalize (if recover then RetryReason.contextOverflow
            else attemptReason (inputs.classify failure)) = reason
          have hdelayed : Delayed attempt inputs delayMs := ⟨_, _, _, _, hdelay.symm⟩
          cases retryAlarm_cases options attempt inputs intentId reason delayMs with
          | inl hdone =>
            obtain ⟨hkept, halarm⟩ := hdone
            rw [halarm]
            exact .settled delayMs reason hreplay hdelayed hkept
          | inr hcut =>
            obtain ⟨tail, cause, halarm, htail⟩ := hcut
            rw [halarm]
            exact .cutOff delayMs reason tail cause hreplay hdelayed htail

end Attempts
end OpenOmni
