import Mathlib

/-! The attempt policy of the model loop: how a classified failure is answered, and after how long. -/
namespace OpenOmni

namespace Attempts

/-- `MAX_ATTEMPTS`. -/
def maxAttempts : ℕ := 3

/-- `RETRY_INITIAL_DELAY`. -/
def retryInitialDelay : ℚ := 2000

/-- `RETRY_BACKOFF_FACTOR`. -/
def retryBackoffFactor : ℚ := 2

/-- `RETRY_MAX_DELAY_NO_HEADERS`. -/
def retryMaxDelayNoHeaders : ℚ := 30000

/-- `RETRY_HEADER_DELAY_CAP`. -/
def retryHeaderDelayCap : ℚ := 60000

/-- `INSTANT_FAILURE_WINDOW_MS`. -/
def instantFailureWindowMs : ℚ := 2000

/-- `INSTANT_FAILURE_PROBE_DELAY_MS`. -/
def instantFailureProbeDelayMs : ℚ := 250

/-- `INSTANT_FAILURE_STREAK_LIMIT`. -/
def instantFailureStreakLimit : ℕ := 3

/-- `RETRY_JITTER_RATIO`. -/
def retryJitterRatio : ℚ := 1 / 4

inductive RetryReason where
  | timeout | toolError | transientError | validationError | contextOverflow

def RetryReason.text : RetryReason → String
  | .timeout => "timeout"
  | .toolError => "tool_error"
  | .transientError => "transient_error"
  | .validationError => "validation_error"
  | .contextOverflow => "context_overflow"

inductive AttemptFailureReason where
  | timeout | transientError | validationError
deriving DecidableEq

def AttemptFailureReason.retryReason : AttemptFailureReason → RetryReason
  | .timeout => .timeout
  | .transientError => .transientError
  | .validationError => .validationError

inductive RetryableProviderReason where
  | rateLimit | overloaded | serverError | validationError
deriving DecidableEq

/-- `ProviderReason`: the retryable ones and the three that are not. -/
inductive ProviderReason where
  | retryable (reason : RetryableProviderReason)
  | billing
  | contentPolicy
  | nonRetryable
deriving DecidableEq

inductive AfterMs where
  | ms (value : ℚ)
  | infinite
  | negInfinite
  | nan
deriving DecidableEq

/-- `FailureClass`: the port's classification, on which alone the loop decides. -/
inductive FailureClass where
  | aborted
  | overflow
  | retryable (reason : AttemptFailureReason) (providerReason : RetryableProviderReason)
      (afterMs : Option AfterMs) (directed instant : Bool)
  | terminal (reason : AttemptFailureReason) (providerReason : ProviderReason)
      (status : Option ℚ) (detail : Option String)
deriving DecidableEq

inductive StopDetail where
  | billing
  | contentPolicy
  | streak (count : ℕ)
  | overCap (afterMs : AfterMs)
  | given (detail : String)

/-- The text of a detail; `number` writes a number the way a template does. -/
def StopDetail.text (number : AfterMs → String) : StopDetail → String
  | .billing =>
    "the account's quota or billing balance is exhausted — retrying cannot restore it; top up or raise the limit"
  | .contentPolicy =>
    "the provider refused this request on content policy grounds — the same prompt will be refused again; change what is being asked"
  | .streak count => toString count ++ " consecutive transport failures under " ++
      number (.ms instantFailureWindowMs) ++
      "ms — the endpoint is refusing connections, retrying cannot help"
  | .overCap afterMs => "server asked to wait " ++ number afterMs ++ "ms, above the " ++
      number (.ms retryHeaderDelayCap) ++ "ms cap"
  | .given detail => detail

inductive Decision where
  | retry (reason : RetryableProviderReason) (delayMs : ℚ) (retryAfterOverCap : Bool)
  | stop (reason : ProviderReason) (detail : Option StopDetail)

def Decision.retries : Decision → Bool
  | .retry .. => true
  | .stop .. => false

def isInstantFailure (failure : FailureClass) (elapsedMs : ℚ) : Bool :=
  elapsedMs < instantFailureWindowMs &&
    match failure with
    | .retryable _ _ _ _ instant => instant
    | _ => false

def attemptReason : FailureClass → RetryReason
  | .overflow => .contextOverflow
  | .retryable reason .. => reason.retryReason
  | .terminal reason .. => reason.retryReason
  | .aborted => .transientError

/-- `Math.round`. -/
def mathRound (x : ℚ) : ℚ := ⌊x + 1 / 2⌋

/-- The ladder of `backoffDelayMs`, before jitter. -/
def ladder (attempt : ℤ) : ℚ :=
  min (retryInitialDelay * retryBackoffFactor ^ (attempt - 1)) retryMaxDelayNoHeaders

def backoffDelayMs (attempt : ℤ) (random : ℚ) : ℚ :=
  mathRound (ladder attempt * (1 - random * retryJitterRatio))

/-- `failure.afterMs <= RETRY_HEADER_DELAY_CAP`, with `Math.max(0, failure.afterMs)` where it holds. -/
def withinCap : AfterMs → Option ℚ
  | .ms value => if value ≤ retryHeaderDelayCap then some (max 0 value) else none
  | .negInfinite => some 0
  | .infinite => none
  | .nan => none

def selectDelay (attempt : ℤ) (providerReason : RetryableProviderReason) (afterMs : Option AfterMs)
    (directed : Bool) (random : ℚ) : Decision :=
  match afterMs with
  | none => .retry providerReason (backoffDelayMs attempt random) false
  | some after =>
    match withinCap after with
    | some delayMs => .retry providerReason delayMs false
    | none =>
      if directed then .stop (.retryable providerReason) (some (.overCap after))
      else .retry providerReason (backoffDelayMs attempt random) true

def streakDecision (streak : ℕ) (reason : RetryableProviderReason) : Option Decision :=
  if instantFailureStreakLimit ≤ streak then some (.stop (.retryable reason) (some (.streak streak)))
  else if 0 < streak then some (.retry reason instantFailureProbeDelayMs false)
  else none

/-- `terminal`: a 400 with a fallback candidate is re-routed at once. -/
def terminal (providerReason : ProviderReason) (status : Option ℚ) (detail : Option String)
    (fallbackAvailable : Bool) : Decision :=
  match providerReason with
  | .billing => .stop .billing (some .billing)
  | .contentPolicy => .stop .contentPolicy (some .contentPolicy)
  | .nonRetryable =>
    if fallbackAvailable && status = some 400 then .retry .validationError 0 false
    else .stop .nonRetryable none
  | .retryable reason => .stop (.retryable reason) (detail.map .given)

/-- `decide` over a classified failure. -/
def decideRetry (attempt : ℤ) (failure : FailureClass) (random : ℚ) (instantFailureStreak : ℕ)
    (fallbackAvailable : Bool) : Decision :=
  match failure with
  | .aborted => .stop .nonRetryable none
  | .overflow => .stop .nonRetryable none
  | .terminal _ providerReason status detail => terminal providerReason status detail fallbackAvailable
  | .retryable _ providerReason afterMs directed _ =>
    (streakDecision instantFailureStreak providerReason).getD
      (selectDelay attempt providerReason afterMs directed random)

def retryDelay (recover : Bool) : Decision → ℚ
  | .retry _ delayMs _ => if recover then 0 else delayMs
  | .stop .. => 0

def Bounded (delayMs : ℚ) : Prop := 0 ≤ delayMs ∧ delayMs ≤ retryHeaderDelayCap

lemma bounded_zero : Bounded 0 := ⟨le_rfl, by norm_num [retryHeaderDelayCap]⟩

lemma bounded_probe : Bounded instantFailureProbeDelayMs := by
  norm_num [Bounded, instantFailureProbeDelayMs, retryHeaderDelayCap]

lemma ladder_pos (attempt : ℤ) : 0 < ladder attempt := by
  have hpower : (0 : ℚ) < retryInitialDelay * retryBackoffFactor ^ (attempt - 1) :=
    mul_pos (by norm_num [retryInitialDelay])
      (zpow_pos (by norm_num [retryBackoffFactor]) (attempt - 1))
  exact lt_min hpower (by norm_num [retryMaxDelayNoHeaders])

variable {random : ℚ}

theorem backoffDelayMs_bounds (attempt : ℤ) (hlow : 0 ≤ random) (hhigh : random ≤ 1) :
    0 ≤ backoffDelayMs attempt random ∧ backoffDelayMs attempt random ≤ retryMaxDelayNoHeaders := by
  have hladder := ladder_pos attempt
  have hcap : ladder attempt ≤ 30000 := min_le_right _ _
  have hkeep : 3 / 4 ≤ 1 - random * retryJitterRatio := by
    simp only [retryJitterRatio]
    linarith
  have htake : 1 - random * retryJitterRatio ≤ 1 := by
    simp only [retryJitterRatio]
    linarith
  have hjittered : ladder attempt * (1 - random * retryJitterRatio) ≤ 30000 :=
    (mul_le_of_le_one_right hladder.le htake).trans hcap
  have hpositive : 0 ≤ ladder attempt * (1 - random * retryJitterRatio) :=
    mul_nonneg hladder.le (by linarith)
  simp only [backoffDelayMs, mathRound, retryMaxDelayNoHeaders]
  constructor
  · exact_mod_cast Int.floor_nonneg.mpr (by linarith)
  · have hfloor : ⌊ladder attempt * (1 - random * retryJitterRatio) + 1 / 2⌋ < 30001 := by
      apply Int.floor_lt.mpr
      push_cast
      linarith
    exact_mod_cast Int.lt_add_one_iff.mp hfloor

lemma bounded_backoff (attempt : ℤ) (hlow : 0 ≤ random) (hhigh : random ≤ 1) :
    Bounded (backoffDelayMs attempt random) := by
  obtain ⟨hzero, hcap⟩ := backoffDelayMs_bounds attempt hlow hhigh
  refine ⟨hzero, hcap.trans ?_⟩
  norm_num [retryMaxDelayNoHeaders, retryHeaderDelayCap]

lemma bounded_withinCap {after : AfterMs} {delayMs : ℚ} (h : withinCap after = some delayMs) :
    Bounded delayMs := by
  cases after with
  | ms value =>
    simp only [withinCap] at h
    split at h
    · case isTrue hle =>
      cases h
      exact ⟨le_max_left _ _, max_le (by norm_num [retryHeaderDelayCap]) hle⟩
    · cases h
  | negInfinite =>
    cases h
    exact bounded_zero
  | infinite | nan => cases h

def Decision.Bounded : Decision → Prop
  | .retry _ delayMs _ => Attempts.Bounded delayMs
  | .stop .. => True

lemma selectDelay_bounded (attempt : ℤ) (providerReason : RetryableProviderReason) (afterMs : Option AfterMs)
    (directed : Bool) (hlow : 0 ≤ random) (hhigh : random ≤ 1) :
    (selectDelay attempt providerReason afterMs directed random).Bounded := by
  unfold selectDelay
  split
  · exact bounded_backoff attempt hlow hhigh
  · split
    · case h_1 hcap => exact bounded_withinCap hcap
    · split
      · trivial
      · exact bounded_backoff attempt hlow hhigh

lemma decideRetry_bounded (attempt : ℤ) (failure : FailureClass) (instantFailureStreak : ℕ)
    (fallbackAvailable : Bool) (hlow : 0 ≤ random) (hhigh : random ≤ 1) :
    (decideRetry attempt failure random instantFailureStreak fallbackAvailable).Bounded := by
  cases failure with
  | aborted | overflow => trivial
  | terminal reason providerReason status detail =>
    cases providerReason with
    | billing | contentPolicy | retryable => trivial
    | nonRetryable =>
      simp only [decideRetry, terminal]
      split
      · exact bounded_zero
      · trivial
  | retryable reason providerReason afterMs directed instant =>
    have hselect := selectDelay_bounded attempt providerReason afterMs directed hlow hhigh
    simp only [decideRetry, streakDecision]
    split
    · trivial
    · split
      · exact bounded_probe
      · exact hselect

lemma retryDelay_bounded (recover : Bool) {decision : Decision} (h : decision.Bounded) :
    Bounded (retryDelay recover decision) := by
  cases decision with
  | stop reason detail => exact bounded_zero
  | retry reason delayMs overCap =>
    cases recover
    · exact h
    · exact bounded_zero

theorem decideRetry_terminal {attempt : ℤ} {reason : AttemptFailureReason} {providerReason : ProviderReason}
    {status : Option ℚ} {detail : Option String} {streak : ℕ} {fallbackAvailable : Bool}
    (h : (decideRetry attempt (.terminal reason providerReason status detail) random streak
      fallbackAvailable).retries) : providerReason = .nonRetryable ∧ status = some 400 ∧ fallbackAvailable = true := by
  cases providerReason with
  | nonRetryable =>
    simp only [decideRetry, terminal] at h
    split at h
    · case isTrue hroute => simpa [and_comm] using hroute
    · cases h
  | billing | contentPolicy | retryable => cases h

end Attempts
end OpenOmni
