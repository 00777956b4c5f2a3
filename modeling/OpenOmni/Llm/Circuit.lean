import OpenOmni.Loop.Retry

/-! The shared state of the model router: circuits, credentials, pins, and what a failure decides. -/
namespace OpenOmni

namespace Router

open Attempts (FailureClass)

structure Usage where
  inputTokens : ℕ
  outputTokens : ℕ
  reasoningTokens : ℕ
  cacheReadTokens : ℕ
  cacheWriteTokens : ℕ
deriving DecidableEq

namespace Usage

def zero : Usage := ⟨0, 0, 0, 0, 0⟩

def add (a b : Usage) : Usage :=
  ⟨a.inputTokens + b.inputTokens, a.outputTokens + b.outputTokens,
    a.reasoningTokens + b.reasoningTokens, a.cacheReadTokens + b.cacheReadTokens,
    a.cacheWriteTokens + b.cacheWriteTokens⟩

def sum (usages : List Usage) : Usage := usages.foldl add zero

lemma sum_snoc (usages : List Usage) (usage : Usage) :
    sum (usages ++ [usage]) = (sum usages).add usage := by
  simp [sum]

end Usage

/-- A circuit object. `ref` is the object's identity, which `===` compares: the shared `closed` has the
first, and every object made later its own. -/
structure Circuit where
  ref : ℕ
  consecutiveOpens : ℕ
  openUntil : ℚ
  halfOpenLeased : Bool
deriving DecidableEq

namespace Circuit

def closed : Circuit := ⟨0, 0, 0, false⟩

/-- `open`; `ref` is the new object's. -/
def «open» (state : Circuit) (now : ℚ) (hintMs resetAt : Option ℚ) (ref : ℕ) : Circuit :=
  let consecutiveOpens := state.consecutiveOpens + 1
  let cooldown : ℚ := min (60000 * 2 ^ min (consecutiveOpens - 1) 5) 1800000
  ⟨ref, consecutiveOpens, resetAt.getD (now + max cooldown (hintMs.getD 0)), false⟩

/-- `lease`: nothing while a probe is out or the circuit is open; a half-open probe after an opening. -/
def lease (state : Circuit) (now : ℚ) (ref : ℕ) : Option Circuit :=
  if state.halfOpenLeased || now < state.openUntil then none
  else if state.consecutiveOpens = 0 then some state
  else some { state with ref := ref, halfOpenLeased := true }

theorem lease_cases {state leased : Circuit} {now : ℚ} {ref : ℕ}
    (h : state.lease now ref = some leased) :
    state.halfOpenLeased = false ∧ state.openUntil ≤ now ∧
      (leased = state ∨ leased.ref = ref ∧ leased.halfOpenLeased = true) := by
  unfold lease at h
  split at h
  · cases h
  · case isFalse hfree =>
    simp only [Bool.or_eq_true, decide_eq_true_eq, not_or, Bool.not_eq_true, not_lt] at hfree
    refine ⟨hfree.1, hfree.2, ?_⟩
    split at h
    · exact .inl (Option.some.inj h).symm
    · cases h
      exact .inr ⟨rfl, rfl⟩

end Circuit

inductive BlockReason where
  | auth | billing | rateLimit | transient
deriving DecidableEq

structure CredentialState where
  ref : ℕ
  blockedUntil : ℚ
  probing : Bool
deriving DecidableEq

namespace CredentialState

def ready : CredentialState := ⟨0, 0, false⟩

def lease (state : CredentialState) (now : ℚ) (ref : ℕ) : Option CredentialState :=
  if state.probing || now < state.blockedUntil then none
  else if state.blockedUntil = 0 then some state
  else some { state with ref := ref, probing := true }

lemma lease_cases {state leased : CredentialState} {now : ℚ} {ref : ℕ}
    (h : state.lease now ref = some leased) :
    state.probing = false ∧ state.blockedUntil ≤ now ∧
      (leased = state ∨ leased.ref = ref ∧ leased.probing = true) := by
  unfold lease at h
  split at h
  · cases h
  · case isFalse hfree =>
    simp only [Bool.or_eq_true, decide_eq_true_eq, not_or, Bool.not_eq_true, not_lt] at hfree
    refine ⟨hfree.1, hfree.2, ?_⟩
    split at h
    · exact .inl (Option.some.inj h).symm
    · cases h
      exact .inr ⟨rfl, rfl⟩

def block (reason : BlockReason) (now : ℚ) (hintMs : Option ℚ) (ref : ℕ) : CredentialState :=
  ⟨ref, now + (if reason = .transient then 0 else hintMs.getD 60000), false⟩

end CredentialState

inductive Phase where
  | preRequest | streaming
deriving DecidableEq

inductive DecisionAction where
  | abort | surface | swapCredential | swapModel
deriving DecidableEq

structure Decision where
  action : DecisionAction
  /-- `pin: "refusal"`. -/
  refusal : Bool
  block : Option BlockReason

def Decision.surface : Decision := ⟨.surface, false, none⟩

def decide (failure : FailureClass) (phase : Phase) (retryAfterHintMs : Option ℚ) : Decision :=
  match failure with
  | .aborted => ⟨.abort, false, none⟩
  | .overflow => .surface
  | .terminal _ providerReason status detail =>
    if phase = .streaming then .surface
    else if providerReason = .contentPolicy then ⟨.surface, true, none⟩
    else if providerReason = .billing then ⟨.swapCredential, false, some .billing⟩
    else if status = some 401 || status = some 403 then ⟨.swapCredential, false, some .auth⟩
    else if status = some 404 || detail = some "unavailable" then ⟨.swapModel, false, none⟩
    else .surface
  | .retryable reason providerReason _ _ instant =>
    if phase = .streaming then .surface
    else match providerReason with
      | .validationError => .surface
      | .rateLimit | .overloaded =>
        if retryAfterHintMs.any (· ≤ 2000) then .surface
        else ⟨.swapCredential, false, some .rateLimit⟩
      | .serverError =>
        if reason = .timeout || instant then ⟨.swapCredential, false, some .transient⟩
        else .surface

theorem decide_streaming (failure : FailureClass) (hint : Option ℚ) :
    (decide failure .streaming hint).action = .abort ∨
      (decide failure .streaming hint).action = .surface := by
  cases failure with
  | aborted => exact .inl rfl
  | overflow | terminal reason providerReason status detail
  | retryable reason providerReason afterMs directed instant => exact .inr rfl

inductive PinReason where
  | refusal | billing
deriving DecidableEq

structure Pin where
  primary : String
  candidate : String
  credential : Option String
  turn : String
  reason : Option PinReason

/-- `order`: the pinned candidate first, where the pin is of this primary and still holds. -/
def order (selectors : List String) (pin : Option Pin) (primary turn : String) : List String :=
  match pin with
  | none => selectors
  | some pin =>
    if pin.primary ≠ primary ∨ pin.candidate ∉ selectors then selectors
    else if pin.turn ≠ turn ∧ pin.reason ≠ some .billing then selectors
    else pin.candidate :: selectors.filter (· != pin.candidate)

/-- `touch`: the pin of a selection keeps the reason of the pin it repeats. -/
def touch (previous : Option Pin) (selected : Pin) : Pin :=
  match previous with
  | some pin =>
    if pin.primary = selected.primary ∧ pin.candidate = selected.candidate ∧ pin.reason.isSome then
      { selected with reason := pin.reason }
    else selected
  | none => selected

theorem order_perm (selectors : List String) (hnodup : selectors.Nodup) (pin : Option Pin)
    (primary turn : String) : (order selectors pin primary turn).Perm selectors := by
  unfold order
  split
  · exact .refl _
  · case h_2 pin =>
    split
    · exact .refl _
    · case isFalse hpin =>
      simp only [not_or, not_not] at hpin
      split
      · exact .refl _
      · rw [← List.Nodup.erase_eq_filter hnodup]
        exact (List.perm_cons_erase hpin.2).symm

end Router
end OpenOmni
