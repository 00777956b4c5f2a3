import OpenOmni.Llm.Circuit

/-! The calls of one model router, each from candidate to candidate and from credential to credential,
over the circuits and credentials they share. -/
namespace OpenOmni

namespace Router

open Attempts (FailureClass)

/-- `CredentialSlot`, by its provider and the fingerprint of its authorization. -/
structure CredentialSlot where
  provider : String
  fingerprint : String

/-- One call of `route` on a configured chain: the requested model, the selectors of the chain's row, and
whose call it is. -/
structure Route where
  primary : String
  category : String
  row : List String
  nearestFallback : Option String
  slots : List CredentialSlot
  sessionId : String
  turn : String

/-- `[...new Set(row.selectors)]`. -/
def Route.selectors (route : Route) : List String := route.row.eraseDups

inductive FactAction where
  | abort | surface | swapCredential | swapModel | attempt | selected | skipCircuit

def DecisionAction.fact : DecisionAction → FactAction
  | .abort => .abort
  | .surface => .surface
  | .swapCredential => .swapCredential
  | .swapModel => .swapModel

structure RoutingFact where
  candidate : String
  credential : Option String
  failure : Option FailureClass
  usage : Option Usage
  action : FactAction

/-- A credential a candidate may be called with: its place among the provider's, and its key in the
shared state. -/
structure Slot where
  index : ℕ
  key : String

/-- What `runCandidate` keeps of the candidate at hand. -/
structure Candidate where
  selector : String
  slots : List Slot
  circuitLease : Circuit
  transientSwaps : ℕ
  billingFailures : ℕ
  resetAt : Option ℚ
  hintMs : Option ℚ

/-- A typed failure: how it is classified with the attempt's facts, and without them. -/
structure LlmError where
  failure : FailureClass
  bare : FailureClass
  usage : Option Usage
  retryAfterMs : Option ℚ

/-- How `run` ends; `failure` is a refusal before the stream. -/
inductive AttemptOutcome where
  | stop (usage : Option Usage)
  | aborted (usage : Option Usage)
  | error (cause : LlmError)
  | failure (cause : LlmError)

/-- `chargeAttempt`: the usage an outcome carries. -/
def AttemptOutcome.usage : AttemptOutcome → Option Usage
  | .stop usage => usage
  | .aborted usage => usage
  | .error cause => cause.usage
  | .failure cause => cause.usage

inductive OutcomeType where
  | stop
  | aborted
  | error (cause : LlmError)

/-- `Run.Outcome` as a route answers it. -/
structure Outcome where
  type : OutcomeType
  billedUsage : Option Usage
  attempts : List RoutingFact
  selected : Option String

inductive Refusal where
  | modelUnavailable (category : String) (nearestFallback : Option String) (openUntil : Option ℚ)
      (attempts : List RoutingFact)
  | llm (cause : LlmError)
  | interrupted

inductive Shown where
  | message (text : String)
  | toolCall (id : String)
  | toolResult (id : String)

structure Attempt where
  slot : Slot
  credentialLease : CredentialState
  started : ℚ
  phase : Phase
  pending : Option String

/-- Where a call stands. `rest` are the candidates still to come. -/
inductive Control where
  | waiting
  | selecting (rest : List String)
  | resolving (selector : String) (lease : Circuit) (rest : List String)
  | authorizing (selector : String) (lease : Circuit) (rest : List String)
  | slotting (candidate : Candidate) (slots : List Slot) (rest : List String)
  | attempting (candidate : Candidate) (attempt : Attempt) (slots : List Slot) (rest : List String)
  | ended (answer : Except Refusal Outcome)

/-- One call: what it keeps itself, and what has come of its attempts. -/
structure Call where
  control : Control
  previous : Option Pin
  facts : List RoutingFact
  billedUsage : Usage
  billingPin : Bool
  tried : List (String × Slot)
  charged : List Usage
  /-- The attempts that showed a delta or a tool call, by number. -/
  visible : List ℕ
  /-- What the sink was handed, by the number of the attempt. -/
  shown : List (ℕ × Shown)
  /-- The last message that an attempt gave, by its number. -/
  heard : Option (ℕ × String)

def Call.start : Call := ⟨.waiting, none, [], .zero, false, [], [], [], [], none⟩

/-- The state all calls share. `minted` counts the objects made so far. -/
structure Shared where
  circuits : String → Option Circuit
  credentials : String → Option CredentialState
  pins : String → Option Pin
  streaks : String → Option ℕ
  minted : ℕ

namespace Shared

def start : Shared := ⟨fun _ => none, fun _ => none, fun _ => none, fun _ => none, 0⟩

def fresh (s : Shared) : ℕ := s.minted + 1

def setCircuit (s : Shared) (selector : String) (circuit : Circuit) : Shared :=
  { s with circuits := Function.update s.circuits selector (some circuit), minted := s.minted + 1 }

def setCredential (s : Shared) (key : String) (state : CredentialState) : Shared :=
  { s with
    credentials := Function.update s.credentials key (some state), minted := s.minted + 1 }

def setPin (s : Shared) (sessionId : String) (pin : Pin) : Shared :=
  { s with pins := Function.update s.pins sessionId (some pin) }

def setStreak (s : Shared) (selector : String) (streak : Option ℕ) : Shared :=
  { s with streaks := Function.update s.streaks selector streak }

/-- `circuits.get(selector) === lease`. -/
def sameCircuit (s : Shared) (selector : String) (lease : Circuit) : Bool :=
  (s.circuits selector).any (·.ref = lease.ref)

def sameCredential (s : Shared) (key : String) (lease : CredentialState) : Bool :=
  (s.credentials key).any (·.ref = lease.ref)

/-- The circuit closed and its streak forgotten, where it is still the one leased. -/
def closeCircuit (s : Shared) (selector : String) (lease : Circuit) : Shared :=
  if s.sameCircuit selector lease then (s.setCircuit selector .closed).setStreak selector none else s

def readyCredential (s : Shared) (key : String) (lease : CredentialState) : Shared :=
  if s.sameCredential key lease then s.setCredential key .ready else s

/-- `open` of a candidate's circuit. -/
def openCircuit (s : Shared) (selector : String) (lease : Circuit) (now : ℚ)
    (hintMs resetAt : Option ℚ) : Shared :=
  if s.sameCircuit selector lease then
    s.setCircuit selector (lease.open now hintMs resetAt s.fresh)
  else s

/-- The release of `runSlot`: a probe that nothing settled is over. -/
def releaseCredential (s : Shared) (key : String) (lease : CredentialState) : Shared :=
  if s.sameCredential key lease && lease.probing then
    s.setCredential key { lease with probing := false, ref := s.fresh }
  else s

/-- The release of `tryCandidate`. -/
def releaseCircuit (s : Shared) (selector : String) (lease : Circuit) : Shared :=
  if s.sameCircuit selector lease && lease.halfOpenLeased then
    s.setCircuit selector { lease with halfOpenLeased := false, ref := s.fresh }
  else s

end Shared

def providerOf (selector : String) : String :=
  String.ofList (selector.toList.takeWhile (· ≠ '/'))

/-- The slots of a candidate: the preferred credential first, the others as they come. -/
def orderedSlots (previous : Option Pin) (selector : String) (fingerprints : List String) : List Slot :=
  let slots := fingerprints.mapIdx fun i fingerprint => ⟨i, providerOf selector ++ ":" ++ fingerprint⟩
  let preferred := (previous.filter (·.candidate = selector)).bind (·.credential)
  slots.filter (some ·.key = preferred) ++ slots.filter (some ·.key ≠ preferred)

/-- The head of `runCandidate` once the authorizations are known. -/
def startCandidate (call : Call) (selector : String) (lease : Circuit) (rest : List String)
    (fingerprints : List String) : Call :=
  let slots := orderedSlots call.previous selector fingerprints
  { call with control := .slotting ⟨selector, slots, lease, 0, 0, none, none⟩ slots rest }

/-- `slots`: the configured credentials of the provider, else the one that `Auth.resolve` answers. -/
def authorize (route : Route) (call : Call) (selector : String) (lease : Circuit)
    (rest : List String) : Call :=
  let configured := (route.slots.filter (·.provider = providerOf selector)).map (·.fingerprint)
  if configured = [] then { call with control := .authorizing selector lease rest }
  else startCandidate call selector lease rest configured

/-- `call.facts.push`. -/
def Call.fact (call : Call) (fact : RoutingFact) : Call := { call with facts := call.facts ++ [fact] }

def minTime (a : Option ℚ) (b : ℚ) : Option ℚ := some (a.elim b (min · b))

/-- The loop head of `route`, for the candidates `rest`; `clock` are the readings within a step. -/
def selectStep (route : Route) (s : Shared) (call : Call) (rest : List String) (aborted : Bool)
    (clock : ℕ → ℚ) : Shared × Call :=
  match rest with
  | [] =>
    let openUntil := route.selectors.foldl
      (fun least selector => minTime least (((s.circuits selector).map (·.openUntil)).getD (clock 0)))
      none
    (s, { call with control := .ended (.error
      (.modelUnavailable route.category route.nearestFallback openUntil call.facts)) })
  | selector :: rest =>
    if aborted then (s, { call with control := .ended (.ok ⟨.aborted, none, call.facts, none⟩) })
    else
      match ((s.circuits selector).getD .closed).lease (clock 0) s.fresh with
      | none => (s, { call.fact ⟨selector, none, none, none, .skipCircuit⟩ with
          control := .selecting rest })
      | some lease =>
        let s := s.setCircuit selector lease
        if selector = route.primary then (s, authorize route call selector lease rest)
        else (s, { call with control := .resolving selector lease rest })

/-- The `catch` of `tryCandidate`, with its release. -/
def caught (s : Shared) (call : Call) (selector : String) (lease : Circuit) (rest : List String)
    (error : LlmError) (clock : ℕ → ℚ) : Shared × Call :=
  let decision := decide error.bare .preRequest error.retryAfterMs
  if decision.action = .swapModel ∨ decision.action = .swapCredential then
    let call := call.fact ⟨selector, none, some error.bare, none, .swapModel⟩
    ((s.openCircuit selector lease (clock 9) none none).releaseCircuit selector lease,
      { call with control := .selecting rest })
  else (s.releaseCircuit selector lease, { call with control := .ended (.error (.llm error)) })

/-- The start of `runSlot` under a fresh lease of the credential. -/
def startAttempt (call : Call) (candidate : Candidate) (slot : Slot) (lease : CredentialState)
    (slots : List Slot) (rest : List String) (started : ℚ) : Call :=
  let call := call.fact ⟨candidate.selector, some slot.key, none, none, .attempt⟩
  { call with
    control := .attempting candidate ⟨slot, lease, started, .preRequest, none⟩ slots rest
    tried := call.tried ++ [(candidate.selector, slot)] }

/-- The loop of `runCandidate` at its head. -/
def slotStep (route : Route) (s : Shared) (call : Call) (candidate : Candidate) (slots : List Slot)
    (rest : List String) (clock : ℕ → ℚ) : Shared × Call :=
  match slots with
  | [] =>
    let billingPin := call.billingPin ||
      (candidate.selector == route.primary && candidate.billingFailures == candidate.slots.length)
    let call := call.fact ⟨candidate.selector, none, none, none, .swapModel⟩
    let s := s.openCircuit candidate.selector candidate.circuitLease (clock 0) candidate.hintMs
      candidate.resetAt
    (s.releaseCircuit candidate.selector candidate.circuitLease,
      { call with control := .selecting rest, billingPin := billingPin })
  | slot :: slots =>
    let current := (s.credentials slot.key).getD .ready
    match current.lease (clock 0) s.fresh with
    | none =>
      let candidate := if clock 1 < current.blockedUntil then
        { candidate with resetAt := minTime candidate.resetAt current.blockedUntil } else candidate
      (s, { call with control := .slotting candidate slots rest })
    | some lease =>
      (s.setCredential slot.key lease, startAttempt call candidate slot lease slots rest (clock 1))

def onDelta (route : Route) (s : Shared) (call : Call) (candidate : Candidate) (attempt : Attempt) :
    Shared :=
  let s := s.closeCircuit candidate.selector candidate.circuitLease
  let s := s.readyCredential attempt.slot.key attempt.credentialLease
  s.setPin route.sessionId (selectedPin route call candidate attempt.slot)
where
  /-- `selectPin`. -/
  selectedPin (route : Route) (call : Call) (candidate : Candidate) (slot : Slot) : Pin :=
    touch call.previous ⟨route.primary, candidate.selector, some slot.key, route.turn,
      if call.billingPin then some .billing else none⟩

def Call.show (call : Call) (shown : Shown) : Call :=
  { call with shown := call.shown ++ [(call.tried.length, shown)] }

def Call.see (call : Call) : Call := { call with visible := call.visible ++ [call.tried.length] }

def Call.flush (call : Call) (pending : Option String) : Call :=
  match pending with
  | some text => call.show (.message text)
  | none => call

/-- `observe` on a delta or a tool call: the first of them settles the leases and shows what was
held back. -/
def observe (route : Route) (s : Shared) (call : Call) (candidate : Candidate) (attempt : Attempt)
    (slots : List Slot) (rest : List String) : Shared × Call :=
  match attempt.phase with
  | .streaming => (s, call.see)
  | .preRequest =>
    (onDelta route s call candidate attempt,
      { call.see.flush attempt.pending with
        control := .attempting candidate { attempt with phase := .streaming, pending := none } slots rest })

/-- `onMessage` of the wrapped sink. -/
def onMessage (call : Call) (candidate : Candidate) (attempt : Attempt) (slots : List Slot)
    (rest : List String) (text : String) : Call :=
  let call := { call with heard := some (call.tried.length, text) }
  match attempt.phase with
  | .streaming => call.show (.message text)
  | .preRequest =>
    { call with control := .attempting candidate { attempt with pending := some text } slots rest }

/-- `onToolCall` of the wrapped sink. -/
def onToolCall (call : Call) (candidate : Candidate) (attempt : Attempt) (slots : List Slot)
    (rest : List String) (id : String) : Call :=
  { call.see.show (.toolCall id) with
    control := .attempting candidate { attempt with phase := .streaming } slots rest }

/-- `healthStreak`: the new streak of immediate server failures. -/
def healthStreak (s : Shared) (candidate : Candidate) (failure : FailureClass) (attempt : Attempt)
    (now : ℚ) : ℕ :=
  let instantServer := attempt.phase = .preRequest && now - attempt.started < 2000 &&
    match failure with
    | .retryable reason .serverError _ _ false => reason ≠ .timeout
    | _ => false
  if instantServer then (s.streaks candidate.selector).getD 0 + 1 else 0

def failedProbe (candidate : Candidate) (failure : FailureClass) (phase : Phase) : Bool :=
  candidate.circuitLease.halfOpenLeased && phase = .preRequest &&
    match failure with
    | .retryable _ .serverError _ _ _ => true
    | .terminal _ _ _ detail => detail = some "unavailable"
    | _ => false

/-- The candidate after `block`. -/
def blockedCandidate (candidate : Candidate) (reason : BlockReason) (hint : Option ℚ)
    (blockedUntil : ℚ) : Candidate :=
  { candidate with
    hintMs := hint.elim candidate.hintMs fun hint => minTime candidate.hintMs hint
    transientSwaps := candidate.transientSwaps + if reason = .transient then 1 else 0
    billingFailures := candidate.billingFailures + if reason = .billing ∧ hint = none then 1 else 0
    resetAt := if reason = .billing ∧ hint.isSome then minTime candidate.resetAt blockedUntil
      else candidate.resetAt }

/-- The decision of `failureStep`: a transient swap is made once, and only towards a usable sibling. -/
def failureDecision (s : Shared) (candidate : Candidate) (attempt : Attempt) (slots : List Slot)
    (error : LlmError) (clock : ℕ → ℚ) : Decision :=
  let decision := decide error.failure attempt.phase error.retryAfterMs
  let sibling := slots.any fun slot =>
    (((s.credentials slot.key).getD .ready).lease (clock 1) s.fresh).isSome
  if decision.block = some .transient ∧ (0 < candidate.transientSwaps ∨ sibling = false) then .surface
  else decision

/-- The streak of `failureStep`, written where the circuit is still the one leased. -/
def withStreak (s : Shared) (candidate : Candidate) (streak : ℕ) : Shared :=
  if s.sameCircuit candidate.selector candidate.circuitLease then
    s.setStreak candidate.selector (some streak)
  else s

/-- `failureStep`, with the releases of the attempt and, where the call leaves it, of the candidate. -/
def failureStep (route : Route) (s : Shared) (call : Call) (candidate : Candidate) (attempt : Attempt)
    (slots : List Slot) (rest : List String) (error : LlmError) (thrown : Bool) (clock : ℕ → ℚ) :
    Shared × Call :=
  let streak := healthStreak s candidate error.failure attempt (clock 0)
  let s := withStreak s candidate streak
  let decision := failureDecision s candidate attempt slots error clock
  let call := call.fact ⟨candidate.selector, some attempt.slot.key, some error.failure, error.usage,
    decision.action.fact⟩
  let s := if decision.refusal then s.setPin route.sessionId
    ⟨route.primary, candidate.selector, some attempt.slot.key, route.turn, some .refusal⟩ else s
  let lease := attempt.credentialLease
  match decision.action, decision.block with
  | .swapCredential, some reason =>
    let blocked := CredentialState.block reason (clock 2) error.retryAfterMs s.fresh
    let s := if s.sameCredential attempt.slot.key lease then s.setCredential attempt.slot.key blocked
      else s
    (s.releaseCredential attempt.slot.key lease, { call with
      control := .slotting (blockedCandidate candidate reason error.retryAfterMs blocked.blockedUntil)
        slots rest })
  | .swapModel, _ =>
    let s := s.openCircuit candidate.selector candidate.circuitLease (clock 2)
      (error.retryAfterMs.or candidate.hintMs) candidate.resetAt
    let s := s.releaseCredential attempt.slot.key lease
    (s.releaseCircuit candidate.selector candidate.circuitLease,
      { call with control := .selecting rest })
  | _, _ =>
    let s := if 3 ≤ streak ∨ failedProbe candidate error.failure attempt.phase then
      s.openCircuit candidate.selector candidate.circuitLease (clock 2)
        (error.retryAfterMs.or candidate.hintMs) candidate.resetAt
      else s
    let call := call.flush attempt.pending
    let s := s.releaseCredential attempt.slot.key lease
    if thrown then caught s call candidate.selector candidate.circuitLease rest error clock
    else (s.releaseCircuit candidate.selector candidate.circuitLease, { call with
      control := .ended (.ok ⟨.error error, some call.billedUsage, call.facts,
        if attempt.phase = .streaming then some candidate.selector else none⟩) })

/-- `chargeAttempt`. -/
def Call.charge (call : Call) (usage : Option Usage) : Call :=
  { call with
    billedUsage := call.billedUsage.add (usage.getD .zero)
    charged := call.charged ++ [usage.getD .zero] }

/-- What `runSlot` makes of the attempt's outcome. -/
def finish (route : Route) (s : Shared) (call : Call) (candidate : Candidate) (attempt : Attempt)
    (slots : List Slot) (rest : List String) (outcome : AttemptOutcome) (clock : ℕ → ℚ) :
    Shared × Call :=
  let call := call.charge outcome.usage
  let lease := attempt.credentialLease
  let release (s : Shared) := (s.releaseCredential attempt.slot.key lease).releaseCircuit
    candidate.selector candidate.circuitLease
  match outcome with
  | .error cause => failureStep route s call candidate attempt slots rest cause false clock
  | .failure cause => failureStep route s call candidate attempt slots rest cause true clock
  | .aborted _ =>
    let call := (call.fact ⟨candidate.selector, some attempt.slot.key, none, none, .abort⟩).flush
      attempt.pending
    (release s, { call with
      control := .ended (.ok ⟨.aborted, some call.billedUsage, call.facts, none⟩) })
  | .stop _ =>
    let s := s.readyCredential attempt.slot.key lease
    let s := s.closeCircuit candidate.selector candidate.circuitLease
    let s := s.setPin route.sessionId (onDelta.selectedPin route call candidate attempt.slot)
    let call := (call.fact ⟨candidate.selector, some attempt.slot.key, none, none, .selected⟩).flush
      attempt.pending
    (release s, { call with
      control := .ended (.ok ⟨.stop, some call.billedUsage, call.facts, some candidate.selector⟩) })

/-- The releases of whatever a call holds when its fiber is interrupted or dies. -/
def interrupt (s : Shared) (call : Call) : Shared × Call :=
  let stopped := { call with control := .ended (.error .interrupted) }
  match call.control with
  | .resolving selector lease _ => (s.releaseCircuit selector lease, stopped)
  | .authorizing selector lease _ => (s.releaseCircuit selector lease, stopped)
  | .slotting candidate _ _ => (s.releaseCircuit candidate.selector candidate.circuitLease, stopped)
  | .attempting candidate attempt _ _ =>
    ((s.releaseCredential attempt.slot.key attempt.credentialLease).releaseCircuit
      candidate.selector candidate.circuitLease, stopped)
  | _ => (s, stopped)

/-- `run` failed before it streamed. -/
def AttemptOutcome.isRefusal : AttemptOutcome → Bool
  | .failure _ => true
  | _ => false

/-- What happens to one call next. The answers of the ports, the stream's events and the readings of
the clock are the environment's. -/
inductive Action where
  | enter
  | select (aborted : Bool) (clock : ℕ → ℚ)
  | resolved (answer : Except LlmError Unit) (clock : ℕ → ℚ)
  | authorized (answer : Except LlmError String) (clock : ℕ → ℚ)
  | slot (clock : ℕ → ℚ)
  | message (text : String)
  | delta
  | toolCall (id : String)
  | toolResult (id : String)
  | finish (outcome : AttemptOutcome) (clock : ℕ → ℚ)
  | interrupt

/-- One step of one call. A refusal before the stream leaves no events; the processor hears of a tool
call once `observe` has seen it, and a tool result answers a tool call. -/
def act (route : Route) (s : Shared) (call : Call) (action : Action) : Option (Shared × Call) :=
  match action, call.control with
  | .enter, .waiting =>
    let previous := s.pins route.sessionId
    some (s, { call with
      previous := previous
      control := .selecting (order route.selectors previous route.primary route.turn) })
  | .select aborted clock, .selecting rest => some (selectStep route s call rest aborted clock)
  | .resolved (.ok _) _, .resolving selector lease rest =>
    some (s, authorize route call selector lease rest)
  | .resolved (.error error) clock, .resolving selector lease rest =>
    some (caught s call selector lease rest error clock)
  | .authorized (.ok fingerprint) _, .authorizing selector lease rest =>
    some (s, startCandidate call selector lease rest [fingerprint])
  | .authorized (.error error) clock, .authorizing selector lease rest =>
    some (caught s call selector lease rest error clock)
  | .slot clock, .slotting candidate slots rest =>
    some (slotStep route s call candidate slots rest clock)
  | .message text, .attempting candidate attempt slots rest =>
    some (s, onMessage call candidate attempt slots rest text)
  | .delta, .attempting candidate attempt slots rest =>
    some (observe route s call candidate attempt slots rest)
  | .toolCall id, .attempting candidate attempt slots rest =>
    if attempt.phase = .streaming then some (s, onToolCall call candidate attempt slots rest id)
    else none
  | .toolResult id, .attempting _ attempt _ _ =>
    if attempt.phase = .streaming then some (s, call.show (.toolResult id)) else none
  | .finish outcome clock, .attempting candidate attempt slots rest =>
    if outcome.isRefusal && (attempt.phase = .streaming || attempt.pending.isSome) then none
    else some (Router.finish route s call candidate attempt slots rest outcome clock)
  | .interrupt, .waiting => none
  | .interrupt, .ended _ => none
  | .interrupt, _ => some (Router.interrupt s call)
  | _, _ => none

structure System where
  shared : Shared
  calls : ℕ → Call

namespace System

def start : System := ⟨.start, fun _ => .start⟩

/-- A step of call `i`; `routes` are what the calls are made with. -/
def step (routes : ℕ → Route) (s : System) (i : ℕ) (action : Action) : Option System :=
  (act (routes i) s.shared (s.calls i) action).map fun (shared, call) =>
    ⟨shared, Function.update s.calls i call⟩

def run (routes : ℕ → Route) : System → List (ℕ × Action) → Option System
  | s, [] => some s
  | s, (i, action) :: events => (s.step routes i action).bind fun t => run routes t events

theorem step_act {routes : ℕ → Route} {s t : System} {i : ℕ} {action : Action}
    (h : s.step routes i action = some t) :
    act (routes i) s.shared (s.calls i) action = some (t.shared, t.calls i) ∧
      t.calls = Function.update s.calls i (t.calls i) := by
  unfold step at h
  rw [Option.map_eq_some_iff] at h
  obtain ⟨⟨shared, call⟩, hact, ht⟩ := h
  subst ht
  simp only [Function.update_self]
  exact ⟨hact, trivial⟩

end System

variable {s : Shared} {candidate : Candidate} {attempt : Attempt} {slots : List Slot}

theorem failureDecision_streaming (error : LlmError) (clock : ℕ → ℚ) (hphase : attempt.phase = .streaming) :
    (failureDecision s candidate attempt slots error clock).action = .abort ∨
      (failureDecision s candidate attempt slots error clock).action = .surface := by
  unfold failureDecision
  rw [hphase]
  dsimp only
  split
  · exact .inr rfl
  · exact decide_streaming error.failure error.retryAfterMs

lemma preRequest_of_swap {error : LlmError} {clock : ℕ → ℚ}
    (h : (failureDecision s candidate attempt slots error clock).action = .swapCredential ∨
      (failureDecision s candidate attempt slots error clock).action = .swapModel) : attempt.phase = .preRequest := by
  cases hphase : attempt.phase with
  | preRequest => rfl
  | streaming =>
    have hstay : (failureDecision s candidate attempt slots error clock).action = .abort ∨
        (failureDecision s candidate attempt slots error clock).action = .surface :=
      failureDecision_streaming error clock hphase
    cases hstay with
    | inl habort => simp only [habort, reduceCtorEq, or_self] at h
    | inr hsurface => simp only [hsurface, reduceCtorEq, or_self] at h

inductive Acts (route : Route) (s : Shared) (call : Call) : Action → Shared × Call → Prop where
  | enter (hcontrol : call.control = .waiting) : Acts route s call .enter (s, { call with
      previous := s.pins route.sessionId
      control := .selecting
        (order route.selectors (s.pins route.sessionId) route.primary route.turn) })
  | select (rest : List String) (aborted : Bool) (clock : ℕ → ℚ)
      (hcontrol : call.control = .selecting rest) :
      Acts route s call (.select aborted clock) (selectStep route s call rest aborted clock)
  | resolved (selector : String) (lease : Circuit) (rest : List String) (clock : ℕ → ℚ)
      (hcontrol : call.control = .resolving selector lease rest) :
      Acts route s call (.resolved (.ok ()) clock) (s, authorize route call selector lease rest)
  | unresolved (selector : String) (lease : Circuit) (rest : List String) (error : LlmError)
      (clock : ℕ → ℚ) (hcontrol : call.control = .resolving selector lease rest) :
      Acts route s call (.resolved (.error error) clock)
        (caught s call selector lease rest error clock)
  | authorized (selector : String) (lease : Circuit) (rest : List String) (fingerprint : String)
      (clock : ℕ → ℚ) (hcontrol : call.control = .authorizing selector lease rest) :
      Acts route s call (.authorized (.ok fingerprint) clock)
        (s, startCandidate call selector lease rest [fingerprint])
  | unauthorized (selector : String) (lease : Circuit) (rest : List String) (error : LlmError)
      (clock : ℕ → ℚ) (hcontrol : call.control = .authorizing selector lease rest) :
      Acts route s call (.authorized (.error error) clock)
        (caught s call selector lease rest error clock)
  | slot (candidate : Candidate) (slots : List Slot) (rest : List String) (clock : ℕ → ℚ)
      (hcontrol : call.control = .slotting candidate slots rest) :
      Acts route s call (.slot clock) (slotStep route s call candidate slots rest clock)
  | message (candidate : Candidate) (attempt : Attempt) (slots : List Slot) (rest : List String)
      (text : String) (hcontrol : call.control = .attempting candidate attempt slots rest) :
      Acts route s call (.message text) (s, onMessage call candidate attempt slots rest text)
  | delta (candidate : Candidate) (attempt : Attempt) (slots : List Slot) (rest : List String)
      (hcontrol : call.control = .attempting candidate attempt slots rest) :
      Acts route s call .delta (observe route s call candidate attempt slots rest)
  | toolCall (candidate : Candidate) (attempt : Attempt) (slots : List Slot) (rest : List String)
      (id : String) (hcontrol : call.control = .attempting candidate attempt slots rest)
      (hphase : attempt.phase = .streaming) :
      Acts route s call (.toolCall id) (s, onToolCall call candidate attempt slots rest id)
  | toolResult (candidate : Candidate) (attempt : Attempt) (slots : List Slot) (rest : List String)
      (id : String) (hcontrol : call.control = .attempting candidate attempt slots rest)
      (hphase : attempt.phase = .streaming) :
      Acts route s call (.toolResult id) (s, call.show (.toolResult id))
  | finish (candidate : Candidate) (attempt : Attempt) (slots : List Slot) (rest : List String)
      (outcome : AttemptOutcome) (clock : ℕ → ℚ)
      (hcontrol : call.control = .attempting candidate attempt slots rest)
      (hrefusal : outcome.isRefusal → attempt.phase = .preRequest ∧ attempt.pending = none) :
      Acts route s call (.finish outcome clock)
        (Router.finish route s call candidate attempt slots rest outcome clock)
  | interrupt (hcontrol : call.control ≠ .waiting ∧ ∀ answer, call.control ≠ .ended answer) :
      Acts route s call .interrupt (Router.interrupt s call)

theorem acts_of_act {route : Route} {call : Call} {action : Action} {result : Shared × Call}
    (h : act route s call action = some result) : Acts route s call action result := by
  unfold act at h
  split at h
  case h_1 hcontrol =>
    cases h
    exact .enter hcontrol
  case h_2 aborted clock rest hcontrol =>
    cases h
    exact .select rest aborted clock hcontrol
  case h_3 hcontrol =>
    cases h
    exact .resolved _ _ _ _ hcontrol
  case h_4 hcontrol =>
    cases h
    exact .unresolved _ _ _ _ _ hcontrol
  case h_5 hcontrol =>
    cases h
    exact .authorized _ _ _ _ _ hcontrol
  case h_6 hcontrol =>
    cases h
    exact .unauthorized _ _ _ _ _ hcontrol
  case h_7 hcontrol =>
    cases h
    exact .slot _ _ _ _ hcontrol
  case h_8 hcontrol =>
    cases h
    exact .message _ _ _ _ _ hcontrol
  case h_9 hcontrol =>
    cases h
    exact .delta _ _ _ _ hcontrol
  case h_10 hcontrol =>
    split at h
    · case isTrue hphase =>
      cases h
      exact .toolCall _ _ _ _ _ hcontrol hphase
    · cases h
  case h_11 hcontrol =>
    split at h
    · case isTrue hphase =>
      cases h
      exact .toolResult _ _ _ _ _ hcontrol hphase
    · cases h
  case h_12 candidate attempt slots rest hcontrol =>
    split at h
    · cases h
    · case isFalse hopen =>
      cases h
      refine .finish _ _ _ _ _ _ hcontrol fun hrefusal => ?_
      simp only [hrefusal, Bool.true_and, Bool.or_eq_true, decide_eq_true_eq, not_or,
        Bool.not_eq_true, Option.isSome_eq_false_iff, Option.isNone_iff_eq_none] at hopen
      refine ⟨?_, hopen.2⟩
      cases hphase : attempt.phase with
      | preRequest => rfl
      | streaming => exact absurd hphase hopen.1
  case h_13 => cases h
  case h_14 => cases h
  case h_15 hwaiting hended =>
    cases h
    exact .interrupt ⟨hwaiting, hended⟩
  case h_16 => cases h

end Router
end OpenOmni
