import OpenOmni.Llm.LeaseSteps

/-! The leases over the runs of a router: its calls step in any order. -/
namespace OpenOmni

namespace Router

open Leases (Held Cells Table Move Kept OneProbe Released Left)
open Attempts (FailureClass)

namespace System
variable {routes : ℕ → Route} {s t u : System} {i : ℕ} {action : Action}

def circuitTable (s : System) : Table ℕ String Circuit :=
  s.shared.circuitCells.table fun i => (s.calls i).control.circuit

def credentialTable (s : System) : Table ℕ String CredentialState :=
  s.shared.credentialCells.table fun i => (s.calls i).control.credential

theorem step_holders {α : Type} (hold : Control → Option (Held String α))
    (h : s.step routes i action = some t) :
    (fun j => hold (t.calls j).control) =
      Function.update (fun j => hold (s.calls j).control) i (hold (t.calls i).control) := by
  funext j
  rw [(step_act h).2]
  by_cases hj : j = i
  · subst hj
    simp only [Function.update_self]
  · simp only [Function.update_of_ne hj]

lemma step_circuits (h : s.step routes i action = some t) :
    Relation.ReflTransGen (Move i) s.circuitTable t.circuitTable := by
  have hmoves := (act_circuits (step_act h).1).leads (fun j => (s.calls j).control.circuit) i rfl
  unfold circuitTable
  rw [step_holders Control.circuit h]
  exact hmoves

lemma step_credentials (h : s.step routes i action = some t) :
    Relation.ReflTransGen (Move i) s.credentialTable t.credentialTable := by
  have hmoves :=
    (act_credentials (step_act h).1).leads (fun j => (s.calls j).control.credential) i rfl
  unfold credentialTable
  rw [step_holders Control.credential h]
  exact hmoves

structure LeasesKept (s : System) : Prop where
  circuits : Kept s.circuitTable
  credentials : Kept s.credentialTable

lemma start_leasesKept : LeasesKept start := ⟨Leases.kept_empty, Leases.kept_empty⟩

lemma step_leasesKept (h : s.step routes i action = some t) (hkept : LeasesKept s) :
    LeasesKept t :=
  ⟨Leases.moves_kept (step_circuits h) hkept.circuits,
    Leases.moves_kept (step_credentials h) hkept.credentials⟩

variable {events : List (ℕ × Action)} {key : String}

lemma run_leasesKept (h : s.run routes events = some t) (hkept : LeasesKept s) : LeasesKept t := by
  induction events generalizing s with
  | nil =>
    cases h
    exact hkept
  | cons event events ih =>
    obtain ⟨next, hstep, hrun⟩ := Option.bind_eq_some_iff.mp h
    exact ih hrun (step_leasesKept hstep hkept)

lemma run_circuits_left (h : s.run routes events = some t) {lease : Circuit} (hleft : Left s.circuitTable key lease) :
    Left t.circuitTable key lease := by
  induction events generalizing s with
  | nil =>
    cases h
    exact hleft
  | cons event events ih =>
    obtain ⟨next, hstep, hrun⟩ := Option.bind_eq_some_iff.mp h
    exact ih hrun (Leases.moves_left (step_circuits hstep) hleft)

lemma run_credentials_left (h : s.run routes events = some t) {lease : CredentialState}
    (hleft : Left s.credentialTable key lease) : Left t.credentialTable key lease := by
  induction events generalizing s with
  | nil =>
    cases h
    exact hleft
  | cons event events ih =>
    obtain ⟨next, hstep, hrun⟩ := Option.bind_eq_some_iff.mp h
    exact ih hrun (Leases.moves_left (step_credentials hstep) hleft)

end System

section Entered
variable {route : Route} {s : Shared} {call : Call} {action : Action} {result : Shared × Call}

variable {rest : List String} {clock : ℕ → ℚ} {held : Held String Circuit}

lemma selectStep_entered {aborted : Bool}
    (h : (selectStep route s call rest aborted clock).2.control.circuit = some held) :
    ((s.circuits held.key).getD .closed).halfOpenLeased = false ∧
      ((s.circuits held.key).getD .closed).openUntil ≤ clock 0 := by
  unfold selectStep at h
  split at h
  · cases h
  · case h_2 selector rest =>
    split at h
    · cases h
    · split at h
      · cases h
      · case h_2 lease hlease =>
        obtain ⟨hfree, hdue, -⟩ := Circuit.lease_cases hlease
        have hkey : held.key = selector := by
          dsimp only at h
          split at h
          · unfold authorize at h
            dsimp only at h
            split at h
            · cases h
              rfl
            · cases h
              rfl
          · cases h
            rfl
        rw [hkey]
        exact ⟨hfree, hdue⟩

lemma slotStep_began {candidate : Candidate} {slots : List Slot} {held : Held String CredentialState}
    (h : (slotStep route s call candidate slots rest clock).2.control.credential = some held) :
    ((s.credentials held.key).getD .ready).probing = false ∧
      ((s.credentials held.key).getD .ready).blockedUntil ≤ clock 0 := by
  unfold slotStep at h
  split at h
  · cases h
  · dsimp only at h
    split at h
    · cases h
    · case h_2 lease hlease =>
      obtain ⟨hfree, hdue, -⟩ := CredentialState.lease_cases hlease
      cases h
      exact ⟨hfree, hdue⟩

lemma interrupt_ended : (interrupt s call).2.control = .ended (.error .interrupted) := by
  unfold interrupt
  split <;> rfl

theorem entered_free (h : act route s call action = some result) (hnone : call.control.circuit = none)
    (hheld : result.2.control.circuit = some held) : ∃ aborted clock, action = .select aborted clock ∧
      ((s.circuits held.key).getD .closed).halfOpenLeased = false ∧
      ((s.circuits held.key).getD .closed).openUntil ≤ clock 0 := by
  cases acts_of_act h with
  | enter hcontrol => cases hheld
  | select rest aborted clock hcontrol => exact ⟨aborted, clock, rfl, selectStep_entered hheld⟩
  | interrupt hcontrol =>
    rw [interrupt_ended] at hheld
    cases hheld
  | resolved selector lease rest clock hcontrol | unresolved selector lease rest error clock hcontrol
  | authorized selector lease rest name clock hcontrol | unauthorized selector lease rest error clock hcontrol
  | slot candidate slots rest clock hcontrol | message candidate attempt slots rest text hcontrol
  | delta candidate attempt slots rest hcontrol | toolCall candidate attempt slots rest id hcontrol
  | toolResult candidate attempt slots rest id hcontrol => rw [hcontrol] at hnone; cases hnone
  | finish candidate attempt slots rest outcome clock hcontrol =>
    rw [hcontrol] at hnone
    cases hnone

theorem began_free (h : act route s call action = some result) {held : Held String CredentialState}
    (hnone : call.control.credential = none) (hheld : result.2.control.credential = some held) :
    ∃ clock, action = .slot clock ∧
      ((s.credentials held.key).getD .ready).probing = false ∧
      ((s.credentials held.key).getD .ready).blockedUntil ≤ clock 0 := by
  cases acts_of_act h with
  | enter hcontrol | authorized selector lease rest name clock hcontrol => cases hheld
  | slot candidate slots rest clock hcontrol => exact ⟨clock, rfl, slotStep_began hheld⟩
  | interrupt hcontrol =>
    rw [interrupt_ended] at hheld
    cases hheld
  | select rest aborted clock hcontrol =>
    rw [(selectStep_keepsCredentials aborted clock).2] at hheld
    cases hheld
  | resolved selector lease rest clock hcontrol =>
    unfold authorize at hheld
    dsimp only at hheld
    split at hheld
    · cases hheld
    · cases hheld
  | unresolved selector lease rest error clock hcontrol | unauthorized selector lease rest error clock hcontrol =>
    rw [(caught_keepsCredentials selector lease error clock).2] at hheld
    cases hheld
  | message candidate attempt slots rest text hcontrol | delta candidate attempt slots rest hcontrol
  | toolCall candidate attempt slots rest id hcontrol | toolResult candidate attempt slots rest id hcontrol => rw [hcontrol] at hnone; cases hnone
  | finish candidate attempt slots rest outcome clock hcontrol =>
    rw [hcontrol] at hnone
    cases hnone

end Entered

namespace System
variable {routes : ℕ → Route} {s t u : System} {i : ℕ} {action : Action}

/-- What holds of the leases at every moment: one open probe a candidate and a credential, and none that
its call has not still in hand. -/
structure Leased (s : System) : Prop where
  oneCircuitProbe : OneProbe s.circuitTable
  oneCredentialProbe : OneProbe s.credentialTable
  circuitsReleased : Released s.circuitTable
  credentialsReleased : Released s.credentialTable

/-- What a step of call `i` does with its leases: it enters a candidate on a circuit that is not open,
begins an attempt on a credential that is not blocked, and writes only the circuit and the credential it
has leased, each only while it is the object leased. -/
structure LeaseStep (s : System) (i : ℕ) (action : Action) (t : System) : Prop where
  entered : ∀ held, (s.calls i).control.circuit = none → (t.calls i).control.circuit = some held →
    ∃ aborted clock, action = .select aborted clock ∧
      ((s.shared.circuits held.key).getD .closed).halfOpenLeased = false ∧
      ((s.shared.circuits held.key).getD .closed).openUntil ≤ clock 0
  began : ∀ held, (s.calls i).control.credential = none →
    (t.calls i).control.credential = some held →
    ∃ clock, action = .slot clock ∧
      ((s.shared.credentials held.key).getD .ready).probing = false ∧
      ((s.shared.credentials held.key).getD .ready).blockedUntil ≤ clock 0
  circuitWrites : ∀ held, (s.calls i).control.circuit = some held →
    ∀ key, t.shared.circuits key ≠ s.shared.circuits key →
      key = held.key ∧ s.shared.circuits key = some held.lease
  credentialWrites : ∀ held, (s.calls i).control.credential = some held →
    ∀ key, t.shared.credentials key ≠ s.shared.credentials key →
      key = held.key ∧ s.shared.credentials key = some held.lease

/-- Where call `i` finds that what it leased has changed, it never writes it again, however the system
runs on; the shared `closed` and `ready` aside, which may come back. -/
structure NeverOverwrites (routes : ℕ → Route) (s : System) (i : ℕ) : Prop where
  circuit : ∀ held, (s.calls i).control.circuit = some held → held.lease.ref ≠ 0 →
    s.shared.circuits held.key ≠ some held.lease →
    ∀ events t, run routes s events = some t →
      ∀ settled, (t.calls i).control.circuit = some ⟨held.key, held.lease, settled⟩ →
      ∀ action u, t.step routes i action = some u → u.shared.circuits = t.shared.circuits
  credential : ∀ held, (s.calls i).control.credential = some held → held.lease.ref ≠ 0 →
    s.shared.credentials held.key ≠ some held.lease →
    ∀ events t, run routes s events = some t →
      ∀ settled, (t.calls i).control.credential = some ⟨held.key, held.lease, settled⟩ →
      ∀ action u, t.step routes i action = some u → u.shared.credentials = t.shared.credentials

lemma LeasesKept.leased (h : LeasesKept s) : Leased s :=
  ⟨h.circuits.oneProbe, h.credentials.oneProbe, h.circuits.held, h.credentials.held⟩

lemma LeasesKept.step (hkept : LeasesKept s) (h : s.step routes i action = some t) :
    LeaseStep s i action t := by
  have hact := (step_act h).1
  refine ⟨fun held => entered_free hact, fun held => began_free hact, fun held hheld key hkey => ?_,
    fun held hheld key hkey => ?_⟩
  · have hsteps := act_circuits hact
    rw [hheld] at hsteps
    cases hsteps with
    | held hserves =>
      obtain ⟨rfl, hsame⟩ := hserves.writes key hkey
      exact ⟨rfl, (hkept.circuits.same_iff hheld).mp hsame⟩
  · have hsteps := act_credentials hact
    rw [hheld] at hsteps
    cases hsteps with
    | held hserves =>
      obtain ⟨rfl, hsame⟩ := hserves.writes key hkey
      exact ⟨rfl, (hkept.credentials.same_iff hheld).mp hsame⟩

lemma LeasesKept.neverOverwrites (hkept : LeasesKept s) : NeverOverwrites routes s i := by
  refine ⟨fun held hheld hown hcell events t hrun settled hlater action u hstep => ?_,
    fun held hheld hown hcell events t hrun settled hlater action u hstep => ?_⟩
  · have hleft : Left t.circuitTable held.key held.lease :=
      run_circuits_left hrun (hkept.circuits.left_of_ne hheld hown hcell)
    funext key
    by_contra hkey
    obtain ⟨rfl, hsame⟩ :=
      ((run_leasesKept hrun hkept).step hstep).circuitWrites _ hlater key hkey
    exact hleft.2.2 held.lease hsame rfl
  · have hleft : Left t.credentialTable held.key held.lease :=
      run_credentials_left hrun (hkept.credentials.left_of_ne hheld hown hcell)
    funext key
    by_contra hkey
    obtain ⟨rfl, hsame⟩ :=
      ((run_leasesKept hrun hkept).step hstep).credentialWrites _ hlater key hkey
    exact hleft.2.2 held.lease hsame rfl

/-- The leases in every interleaving of the calls of one router. -/
theorem leases_kept (routes : ℕ → Route) (events : List (ℕ × Action)) (s : System)
    (h : run routes start events = some s) :
    Leased s ∧ (∀ i action t, s.step routes i action = some t → LeaseStep s i action t) ∧
      ∀ i, NeverOverwrites routes s i := by
  have hkept := run_leasesKept h start_leasesKept
  exact ⟨hkept.leased, fun i action t hstep => hkept.step hstep, fun i => hkept.neverOverwrites⟩

end System

namespace System

def pairedRoute : Route :=
  ⟨"p/m", "main", ["p/m"], none, [⟨"p", "a"⟩, ⟨"p", "b"⟩], "session", "turn"⟩

/-- A failure that is classified the same with and without its attempt's facts. -/
def failing (failure : FailureClass) : LlmError := ⟨failure, failure, none, none⟩

/-- Two calls enter the candidate together; one finds the model gone, the other is told to slow down. -/
def openedMeanwhile : List (ℕ × Action) :=
  [(0, .enter), (0, .select false 0), (0, .slot 0), (1, .enter), (1, .select false 0), (1, .slot 0),
    (1, .finish (.error (failing (.terminal .transientError .nonRetryable (some 404) none))) 0),
    (0, .finish (.error (failing (.retryable .transientError .rateLimit none false false))) 0)]

theorem leases_kept_opened : ∃ s, run (fun _ => pairedRoute) start openedMeanwhile = some s ∧
    (Leased s ∧
      (∀ i action t, s.step (fun _ => pairedRoute) i action = some t → LeaseStep s i action t) ∧
      ∀ i, NeverOverwrites (fun _ => pairedRoute) s i) ∧
    (s.calls 0).control.circuit = some ⟨"p/m", .closed, false⟩ ∧
    (s.calls 1).control.circuit = none ∧
    s.shared.circuits "p/m" = some ⟨5, 1, 60000, false⟩ := by
  refine ⟨_, rfl, leases_kept _ openedMeanwhile _ rfl, ?_⟩
  decide +kernel

/-- The circuit is read once for a candidate: an attempt on its next credential starts although another
call has opened the circuit meanwhile. -/
theorem attempt_on_open_circuit :
    ¬ ∀ routes events s i clock t held, run routes start events = some s →
      s.step routes i (.slot clock) = some t → (s.calls i).control.credential = none →
      (t.calls i).control.credential = some held → ∀ circuit, (t.calls i).control.circuit = some circuit →
      ((s.shared.circuits circuit.key).getD .closed).openUntil ≤ clock 0 := by
  intro hall
  have hopen := hall (fun _ => pairedRoute) openedMeanwhile _ 0 0 _ ⟨"p:b", .ready, false⟩ rfl rfl rfl
    (by decide) ⟨"p/m", .closed, false⟩ (by decide)
  exact absurd hopen (by decide +kernel)

end System

end Router
end OpenOmni
