import OpenOmni.Lib.Leases
import OpenOmni.Llm.Router

/-! Each step of a call as what it does to the leases on circuits and on credentials. -/
namespace OpenOmni

namespace Router

open Leases (Leasable Held Cells Settled)

instance : Leasable Circuit where
  ref := Circuit.ref
  probe := Circuit.halfOpenLeased
  base := .closed
  ref_base := rfl
  probe_base := rfl

instance : Leasable CredentialState where
  ref := CredentialState.ref
  probe := CredentialState.probing
  base := .ready
  ref_base := rfl
  probe_base := rfl

/-- The circuit a call has leased; the first delta of an attempt settles it. -/
def Control.circuit : Control → Option (Held String Circuit)
  | .resolving selector lease _ => some ⟨selector, lease, false⟩
  | .authorizing selector lease _ => some ⟨selector, lease, false⟩
  | .slotting candidate _ _ => some ⟨candidate.selector, candidate.circuitLease, false⟩
  | .attempting candidate attempt _ _ =>
    some ⟨candidate.selector, candidate.circuitLease, attempt.phase = .streaming⟩
  | _ => none

def Control.credential : Control → Option (Held String CredentialState)
  | .attempting _ attempt _ _ =>
    some ⟨attempt.slot.key, attempt.credentialLease, attempt.phase = .streaming⟩
  | _ => none

namespace Shared
variable (s : Shared) (selector key : String) (circuit lease : Circuit) (state credential : CredentialState)

def circuitCells : Cells String Circuit := ⟨s.circuits, s.minted⟩
def credentialCells : Cells String CredentialState := ⟨s.credentials, s.minted⟩

/-- What is done to the credentials leaves the circuits, and may make objects. -/
structure KeepsCircuits (s t : Shared) : Prop where
  circuits : t.circuits = s.circuits
  minted : s.minted ≤ t.minted

structure KeepsCredentials (s t : Shared) : Prop where
  credentials : t.credentials = s.credentials
  minted : s.minted ≤ t.minted

variable {s} {t u : Shared}

lemma KeepsCircuits.refl : KeepsCircuits s s := ⟨rfl, le_rfl⟩

lemma KeepsCircuits.trans (h : KeepsCircuits s t) (h' : KeepsCircuits t u) : KeepsCircuits s u :=
  ⟨h'.circuits.trans h.circuits, h.minted.trans h'.minted⟩

lemma KeepsCredentials.refl : KeepsCredentials s s := ⟨rfl, le_rfl⟩

lemma KeepsCredentials.trans (h : KeepsCredentials s t) (h' : KeepsCredentials t u) :
    KeepsCredentials s u :=
  ⟨h'.credentials.trans h.credentials, h.minted.trans h'.minted⟩

lemma KeepsCircuits.steps (h : KeepsCircuits s t) (held : Option (Held String Circuit)) :
    Cells.Steps s.circuitCells held t.circuitCells held := by
  cases held with
  | none => exact .free (.mint h.circuits h.minted)
  | some held => exact .held (.mint h.circuits h.minted)

lemma KeepsCircuits.serves (h : KeepsCircuits s t) (held : Held String Circuit) :
    s.circuitCells.Serves held t.circuitCells (some held) :=
  .mint h.circuits h.minted

lemma KeepsCredentials.steps (h : KeepsCredentials s t)
    (held : Option (Held String CredentialState)) :
    Cells.Steps s.credentialCells held t.credentialCells held := by
  cases held with
  | none => exact .free (.mint h.credentials h.minted)
  | some held => exact .held (.mint h.credentials h.minted)

lemma KeepsCredentials.serves (h : KeepsCredentials s t) (held : Held String CredentialState) :
    s.credentialCells.Serves held t.credentialCells (some held) :=
  .mint h.credentials h.minted

lemma KeepsCredentials.after {held : Held String CredentialState} (h : KeepsCredentials t u)
    (hserves : s.credentialCells.Serves held t.credentialCells none) :
    s.credentialCells.Serves held u.credentialCells none :=
  hserves.after h.credentials h.minted

variable (s)

lemma setCredential_keeps : KeepsCircuits s (s.setCredential key state) :=
  ⟨rfl, Nat.le_succ s.minted⟩

lemma setPin_keepsCircuits (pin : Pin) : KeepsCircuits s (s.setPin key pin) :=
  ⟨rfl, le_rfl⟩

lemma setPin_keepsCredentials (pin : Pin) : KeepsCredentials s (s.setPin key pin) :=
  ⟨rfl, le_rfl⟩

lemma readyCredential_keeps : KeepsCircuits s (s.readyCredential key credential) := by
  unfold readyCredential
  split
  · exact s.setCredential_keeps key .ready
  · exact .refl

lemma releaseCredential_keeps : KeepsCircuits s (s.releaseCredential key credential) := by
  unfold releaseCredential
  split
  · exact s.setCredential_keeps key _
  · exact .refl

lemma setCircuit_keeps : KeepsCredentials s (s.setCircuit selector circuit) :=
  ⟨rfl, Nat.le_succ s.minted⟩

lemma closeCircuit_keeps : KeepsCredentials s (s.closeCircuit selector lease) := by
  unfold closeCircuit
  split
  · exact ⟨rfl, Nat.le_succ s.minted⟩
  · exact .refl

lemma openCircuit_keeps (now : ℚ) (hintMs resetAt : Option ℚ) :
    KeepsCredentials s (s.openCircuit selector lease now hintMs resetAt) := by
  unfold openCircuit
  split
  · exact s.setCircuit_keeps selector _
  · exact .refl

lemma releaseCircuit_keeps : KeepsCredentials s (s.releaseCircuit selector lease) := by
  unfold releaseCircuit
  split
  · exact s.setCircuit_keeps selector _
  · exact .refl

variable (settled : Bool)

theorem closeCircuit_serves : s.circuitCells.Serves ⟨selector, lease, settled⟩
    (s.closeCircuit selector lease).circuitCells (some ⟨selector, lease, true⟩) := by
  have hminted : s.minted ≤ (s.closeCircuit selector lease).minted :=
    (s.closeCircuit_keeps selector lease).minted
  refine .settle (.inl rfl) hminted (Nat.zero_le _) ?_
  unfold closeCircuit sameCircuit
  split <;> rename_i hsame
  · exact (if_pos hsame).symm
  · exact (if_neg hsame).symm

lemma openCircuit_serves (now : ℚ) (hintMs resetAt : Option ℚ) :
    s.circuitCells.Serves ⟨selector, lease, settled⟩
      (s.openCircuit selector lease now hintMs resetAt).circuitCells
      (some ⟨selector, lease, true⟩) := by
  have hminted := (s.openCircuit_keeps selector lease now hintMs resetAt).minted
  by_cases hsame : s.sameCircuit selector lease = true
  · have hopen : s.openCircuit selector lease now hintMs resetAt =
        s.setCircuit selector (lease.open now hintMs resetAt s.fresh) := if_pos hsame
    rw [hopen] at hminted ⊢
    exact .settle (.inr ⟨Nat.lt_succ_self s.minted, rfl⟩) hminted le_rfl (if_pos hsame).symm
  · have hopen : s.openCircuit selector lease now hintMs resetAt = s := if_neg hsame
    rw [hopen]
    exact .settle (.inl rfl) le_rfl (Nat.zero_le _) (if_neg hsame).symm

lemma releaseCircuit_serves : s.circuitCells.Serves ⟨selector, lease, settled⟩
    (s.releaseCircuit selector lease).circuitCells none := by
  by_cases hheld : (s.sameCircuit selector lease && lease.halfOpenLeased) = true
  · have hrelease : s.releaseCircuit selector lease =
        s.setCircuit selector { lease with halfOpenLeased := false, ref := s.fresh } := if_pos hheld
    rw [hrelease]
    exact .drop (.inr ⟨Nat.lt_succ_self s.minted, rfl⟩) (Nat.le_succ s.minted) le_rfl
      (if_pos hheld).symm
  · have hrelease : s.releaseCircuit selector lease = s := if_neg hheld
    rw [hrelease]
    exact .drop (.inl rfl) le_rfl (Nat.zero_le _) (if_neg hheld).symm

variable {now : ℚ}

theorem leaseCircuit_leads (h : ((s.circuits selector).getD .closed).lease now s.fresh = some lease) :
    s.circuitCells.Leads none (s.setCircuit selector lease).circuitCells
      (some ⟨selector, lease, false⟩) := by
  obtain ⟨hfree, -, hlease⟩ := Circuit.lease_cases h
  refine .lease (fun c hc => ?_) ?_ (Nat.le_succ s.minted) rfl
  · have hcell : s.circuits selector = some c := hc
    rw [hcell] at hfree
    exact hfree
  · cases hlease with
    | inl hjoin => exact .inl hjoin
    | inr hprobe =>
      have hnew : s.minted < lease.ref := hprobe.1.symm ▸ Nat.lt_succ_self s.minted
      exact .inr ⟨hprobe.2, hnew, hprobe.1.le⟩

theorem leaseCredential_leads (h : ((s.credentials key).getD .ready).lease now s.fresh = some credential) :
    s.credentialCells.Leads none (s.setCredential key credential).credentialCells
      (some ⟨key, credential, false⟩) := by
  obtain ⟨hfree, -, hlease⟩ := CredentialState.lease_cases h
  refine .lease (fun c hc => ?_) ?_ (Nat.le_succ s.minted) rfl
  · have hcell : s.credentials key = some c := hc
    rw [hcell] at hfree
    exact hfree
  · cases hlease with
    | inl hjoin => exact .inl hjoin
    | inr hprobe =>
      have hnew : s.minted < credential.ref := hprobe.1.symm ▸ Nat.lt_succ_self s.minted
      exact .inr ⟨hprobe.2, hnew, hprobe.1.le⟩

lemma readyCredential_serves : s.credentialCells.Serves ⟨key, credential, settled⟩
    (s.readyCredential key credential).credentialCells (some ⟨key, credential, true⟩) := by
  refine .settle (.inl rfl) ?_ (Nat.zero_le _) ?_
  · exact (s.readyCredential_keeps key credential).minted
  · unfold readyCredential sameCredential
    split <;> rename_i hsame
    · exact (if_pos hsame).symm
    · exact (if_neg hsame).symm

theorem blockCredential_serves (reason : BlockReason) (now : ℚ) (hintMs : Option ℚ) :
    s.credentialCells.Serves ⟨key, credential, settled⟩
      (if s.sameCredential key credential then
        s.setCredential key (CredentialState.block reason now hintMs s.fresh) else s).credentialCells
      (some ⟨key, credential, true⟩) := by
  by_cases hsame : s.sameCredential key credential = true
  · rw [if_pos hsame]
    exact .settle (.inr ⟨Nat.lt_succ_self s.minted, rfl⟩) (Nat.le_succ s.minted) le_rfl
      (if_pos hsame).symm
  · rw [if_neg hsame]
    exact .settle (.inl rfl) le_rfl (Nat.zero_le _) (if_neg hsame).symm

lemma releaseCredential_serves : s.credentialCells.Serves ⟨key, credential, settled⟩
    (s.releaseCredential key credential).credentialCells none := by
  by_cases hheld : (s.sameCredential key credential && credential.probing) = true
  · have hrelease : s.releaseCredential key credential =
        s.setCredential key { credential with probing := false, ref := s.fresh } := if_pos hheld
    rw [hrelease]
    exact .drop (.inr ⟨Nat.lt_succ_self s.minted, rfl⟩) (Nat.le_succ s.minted) le_rfl
      (if_pos hheld).symm
  · have hrelease : s.releaseCredential key credential = s := if_neg hheld
    rw [hrelease]
    exact .drop (.inl rfl) le_rfl (Nat.zero_le _) (if_neg hheld).symm

end Shared

section Steps
open Shared
variable {route : Route} {s : Shared} {call : Call} {candidate : Candidate} {attempt : Attempt}
  {slots : List Slot} {rest : List String}

lemma withStreak_keepsCircuits (streak : ℕ) : KeepsCircuits s (withStreak s candidate streak) := by
  unfold withStreak
  split
  · exact ⟨rfl, le_rfl⟩
  · exact .refl

lemma withStreak_keepsCredentials (streak : ℕ) :
    KeepsCredentials s (withStreak s candidate streak) := by
  unfold withStreak
  split
  · exact ⟨rfl, le_rfl⟩
  · exact .refl

lemma selectStep_circuits (aborted : Bool) (clock : ℕ → ℚ) :
    s.circuitCells.Leads none (selectStep route s call rest aborted clock).1.circuitCells
      (selectStep route s call rest aborted clock).2.control.circuit := by
  unfold selectStep
  split
  · exact .mint rfl le_rfl
  · case h_2 selector rest =>
    split
    · exact .mint rfl le_rfl
    · split
      · exact .mint rfl le_rfl
      · case h_2 lease hlease =>
        have hlead := s.leaseCircuit_leads selector lease hlease
        dsimp only
        split
        · unfold authorize
          dsimp only
          split
          · exact hlead
          · exact hlead
        · exact hlead

lemma caught_circuits (selector : String) (lease : Circuit) (settled : Bool) (error : LlmError)
    (clock : ℕ → ℚ) :
    s.circuitCells.Serves ⟨selector, lease, settled⟩
      (caught s call selector lease rest error clock).1.circuitCells
      (caught s call selector lease rest error clock).2.control.circuit := by
  unfold caught
  dsimp only
  split
  · exact (s.openCircuit_serves selector lease settled _ _ _).trans
      (releaseCircuit_serves _ selector lease true)
  · exact s.releaseCircuit_serves selector lease settled

lemma slotStep_circuits (clock : ℕ → ℚ) :
    s.circuitCells.Serves ⟨candidate.selector, candidate.circuitLease, false⟩
      (slotStep route s call candidate slots rest clock).1.circuitCells
      (slotStep route s call candidate slots rest clock).2.control.circuit := by
  unfold slotStep
  split
  · exact (s.openCircuit_serves _ _ false _ _ _).trans (releaseCircuit_serves _ _ _ true)
  · dsimp only
    split
    · split
      · exact KeepsCircuits.refl.serves _
      · exact KeepsCircuits.refl.serves _
    · exact (s.setCredential_keeps _ _).serves _

lemma onDelta_circuits :
    s.circuitCells.Serves ⟨candidate.selector, candidate.circuitLease, false⟩
      (onDelta route s call candidate attempt).circuitCells
      (some ⟨candidate.selector, candidate.circuitLease, true⟩) := by
  unfold onDelta
  have hready := readyCredential_keeps (s.closeCircuit candidate.selector candidate.circuitLease)
    attempt.slot.key attempt.credentialLease
  exact (s.closeCircuit_serves _ _ false).trans
    ((hready.trans (setPin_keepsCircuits _ _ _)).serves _)

lemma failureStep_circuits (error : LlmError) (thrown : Bool) (clock : ℕ → ℚ) :
    s.circuitCells.Serves ⟨candidate.selector, candidate.circuitLease, attempt.phase = .streaming⟩
      (failureStep route s call candidate attempt slots rest error thrown clock).1.circuitCells
      (failureStep route s call candidate attempt slots rest error thrown clock).2.control.circuit := by
  unfold failureStep
  extract_lets streak struck decision seen pinned lease opened freed maybeOpened flushed released
  have hpin : KeepsCircuits s pinned := by
    have hstruck : KeepsCircuits s struck := withStreak_keepsCircuits streak
    refine hstruck.trans ?_
    unfold pinned
    split
    · exact setPin_keepsCircuits _ _ _
    · exact .refl
  have hrelease : ∀ u : Shared, KeepsCircuits u (u.releaseCredential attempt.slot.key lease) :=
    fun u => u.releaseCredential_keeps attempt.slot.key lease
  split
  · case h_1 reason haction hblock =>
    -- the circuit's lease stays with the candidate, and nothing has streamed
    have hphase : attempt.phase = .preRequest := preRequest_of_swap (.inl haction)
    rw [hphase]
    refine KeepsCircuits.serves (hpin.trans (KeepsCircuits.trans ?_ (hrelease _))) _
    split
    · exact setCredential_keeps _ _ _
    · exact .refl
  · have hopened : pinned.circuitCells.Serves ⟨candidate.selector, candidate.circuitLease, attempt.phase = .streaming⟩
        opened.circuitCells (some ⟨candidate.selector, candidate.circuitLease, true⟩) :=
      pinned.openCircuit_serves _ _ _ _ _ _
    refine (hpin.serves _).trans (hopened.trans ?_)
    exact ((hrelease opened).serves _).trans (freed.releaseCircuit_serves _ _ true)
  · -- whether or not the circuit was opened, the lease ends
    have hopened : ∃ settled, s.circuitCells.Serves ⟨candidate.selector, candidate.circuitLease, attempt.phase = .streaming⟩
        maybeOpened.circuitCells (some ⟨candidate.selector, candidate.circuitLease, settled⟩) := by
      unfold maybeOpened
      split
      · exact ⟨true, (hpin.serves _).trans (openCircuit_serves pinned _ _ _ _ _ _)⟩
      · exact ⟨_, hpin.serves _⟩
    obtain ⟨settled, hlead⟩ := hopened
    refine hlead.trans (((hrelease maybeOpened).serves _).trans ?_)
    split
    · exact caught_circuits _ _ settled _ _
    · exact released.releaseCircuit_serves _ _ settled

lemma finish_circuits (outcome : AttemptOutcome) (clock : ℕ → ℚ) :
    s.circuitCells.Serves ⟨candidate.selector, candidate.circuitLease, attempt.phase = .streaming⟩
      (finish route s call candidate attempt slots rest outcome clock).1.circuitCells
      (finish route s call candidate attempt slots rest outcome clock).2.control.circuit := by
  have hrelease : ∀ u : Shared,
      KeepsCircuits u (u.releaseCredential attempt.slot.key attempt.credentialLease) :=
    fun u => u.releaseCredential_keeps attempt.slot.key attempt.credentialLease
  unfold finish
  cases outcome with
  | stop usage =>
    extract_lets charged lease release stopped ready closed pinned flushed
    have hready : KeepsCircuits s ready := s.readyCredential_keeps _ _
    have hpin : KeepsCircuits closed pinned := closed.setPin_keepsCircuits _ _
    refine (hready.serves _).trans ((ready.closeCircuit_serves _ _ _).trans ((hpin.serves _).trans ?_))
    exact ((hrelease pinned).serves _).trans (releaseCircuit_serves _ _ _ true)
  | aborted usage => exact ((hrelease s).serves _).trans (releaseCircuit_serves _ _ _ _)
  | error cause => exact failureStep_circuits cause false clock
  | failure cause => exact failureStep_circuits cause true clock

lemma interrupt_circuits (h : ∀ answer, call.control ≠ .ended answer) :
    Cells.Steps s.circuitCells call.control.circuit (interrupt s call).1.circuitCells
      (interrupt s call).2.control.circuit := by
  unfold interrupt
  cases hcontrol : call.control with
  | waiting | selecting rest => exact KeepsCircuits.refl.steps _
  | resolving selector lease rest | authorizing selector lease rest => exact .held (s.releaseCircuit_serves selector lease false)
  | slotting candidate slots rest => exact .held (s.releaseCircuit_serves _ _ false)
  | attempting candidate attempt slots rest =>
    have hfreed := s.releaseCredential_keeps attempt.slot.key attempt.credentialLease
    exact .held ((hfreed.serves _).trans (releaseCircuit_serves _ _ _ _))
  | ended answer => exact absurd hcontrol (h answer)

variable {action : Action} {result : Shared × Call}

theorem act_circuits (h : act route s call action = some result) :
    Cells.Steps s.circuitCells call.control.circuit result.1.circuitCells result.2.control.circuit := by
  cases acts_of_act h with
  | enter hcontrol | authorized selector lease rest fingerprint clock hcontrol =>
    rw [hcontrol]
    exact KeepsCircuits.refl.steps _
  | select rest aborted clock hcontrol =>
    rw [hcontrol]
    exact .free (selectStep_circuits aborted clock)
  | resolved selector lease rest clock hcontrol =>
    rw [hcontrol]
    unfold authorize
    dsimp only
    split
    · exact KeepsCircuits.refl.steps _
    · exact KeepsCircuits.refl.steps _
  | unresolved selector lease rest error clock hcontrol | unauthorized selector lease rest error clock hcontrol =>
    rw [hcontrol]
    exact .held (caught_circuits selector lease false error clock)
  | slot candidate slots rest clock hcontrol =>
    rw [hcontrol]
    exact .held (slotStep_circuits clock)
  | message candidate attempt slots rest text hcontrol =>
    have hsame : (onMessage call candidate attempt slots rest text).control.circuit =
        call.control.circuit := by
      unfold onMessage
      split
      · rfl
      · rw [hcontrol]
        rfl
    rw [hsame]
    exact KeepsCircuits.refl.steps _
  | delta candidate attempt slots rest hcontrol =>
    unfold observe
    cases hphase : attempt.phase with
    | preRequest =>
      rw [hcontrol]
      unfold Control.circuit
      dsimp only
      rw [hphase]
      exact .held onDelta_circuits
    | streaming => exact KeepsCircuits.refl.steps _
  | toolCall candidate attempt slots rest id hcontrol hphase =>
    rw [hcontrol]
    unfold Control.circuit
    dsimp only
    rw [hphase]
    exact KeepsCircuits.refl.steps _
  | toolResult candidate attempt slots rest id hcontrol hphase => exact KeepsCircuits.refl.steps _
  | finish candidate attempt slots rest outcome clock hcontrol hrefusal =>
    rw [hcontrol]
    exact .held (finish_circuits outcome clock)
  | interrupt hcontrol => exact interrupt_circuits hcontrol.2

lemma caught_keepsCredentials (selector : String) (lease : Circuit) (error : LlmError)
    (clock : ℕ → ℚ) :
    KeepsCredentials s (caught s call selector lease rest error clock).1 ∧
      (caught s call selector lease rest error clock).2.control.credential = none := by
  unfold caught
  dsimp only
  split
  · exact ⟨(s.openCircuit_keeps selector lease _ _ _).trans (releaseCircuit_keeps _ selector lease),
      rfl⟩
  · exact ⟨s.releaseCircuit_keeps selector lease, rfl⟩

lemma selectStep_keepsCredentials (aborted : Bool) (clock : ℕ → ℚ) :
    KeepsCredentials s (selectStep route s call rest aborted clock).1 ∧
      (selectStep route s call rest aborted clock).2.control.credential = none := by
  unfold selectStep
  split
  · exact ⟨.refl, rfl⟩
  · case h_2 selector rest =>
    split
    · exact ⟨.refl, rfl⟩
    · split
      · exact ⟨.refl, rfl⟩
      · dsimp only
        split
        · refine ⟨s.setCircuit_keeps selector _, ?_⟩
          unfold authorize
          dsimp only
          split
          · rfl
          · rfl
        · exact ⟨s.setCircuit_keeps selector _, rfl⟩

lemma slotStep_credentials (clock : ℕ → ℚ) :
    s.credentialCells.Leads none (slotStep route s call candidate slots rest clock).1.credentialCells
      (slotStep route s call candidate slots rest clock).2.control.credential := by
  unfold slotStep
  split
  · have hopened := s.openCircuit_keeps candidate.selector candidate.circuitLease (clock 0)
      candidate.hintMs candidate.resetAt
    have hkeeps := hopened.trans (releaseCircuit_keeps _ candidate.selector candidate.circuitLease)
    exact .mint hkeeps.credentials hkeeps.minted
  · dsimp only
    split
    · exact .mint rfl le_rfl
    · case h_2 lease hlease => exact s.leaseCredential_leads _ lease hlease

lemma onDelta_credentials :
    s.credentialCells.Serves ⟨attempt.slot.key, attempt.credentialLease, false⟩
      (onDelta route s call candidate attempt).credentialCells
      (some ⟨attempt.slot.key, attempt.credentialLease, true⟩) := by
  unfold onDelta
  have hclosed := s.closeCircuit_keeps candidate.selector candidate.circuitLease
  refine (hclosed.serves _).trans ((readyCredential_serves _ _ _ false).trans ?_)
  exact (setPin_keepsCredentials _ _ _).serves _

lemma failureStep_credentials (error : LlmError) (thrown : Bool) (clock : ℕ → ℚ) :
    s.credentialCells.Serves ⟨attempt.slot.key, attempt.credentialLease, attempt.phase = .streaming⟩
      (failureStep route s call candidate attempt slots rest error thrown clock).1.credentialCells
      (failureStep route s call candidate attempt slots rest error thrown clock).2.control.credential := by
  unfold failureStep
  extract_lets streak struck decision seen pinned lease opened freed maybeOpened flushed released
  have hpin : KeepsCredentials s pinned := by
    have hstruck : KeepsCredentials s struck := withStreak_keepsCredentials streak
    refine hstruck.trans ?_
    unfold pinned
    split
    · exact setPin_keepsCredentials _ _ _
    · exact .refl
  split
  · case h_1 reason haction hblock =>
    have hblocked := pinned.blockCredential_serves attempt.slot.key lease
      (attempt.phase = .streaming) reason (clock 2) error.retryAfterMs
    exact (hpin.serves _).trans (hblocked.trans (releaseCredential_serves _ _ _ true))
  · have hopened : KeepsCredentials s opened := hpin.trans (pinned.openCircuit_keeps _ _ _ _ _)
    exact (freed.releaseCircuit_keeps _ _).after
      ((hopened.serves _).trans (opened.releaseCredential_serves _ lease _))
  · have hopened : KeepsCredentials s maybeOpened := by
      refine hpin.trans ?_
      unfold maybeOpened
      split
      · exact pinned.openCircuit_keeps _ _ _ _ _
      · exact .refl
    have hreleased : s.credentialCells.Serves
        ⟨attempt.slot.key, attempt.credentialLease, attempt.phase = .streaming⟩
        released.credentialCells none :=
      (hopened.serves _).trans (maybeOpened.releaseCredential_serves _ lease _)
    split
    · have hcaught : KeepsCredentials released
          (caught released flushed candidate.selector candidate.circuitLease rest error clock).1 ∧
          (caught released flushed candidate.selector candidate.circuitLease rest error
            clock).2.control.credential = none :=
        caught_keepsCredentials candidate.selector candidate.circuitLease error clock
      rw [hcaught.2]
      exact hcaught.1.after hreleased
    · exact (released.releaseCircuit_keeps _ _).after hreleased

lemma finish_credentials (outcome : AttemptOutcome) (clock : ℕ → ℚ) :
    s.credentialCells.Serves ⟨attempt.slot.key, attempt.credentialLease, attempt.phase = .streaming⟩
      (finish route s call candidate attempt slots rest outcome clock).1.credentialCells
      (finish route s call candidate attempt slots rest outcome clock).2.control.credential := by
  unfold finish
  cases outcome with
  | stop usage =>
    extract_lets charged lease release stopped ready closed pinned flushed
    have hclosed : KeepsCredentials ready closed := ready.closeCircuit_keeps _ _
    have hpin : KeepsCredentials closed pinned := closed.setPin_keepsCredentials _ _
    refine (releaseCircuit_keeps _ _ _).after ((s.readyCredential_serves _ _ _).trans ?_)
    exact ((hclosed.trans hpin).serves _).trans (pinned.releaseCredential_serves _ _ true)
  | aborted usage =>
    exact (releaseCircuit_keeps _ _ _).after (s.releaseCredential_serves _ _ _)
  | error cause => exact failureStep_credentials cause false clock
  | failure cause => exact failureStep_credentials cause true clock

lemma interrupt_credentials (h : ∀ answer, call.control ≠ .ended answer) :
    Cells.Steps s.credentialCells call.control.credential (interrupt s call).1.credentialCells
      (interrupt s call).2.control.credential := by
  unfold interrupt
  cases hcontrol : call.control with
  | waiting | selecting rest => exact KeepsCredentials.refl.steps _
  | resolving selector lease rest | authorizing selector lease rest => exact (s.releaseCircuit_keeps selector lease).steps none
  | slotting candidate slots rest => exact (s.releaseCircuit_keeps _ _).steps none
  | attempting candidate attempt slots rest =>
    exact .held ((releaseCircuit_keeps _ _ _).after (s.releaseCredential_serves _ _ _))
  | ended answer => exact absurd hcontrol (h answer)

theorem act_credentials (h : act route s call action = some result) :
    Cells.Steps s.credentialCells call.control.credential result.1.credentialCells
      result.2.control.credential := by
  cases acts_of_act h with
  | enter hcontrol | authorized selector lease rest fingerprint clock hcontrol =>
    rw [hcontrol]
    exact KeepsCredentials.refl.steps _
  | select rest aborted clock hcontrol =>
    have hselect : KeepsCredentials s (selectStep route s call rest aborted clock).1 ∧
        (selectStep route s call rest aborted clock).2.control.credential = none :=
      selectStep_keepsCredentials aborted clock
    rw [hcontrol, hselect.2]
    exact hselect.1.steps none
  | resolved selector lease rest clock hcontrol =>
    rw [hcontrol]
    unfold authorize
    dsimp only
    split
    · exact KeepsCredentials.refl.steps _
    · exact KeepsCredentials.refl.steps _
  | unresolved selector lease rest error clock hcontrol | unauthorized selector lease rest error clock hcontrol =>
    have hcaught : KeepsCredentials s (caught s call selector lease rest error clock).1 ∧
        (caught s call selector lease rest error clock).2.control.credential = none :=
      caught_keepsCredentials selector lease error clock
    rw [hcontrol, hcaught.2]
    exact hcaught.1.steps none
  | slot candidate slots rest clock hcontrol =>
    rw [hcontrol]
    exact .free (slotStep_credentials clock)
  | message candidate attempt slots rest text hcontrol =>
    have hsame : (onMessage call candidate attempt slots rest text).control.credential =
        call.control.credential := by
      unfold onMessage
      split
      · rfl
      · rw [hcontrol]
        rfl
    rw [hsame]
    exact KeepsCredentials.refl.steps _
  | delta candidate attempt slots rest hcontrol =>
    unfold observe
    cases hphase : attempt.phase with
    | preRequest =>
      rw [hcontrol]
      unfold Control.credential
      dsimp only
      rw [hphase]
      exact .held onDelta_credentials
    | streaming => exact KeepsCredentials.refl.steps _
  | toolCall candidate attempt slots rest id hcontrol hphase =>
    rw [hcontrol]
    unfold Control.credential
    dsimp only
    rw [hphase]
    exact KeepsCredentials.refl.steps _
  | toolResult candidate attempt slots rest id hcontrol hphase =>
    exact KeepsCredentials.refl.steps _
  | finish candidate attempt slots rest outcome clock hcontrol hrefusal =>
    rw [hcontrol]
    exact .held (finish_credentials outcome clock)
  | interrupt hcontrol => exact interrupt_credentials hcontrol.2

end Steps

end Router
end OpenOmni
