import Mathlib
import OpenOmni.Channels.UriComponent

/-! Copies of a physical message before the routing handler: one is carried, the others wait for its outcome. -/
namespace OpenOmni
namespace Inbound
open Transition List
open Egress (joinComponents joinComponents_inj)
open Option (bind_eq_some_iff bind_some)
open Function (update_of_ne update_self)

structure InboundMessage where
  surface : String
  workspaceId : Option String
  channelId : String
  eventId : String
deriving DecidableEq

def inboundKey (message : InboundMessage) : String :=
  joinComponents [message.surface, message.workspaceId.getD "", message.channelId, message.eventId]

structure SamePhysical (m m' : InboundMessage) : Prop where
  surface : m.surface = m'.surface
  workspace : m.workspaceId.getD "" = m'.workspaceId.getD ""
  channel : m.channelId = m'.channelId
  event : m.eventId = m'.eventId

lemma inboundKey_eq_iff {m m' : InboundMessage} : inboundKey m = inboundKey m' ↔ SamePhysical m m' := by
  unfold inboundKey
  rw [joinComponents_inj (List.cons_ne_nil _ _) (List.cons_ne_nil _ _)]
  constructor
  · intro h
    simp only [List.cons.injEq, and_true] at h
    exact ⟨h.1, h.2.1, h.2.2.1, h.2.2.2⟩
  · rintro ⟨hsurface, hworkspace, hchannel, hevent⟩
    rw [hsurface, hworkspace, hchannel, hevent]

/-- A promise the handler returned for a copy, and whether it was fulfilled or rejected. -/
structure Attempt where
  message : InboundMessage
  settled : Option Bool := none

inductive Ended where
  | dropped
  | admitted
  | refused
deriving DecidableEq

/-- What a copy's `carry` is suspended at. -/
inductive Stage where
  | waiting (attempt : ℕ)
  | carrying (attempt : ℕ)
  | ended (outcome : Ended)
deriving DecidableEq

structure Copy where
  message : InboundMessage
  stage : Stage
deriving DecidableEq

/-- The closure's state, the promises of the handler, and the copies that were handed in. `remembered` is the
order in which `remember` was called. -/
structure State where
  admitted : List String := []
  inFlight : String → Option ℕ := fun _ => none
  attempts : List Attempt := []
  copies : List Copy := []
  remembered : List String := []

/-- `remember`: a set in the order of insertion, without its oldest key past the capacity. -/
def remember (capacity : ℕ) (s : State) (key : String) : State :=
  let admitted := if key ∈ s.admitted then s.admitted else s.admitted ++ [key]
  { s with
    admitted := if capacity < admitted.length then admitted.tail else admitted
    remembered := s.remembered ++ [key] }

/-- `carry` up to its first suspension. A handler may throw before it returns a promise. -/
def carry (s : State) (message : InboundMessage) (throws : Bool) : State × Stage :=
  let key := inboundKey message
  if key ∈ s.admitted then (s, .ended .dropped)
  else match s.inFlight key with
    | some pending => (s, .waiting pending)
    | none =>
      if throws then (s, .ended .refused)
      else
        ({ s with
            attempts := s.attempts ++ [{ message := message }]
            inFlight := Function.update s.inFlight key (some s.attempts.length) },
          .carrying s.attempts.length)

/-- The `finally`: the attempt's own entry leaves the map. -/
def land (s : State) (key : String) (attempt : ℕ) : State :=
  if s.inFlight key = some attempt then { s with inFlight := Function.update s.inFlight key none } else s

def State.settledOf (s : State) (attempt : ℕ) : Option Bool := s.attempts[attempt]?.bind (·.settled)

def State.stop (s : State) (copy : ℕ) (message : InboundMessage) (stage : Stage) : State :=
  { s with copies := s.copies.set copy ⟨message, stage⟩ }

/-- What a suspended copy does once the promise it awaits is settled. -/
def resume (capacity : ℕ) (s : State) (copy : ℕ) (message : InboundMessage) (throws : Bool) : Stage → Option State
  | .ended _ => none
  | .carrying attempt => (s.settledOf attempt).map fun fulfilled =>
    if fulfilled then (land (remember capacity s (inboundKey message)) (inboundKey message) attempt).stop copy message (.ended .admitted)
    else (land s (inboundKey message) attempt).stop copy message (.ended .refused)
  | .waiting pending => (s.settledOf pending).map fun fulfilled =>
    if fulfilled then s.stop copy message (.ended .dropped)
    else
      let carried := carry s message throws
      carried.1.stop copy message carried.2

inductive Event where
  | deliver (message : InboundMessage) (throws : Bool)
  | settle (attempt : ℕ) (fulfilled : Bool)
  | resume (copy : ℕ) (throws : Bool)

/-- One callback: a copy is handed in, a promise of the handler settles, or a suspended copy goes on. -/
def step (capacity : ℕ) (s : State) : Event → Option State
  | .deliver message throws =>
    let carried := carry s message throws
    some { carried.1 with copies := carried.1.copies ++ [⟨message, carried.2⟩] }
  | .settle attempt fulfilled => s.attempts[attempt]?.bind fun known =>
    if known.settled = none then
      some { s with attempts := s.attempts.set attempt { known with settled := some fulfilled } }
    else none
  | .resume copy throws => s.copies[copy]?.bind fun known => resume capacity s copy known.message throws known.stage

def Step (capacity : ℕ) (s : State) (event : Event) (t : State) : Prop := step capacity s event = some t

-- two keys are compared by name, never by their texts
attribute [local irreducible] inboundKey

/-- The handler's promise for a message of the key was fulfilled. -/
def Fulfilled (s : State) (key : String) (attempt : ℕ) : Prop :=
  ∃ known, s.attempts[attempt]? = some known ∧ inboundKey known.message = key ∧ known.settled = some true

/-- A key in flight has one attempt, which one copy carries; a key that was admitted has none. -/
structure Inv (s : State) : Prop where
  flight : ∀ key a, s.inFlight key = some a →
    (∃ known, s.attempts[a]? = some known ∧ inboundKey known.message = key) ∧
      ∃ (i : ℕ) (copy : Copy), s.copies[i]? = some copy ∧ copy.stage = .carrying a ∧ inboundKey copy.message = key
  carrying : ∀ (i : ℕ) (copy : Copy) a, s.copies[i]? = some copy → copy.stage = .carrying a →
    s.inFlight (inboundKey copy.message) = some a
  owner : ∀ (i j : ℕ) (copy copy' : Copy) a, s.copies[i]? = some copy → s.copies[j]? = some copy' →
    copy.stage = .carrying a → copy'.stage = .carrying a → i = j
  waiting : ∀ (i : ℕ) (copy : Copy) a, s.copies[i]? = some copy → copy.stage = .waiting a →
    ∃ known, s.attempts[a]? = some known ∧ inboundKey known.message = inboundKey copy.message
  unsettled : ∀ (a : ℕ) (known : Attempt), s.attempts[a]? = some known → known.settled = none →
    s.inFlight (inboundKey known.message) = some a
  fresh : ∀ key a, s.inFlight key = some a → key ∉ s.admitted
  admitted : ∀ key ∈ s.admitted, ∃ a, Fulfilled s key a
  dropped : ∀ (i : ℕ) (copy : Copy), s.copies[i]? = some copy → copy.stage = .ended .dropped →
    ∃ a, Fulfilled s (inboundKey copy.message) a
  nodup : s.admitted.Nodup

lemma Inv.init : Inv {} where
  flight := nofun
  carrying := by simp
  owner := by simp
  waiting := by simp
  unsettled := by simp
  fresh := nofun
  admitted := by simp
  dropped := by simp
  nodup := nodup_nil

structure Placed (old new : List Copy) (i : ℕ) (copy : Copy) : Prop where
  here : new[i]? = some copy
  others : ∀ j, j ≠ i → new[j]? = old[j]?

lemma placed_append (old : List Copy) (copy : Copy) : Placed old (old ++ [copy]) old.length copy where
  here := getElem?_concat_length
  others j hj := by
    rcases Nat.lt_or_ge j old.length with hlt | hge
    · exact getElem?_append_left hlt
    · rw [getElem?_append_right hge, getElem?_eq_none hge, getElem?_eq_none]
      simp only [length_singleton]
      omega

variable {old : List Copy} {i : ℕ} {copy : Copy}

lemma placed_set {known : Copy} (h : old[i]? = some known) : Placed old (old.set i copy) i copy where
  here := by
    obtain ⟨hlt, -⟩ := List.getElem?_eq_some_iff.mp h
    exact getElem?_set_self hlt
  others j hj := getElem?_set_ne (Ne.symm hj)

lemma Placed.cases {new : List Copy} {j : ℕ} {other : Copy} (h : Placed old new i copy) (hj : new[j]? = some other) :
    j = i ∧ other = copy ∨ j ≠ i ∧ old[j]? = some other := by
  by_cases hji : j = i
  · refine .inl ⟨hji, ?_⟩
    rw [hji, h.here] at hj
    exact (Option.some.inj hj).symm
  · exact .inr ⟨hji, (h.others j hji) ▸ hj⟩

lemma Fulfilled.mono {s t : State} {key : String} {a : ℕ} (h : Fulfilled s key a)
    (hattempts : ∀ (a : ℕ) (known : Attempt), s.attempts[a]? = some known → known.settled ≠ none →
      t.attempts[a]? = some known) : Fulfilled t key a := by
  obtain ⟨known, hknown, hkey, hsettled⟩ := h
  exact ⟨known, hattempts a known hknown (by rw [hsettled]; nofun), hkey, hsettled⟩

section Copies
variable {s : State} {i : ℕ} {copies : List Copy} {message : InboundMessage}

lemma Inv.place (h : Inv s) {stage : Stage} (hfree : ∀ copy a, s.copies[i]? = some copy → copy.stage ≠ .carrying a)
    (hplaced : Placed s.copies copies i ⟨message, stage⟩) (hcarrying : ∀ a, stage ≠ .carrying a)
    (hwaiting : ∀ a, stage = .waiting a → ∃ known, s.attempts[a]? = some known ∧ inboundKey known.message = inboundKey message)
    (hdropped : stage = .ended .dropped → ∃ a, Fulfilled s (inboundKey message) a) : Inv { s with copies := copies } where
  flight key a hflight := by
    obtain ⟨hknown, j, copy, hcopy, hstage, hkey⟩ := h.flight key a hflight
    have hji : j ≠ i := by
      rintro rfl
      exact hfree copy a hcopy hstage
    exact ⟨hknown, j, copy, (hplaced.others j hji).trans hcopy, hstage, hkey⟩
  carrying j copy a hcopy hstage := by
    rcases hplaced.cases hcopy with ⟨-, rfl⟩ | ⟨-, hold⟩
    · exact absurd hstage (hcarrying a)
    · exact h.carrying j copy a hold hstage
  owner j k copy copy' a hcopy hcopy' hstage hstage' := by
    rcases hplaced.cases hcopy with ⟨-, rfl⟩ | ⟨-, hold⟩
    · exact absurd hstage (hcarrying a)
    · rcases hplaced.cases hcopy' with ⟨-, rfl⟩ | ⟨-, hold'⟩
      · exact absurd hstage' (hcarrying a)
      · exact h.owner j k copy copy' a hold hold' hstage hstage'
  waiting j copy a hcopy hstage := by
    rcases hplaced.cases hcopy with ⟨-, rfl⟩ | ⟨-, hold⟩
    · exact hwaiting a hstage
    · exact h.waiting j copy a hold hstage
  unsettled := h.unsettled
  fresh := h.fresh
  admitted := h.admitted
  dropped j copy hcopy hstage := by
    rcases hplaced.cases hcopy with ⟨-, rfl⟩ | ⟨-, hold⟩
    · exact hdropped hstage
    · exact h.dropped j copy hold hstage
  nodup := h.nodup

lemma Inv.start (h : Inv s) (hfree : ∀ copy a, s.copies[i]? = some copy → copy.stage ≠ .carrying a)
    (hplaced : Placed s.copies copies i ⟨message, .carrying s.attempts.length⟩)
    (hnew : inboundKey message ∉ s.admitted) (hidle : s.inFlight (inboundKey message) = none) :
    Inv { s with
      attempts := s.attempts ++ [{ message := message }]
      inFlight := Function.update s.inFlight (inboundKey message) (some s.attempts.length)
      copies := copies } := by
  have hold : ∀ (a : ℕ) (known : Attempt), s.attempts[a]? = some known → (s.attempts ++ [{ message := message }])[a]? = some known := by
    intro a known hknown
    obtain ⟨hlt, -⟩ := List.getElem?_eq_some_iff.mp hknown
    exact (getElem?_append_left hlt).trans hknown
  have hlt : ∀ (a : ℕ) (known : Attempt), s.attempts[a]? = some known → a ≠ s.attempts.length := by
    rintro a known hknown rfl
    rw [getElem?_eq_none le_rfl] at hknown
    cases hknown
  have hne : ∀ {key a}, s.inFlight key = some a → key ≠ inboundKey message := by
    rintro key a hflight rfl
    rw [hidle] at hflight
    cases hflight
  have hself : Function.update s.inFlight (inboundKey message) (some s.attempts.length) (inboundKey message) =
      some s.attempts.length := update_self _ _ _
  have hother : ∀ {key a}, key ≠ inboundKey message → s.inFlight key = some a →
      Function.update s.inFlight (inboundKey message) (some s.attempts.length) key = some a := by
    intro key a hkey hflight
    rwa [update_of_ne hkey]
  refine ⟨?_, ?_, ?_, ?_, ?_, ?_, ?_, ?_, h.nodup⟩
  · intro key a hflight
    by_cases hkey : key = inboundKey message
    · subst hkey
      simp only [update_self, Option.some.injEq] at hflight
      subst hflight
      exact ⟨⟨_, getElem?_concat_length, rfl⟩, i, _, hplaced.here, rfl, rfl⟩
    · simp only [update_of_ne hkey] at hflight
      obtain ⟨⟨known, hknown, hkey'⟩, j, copy, hcopy, hstage, hcopyKey⟩ := h.flight key a hflight
      have hji : j ≠ i := by
        rintro rfl
        exact hfree copy a hcopy hstage
      exact ⟨⟨known, hold a known hknown, hkey'⟩, j, copy, (hplaced.others j hji).trans hcopy, hstage, hcopyKey⟩
  · intro j copy a hcopy hstage
    rcases hplaced.cases hcopy with ⟨-, rfl⟩ | ⟨-, hcopy⟩
    · cases hstage
      exact hself
    · have hflight := h.carrying j copy a hcopy hstage
      exact hother (hne hflight) hflight
  · intro j k copy copy' a hcopy hcopy' hstage hstage'
    have holder : ∀ (j : ℕ) (copy : Copy), s.copies[j]? = some copy → copy.stage = .carrying a → a ≠ s.attempts.length :=
      fun j copy hcopy hstage => by
        obtain ⟨⟨known, hknown, -⟩, -⟩ := h.flight _ a (h.carrying j copy a hcopy hstage)
        exact hlt a known hknown
    rcases hplaced.cases hcopy with ⟨hj, rfl⟩ | ⟨-, hcopy⟩
    · rcases hplaced.cases hcopy' with ⟨hk, rfl⟩ | ⟨-, hcopy'⟩
      · rw [hj, hk]
      · exact absurd (Stage.carrying.inj hstage).symm (holder k copy' hcopy' hstage')
    · rcases hplaced.cases hcopy' with ⟨-, rfl⟩ | ⟨-, hcopy'⟩
      · exact absurd (Stage.carrying.inj hstage').symm (holder j copy hcopy hstage)
      · exact h.owner j k copy copy' a hcopy hcopy' hstage hstage'
  · intro j copy a hcopy hstage
    rcases hplaced.cases hcopy with ⟨-, rfl⟩ | ⟨-, hcopy⟩
    · cases hstage
    · obtain ⟨known, hknown, hkey⟩ := h.waiting j copy a hcopy hstage
      exact ⟨known, hold a known hknown, hkey⟩
  · intro a known hknown hsettled
    replace hknown : (s.attempts ++ [{ message := message }])[a]? = some known := hknown
    rcases Nat.lt_or_ge a s.attempts.length with hlt' | hge
    · rw [getElem?_append_left hlt'] at hknown
      have hflight := h.unsettled a known hknown hsettled
      exact hother (hne hflight) hflight
    · rw [getElem?_append_right hge] at hknown
      have ha : a = s.attempts.length := by
        obtain ⟨hlast, -⟩ := List.getElem?_eq_some_iff.mp hknown
        simp only [length_singleton] at hlast
        omega
      subst ha
      rw [Nat.sub_self] at hknown
      cases hknown
      exact hself
  · intro key a hflight
    by_cases hkey : key = inboundKey message
    · rwa [hkey]
    · simp only [update_of_ne hkey] at hflight
      exact h.fresh key a hflight
  · intro key hkey
    obtain ⟨a, hfulfilled⟩ := h.admitted key hkey
    exact ⟨a, hfulfilled.mono fun a known hknown _ => hold a known hknown⟩
  · intro j copy hcopy hstage
    rcases hplaced.cases hcopy with ⟨-, rfl⟩ | ⟨-, hcopy⟩
    · cases hstage
    · obtain ⟨a, hfulfilled⟩ := h.dropped j copy hcopy hstage
      exact ⟨a, hfulfilled.mono fun a known hknown _ => hold a known hknown⟩

end Copies

section Callbacks
variable {capacity : ℕ} {s t : State}

def started (s : State) (message : InboundMessage) : State := { s with
  attempts := s.attempts ++ [{ message := message }]
  inFlight := Function.update s.inFlight (inboundKey message) (some s.attempts.length) }

lemma carry_cases (s : State) (message : InboundMessage) (throws : Bool) :
    inboundKey message ∈ s.admitted ∧ carry s message throws = (s, .ended .dropped) ∨
    (∃ a, s.inFlight (inboundKey message) = some a ∧ carry s message throws = (s, .waiting a)) ∨
    inboundKey message ∉ s.admitted ∧ s.inFlight (inboundKey message) = none ∧
      (carry s message throws = (s, .ended .refused) ∨
        carry s message throws = (started s message, .carrying s.attempts.length)) := by
  unfold carry
  dsimp only
  by_cases hadmitted : inboundKey message ∈ s.admitted
  · exact .inl ⟨hadmitted, if_pos hadmitted⟩
  · rw [if_neg hadmitted]
    cases hflight : s.inFlight (inboundKey message) with
    | some a => exact .inr (.inl ⟨a, rfl, rfl⟩)
    | none =>
      refine .inr (.inr ⟨hadmitted, rfl, ?_⟩)
      cases throws with
      | true => exact .inl rfl
      | false => exact .inr rfl

variable {i a : ℕ}

lemma Inv.carry (h : Inv s) {copies : List Copy} {message : InboundMessage} {throws : Bool}
    (hfree : ∀ copy a, s.copies[i]? = some copy → copy.stage ≠ .carrying a)
    (hplaced : Placed s.copies copies i ⟨message, (carry s message throws).2⟩) :
    Inv { (Inbound.carry s message throws).1 with copies := copies } := by
  rcases carry_cases s message throws with ⟨hadmitted, hcarry⟩ | ⟨a, hflight, hcarry⟩ | ⟨hnew, hidle, hcarry | hcarry⟩
  · rw [hcarry] at hplaced ⊢
    exact h.place hfree hplaced nofun nofun fun _ => h.admitted _ hadmitted
  · rw [hcarry] at hplaced ⊢
    refine h.place hfree hplaced nofun (fun b hb => ?_) nofun
    cases hb
    exact (h.flight _ _ hflight).1
  · rw [hcarry] at hplaced ⊢
    exact h.place hfree hplaced nofun nofun nofun
  · rw [hcarry] at hplaced ⊢
    exact h.start hfree hplaced hnew hidle

lemma Inv.leave (h : Inv s) {copy : Copy} (hcopy : s.copies[i]? = some copy) (hstage : copy.stage = .carrying a)
    {fulfilled : Bool} (hsettled : s.settledOf a = some fulfilled) {admitted remembered : List String}
    (hnodup : admitted.Nodup)
    (hmem : ∀ key ∈ admitted, key ∈ s.admitted ∨ key = inboundKey copy.message ∧ Fulfilled s key a) {outcome : Ended}
    (houtcome : outcome ≠ .dropped) : Inv { s with
      admitted := admitted
      remembered := remembered
      inFlight := Function.update s.inFlight (inboundKey copy.message) none
      copies := s.copies.set i ⟨copy.message, .ended outcome⟩ } := by
  have hflight := h.carrying i copy a hcopy hstage
  have hplaced : Placed s.copies (s.copies.set i ⟨copy.message, .ended outcome⟩) i ⟨copy.message, .ended outcome⟩ :=
    placed_set hcopy
  have hother : ∀ {key b}, Function.update s.inFlight (inboundKey copy.message) none key = some b →
      key ≠ inboundKey copy.message ∧ s.inFlight key = some b := by
    intro key b hb
    have hne : key ≠ inboundKey copy.message := by
      rintro rfl
      rw [update_self] at hb
      cases hb
    rw [update_of_ne hne] at hb
    exact ⟨hne, hb⟩
  have hkept : ∀ {key b}, key ≠ inboundKey copy.message → s.inFlight key = some b →
      Function.update s.inFlight (inboundKey copy.message) none key = some b := by
    intro key b hne hb
    rwa [update_of_ne hne]
  refine ⟨?_, ?_, ?_, ?_, ?_, ?_, ?_, ?_, hnodup⟩
  · intro key b hb
    obtain ⟨hne, hb⟩ := hother hb
    obtain ⟨hknown, j, other, hj, hjstage, hjkey⟩ := h.flight key b hb
    have hji : j ≠ i := by
      rintro rfl
      rw [hcopy] at hj
      cases hj
      exact hne hjkey.symm
    exact ⟨hknown, j, other, (hplaced.others j hji).trans hj, hjstage, hjkey⟩
  · intro j other b hj hjstage
    rcases hplaced.cases hj with ⟨-, rfl⟩ | ⟨hji, hj⟩
    · cases hjstage
    · have hb := h.carrying j other b hj hjstage
      refine hkept (fun heq => hji ?_) hb
      rw [heq, hflight] at hb
      cases hb
      exact h.owner j i other copy a hj hcopy hjstage hstage
  · intro j k other other' b hj hk hjstage hkstage
    rcases hplaced.cases hj with ⟨-, rfl⟩ | ⟨-, hj⟩
    · cases hjstage
    · rcases hplaced.cases hk with ⟨-, rfl⟩ | ⟨-, hk⟩
      · cases hkstage
      · exact h.owner j k other other' b hj hk hjstage hkstage
  · intro j other b hj hjstage
    rcases hplaced.cases hj with ⟨-, rfl⟩ | ⟨-, hj⟩
    · cases hjstage
    · exact h.waiting j other b hj hjstage
  · intro b known hknown hnone
    have hb := h.unsettled b known hknown hnone
    refine hkept (fun heq => ?_) hb
    rw [heq, hflight] at hb
    cases hb
    unfold State.settledOf at hsettled
    rw [show s.attempts[a]? = some known from hknown, bind_some, hnone] at hsettled
    cases hsettled
  · intro key b hb hkey
    obtain ⟨hne, hb⟩ := hother hb
    rcases hmem key hkey with hold | ⟨heq, -⟩
    · exact h.fresh key b hb hold
    · exact hne heq
  · intro key hkey
    rcases hmem key hkey with hold | ⟨-, hfulfilled⟩
    · exact h.admitted key hold
    · exact ⟨a, hfulfilled⟩
  · intro j other hj hjstage
    rcases hplaced.cases hj with ⟨-, rfl⟩ | ⟨-, hj⟩
    · exact absurd (Stage.ended.inj hjstage) houtcome
    · exact h.dropped j other hj hjstage

lemma Inv.settle (h : Inv s) {known : Attempt} (hknown : s.attempts[a]? = some known) (hnone : known.settled = none)
    (fulfilled : Bool) : Inv { s with attempts := s.attempts.set a { known with settled := some fulfilled } } := by
  obtain ⟨hlt, -⟩ := List.getElem?_eq_some_iff.mp hknown
  have hmessage : ∀ (b : ℕ) (other : Attempt), s.attempts[b]? = some other →
      ∃ other', (s.attempts.set a { known with settled := some fulfilled })[b]? = some other' ∧ other'.message = other.message := by
    intro b other hother
    by_cases hba : a = b
    · subst hba
      rw [hknown] at hother
      cases hother
      exact ⟨_, getElem?_set_self hlt, rfl⟩
    · exact ⟨other, (getElem?_set_ne hba).trans hother, rfl⟩
  have hmono : ∀ {key b}, Fulfilled s key b →
      Fulfilled { s with attempts := s.attempts.set a { known with settled := some fulfilled } } key b := by
    intro key b hfulfilled
    refine hfulfilled.mono fun c other hother hsettled => ?_
    have hca : a ≠ c := by
      rintro rfl
      rw [hknown] at hother
      cases hother
      exact hsettled hnone
    exact (getElem?_set_ne hca).trans hother
  refine ⟨?_, h.carrying, h.owner, ?_, ?_, h.fresh, ?_, ?_, h.nodup⟩
  · intro key b hb
    obtain ⟨⟨other, hother, hkey⟩, hcarrier⟩ := h.flight key b hb
    obtain ⟨other', hother', hsame⟩ := hmessage b other hother
    exact ⟨⟨other', hother', hsame ▸ hkey⟩, hcarrier⟩
  · intro i copy b hcopy hstage
    obtain ⟨other, hother, hkey⟩ := h.waiting i copy b hcopy hstage
    obtain ⟨other', hother', hsame⟩ := hmessage b other hother
    exact ⟨other', hother', hsame ▸ hkey⟩
  · intro b other hother hunsettled
    replace hother : (s.attempts.set a { known with settled := some fulfilled })[b]? = some other := hother
    by_cases hba : a = b
    · subst hba
      rw [getElem?_set_self hlt] at hother
      cases hother
      cases hunsettled
    · rw [getElem?_set_ne hba] at hother
      exact h.unsettled b other hother hunsettled
  · intro key hkey
    obtain ⟨b, hfulfilled⟩ := h.admitted key hkey
    exact ⟨b, hmono hfulfilled⟩
  · intro i copy hcopy hstage
    obtain ⟨b, hfulfilled⟩ := h.dropped i copy hcopy hstage
    exact ⟨b, hmono hfulfilled⟩

/-- The set behind `remember`. -/
def kept (capacity : ℕ) (admitted : List String) (key : String) : List String :=
  if capacity < (admitted ++ [key]).length then (admitted ++ [key]).tail else admitted ++ [key]

inductive Moves (capacity : ℕ) (s : State) : Event → State → Prop where
  | deliver (message : InboundMessage) (throws : Bool) :
      Moves capacity s (.deliver message throws)
        { (carry s message throws).1 with copies := s.copies ++ [⟨message, (carry s message throws).2⟩] }
  | settle (a : ℕ) (known : Attempt) (fulfilled : Bool) (hknown : s.attempts[a]? = some known) (hnone : known.settled = none) :
      Moves capacity s (.settle a fulfilled) { s with attempts := s.attempts.set a { known with settled := some fulfilled } }
  | admitted (i a : ℕ) (copy : Copy) (throws : Bool) (hcopy : s.copies[i]? = some copy) (hstage : copy.stage = .carrying a)
      (hsettled : s.settledOf a = some true) :
      Moves capacity s (.resume i throws) { s with
        admitted := kept capacity s.admitted (inboundKey copy.message)
        remembered := s.remembered ++ [inboundKey copy.message]
        inFlight := Function.update s.inFlight (inboundKey copy.message) none
        copies := s.copies.set i ⟨copy.message, .ended .admitted⟩ }
  | refuse (i a : ℕ) (copy : Copy) (throws : Bool) (hcopy : s.copies[i]? = some copy) (hstage : copy.stage = .carrying a)
      (hsettled : s.settledOf a = some false) :
      Moves capacity s (.resume i throws) { s with
        inFlight := Function.update s.inFlight (inboundKey copy.message) none
        copies := s.copies.set i ⟨copy.message, .ended .refused⟩ }
  | drop (i a : ℕ) (copy : Copy) (throws : Bool) (hcopy : s.copies[i]? = some copy) (hstage : copy.stage = .waiting a)
      (hsettled : s.settledOf a = some true) :
      Moves capacity s (.resume i throws) { s with copies := s.copies.set i ⟨copy.message, .ended .dropped⟩ }
  | retry (i a : ℕ) (copy : Copy) (throws : Bool) (hcopy : s.copies[i]? = some copy) (hstage : copy.stage = .waiting a)
      (hsettled : s.settledOf a = some false) :
      Moves capacity s (.resume i throws)
        { (carry s copy.message throws).1 with copies := s.copies.set i ⟨copy.message, (carry s copy.message throws).2⟩ }

lemma copies_carry (s : State) (message : InboundMessage) (throws : Bool) : (carry s message throws).1.copies = s.copies := by
  rcases carry_cases s message throws with ⟨-, hcarry⟩ | ⟨a, -, hcarry⟩ | ⟨-, -, hcarry | hcarry⟩
  · rw [hcarry]
  · rw [hcarry]
  · rw [hcarry]
  · rw [hcarry]
    rfl

lemma Step.moves {event : Event} (hinv : Inv s) (h : Step capacity s event t) : Moves capacity s event t := by
  unfold Step step at h
  cases event with
  | deliver message throws =>
    cases h
    dsimp only
    rw [copies_carry]
    exact .deliver message throws
  | settle a fulfilled =>
    obtain ⟨known, hknown, h⟩ := bind_eq_some_iff.mp h
    split_ifs at h with hnone
    cases h
    exact .settle a known fulfilled hknown hnone
  | resume i throws =>
    obtain ⟨⟨message, stage⟩, hcopy, h⟩ := bind_eq_some_iff.mp h
    cases stage with
    | ended outcome => cases h
    | carrying a =>
      have hflight := hinv.carrying i _ a hcopy rfl
      dsimp only at hflight
      have hnew := hinv.fresh _ a hflight
      obtain ⟨fulfilled, hsettled, rfl⟩ := Option.map_eq_some_iff.mp h
      cases fulfilled with
      | true =>
        have hstate : Moves capacity s (.resume i throws) _ := .admitted i a _ throws hcopy rfl hsettled
        simpa [remember, land, State.stop, hflight, hnew, kept] using hstate
      | false =>
        have hstate : Moves capacity s (.resume i throws) _ := .refuse i a _ throws hcopy rfl hsettled
        simpa [land, State.stop, hflight] using hstate
    | waiting a =>
      obtain ⟨fulfilled, hsettled, rfl⟩ := Option.map_eq_some_iff.mp h
      cases fulfilled with
      | true => exact .drop i a _ throws hcopy rfl hsettled
      | false =>
        have hstate : Moves capacity s (.resume i throws) _ := .retry i a _ throws hcopy rfl hsettled
        simpa [State.stop, copies_carry] using hstate

end Callbacks

section Runs
variable {capacity : ℕ} {s t : State}

variable {admitted keys keys' : List String} {event : Event}

lemma kept_sub {key other : String} (h : other ∈ kept capacity admitted key) : other ∈ admitted ∨ other = key := by
  unfold kept at h
  split_ifs at h
  · simpa using mem_of_mem_tail h
  · simpa using h

lemma kept_nodup {key : String} (h : admitted.Nodup) (hnew : key ∉ admitted) : (kept capacity admitted key).Nodup := by
  have hall : (admitted ++ [key]).Nodup := by
    rw [nodup_append]
    exact ⟨h, nodup_singleton key, fun a ha b hb heq => hnew (mem_singleton.mp hb ▸ heq ▸ ha)⟩
  unfold kept
  split_ifs
  · exact hall.tail
  · exact hall

lemma Inv.fulfilled (h : Inv s) {key : String} {a : ℕ} (hflight : s.inFlight key = some a)
    (hsettled : s.settledOf a = some true) : Fulfilled s key a := by
  obtain ⟨⟨known, hknown, hkey⟩, -⟩ := h.flight key a hflight
  unfold State.settledOf at hsettled
  rw [hknown, bind_some] at hsettled
  exact ⟨known, hknown, hkey, hsettled⟩

lemma Inv.step (h : Inv s) (hstep : Step capacity s event t) : Inv t := by
  cases hstep.moves h with
  | deliver message throws =>
    refine h.carry (fun copy a hcopy => ?_) (placed_append s.copies _)
    rw [getElem?_eq_none le_rfl] at hcopy
    cases hcopy
  | settle a known fulfilled hknown hnone => exact h.settle hknown hnone fulfilled
  | admitted i a copy throws hcopy hstage hsettled =>
    have hflight := h.carrying i copy a hcopy hstage
    refine h.leave hcopy hstage hsettled (kept_nodup h.nodup (h.fresh _ a hflight)) (fun key hkey => ?_) nofun
    refine (kept_sub hkey).imp id fun heq => ⟨heq, ?_⟩
    rw [heq]
    exact h.fulfilled hflight hsettled
  | refuse i a copy throws hcopy hstage hsettled =>
    exact h.leave hcopy hstage hsettled h.nodup (fun key hkey => .inl hkey) nofun
  | drop i a copy throws hcopy hstage hsettled =>
    refine h.place (fun other b hother => ?_) (placed_set hcopy) nofun nofun fun _ => ⟨a, ?_⟩
    · rw [hcopy] at hother
      cases hother
      rw [hstage]
      nofun
    · obtain ⟨known, hknown, hkey⟩ := h.waiting i copy a hcopy hstage
      unfold State.settledOf at hsettled
      rw [hknown, bind_some] at hsettled
      exact ⟨known, hknown, hkey, hsettled⟩
  | retry i a copy throws hcopy hstage hsettled =>
    refine h.carry (fun other b hother => ?_) (placed_set hcopy)
    rw [hcopy] at hother
    cases hother
    rw [hstage]
    nofun

lemma Inv.reachable (h : Reachable (· = ({} : State)) (Step capacity) s) : Inv s :=
  h.invariant (by rintro s rfl; exact Inv.init) fun _ _ _ => Inv.step

def others (key : String) (keys : List String) : ℕ := (keys.filter (· ≠ key)).dedup.length

lemma le_others {key : String} (hnodup : keys.Nodup) (hsub : ∀ k ∈ keys, k ∈ keys' ∧ k ≠ key) :
    keys.length ≤ others key keys' := by
  refine (subperm_of_subset hnodup fun k hk => ?_).length_le
  obtain ⟨hmem, hne⟩ := hsub k hk
  exact mem_dedup.mpr (mem_filter.mpr ⟨hmem, decide_eq_true hne⟩)

lemma others_mono {key : String} (hsub : ∀ k ∈ keys, k ∈ keys') : others key keys ≤ others key keys' := by
  refine le_others (nodup_dedup _) fun k hk => ?_
  obtain ⟨hmem, hne⟩ := mem_filter.mp (mem_dedup.mp hk)
  exact ⟨hsub k hmem, of_decide_eq_true hne⟩

/-- Since the attempt was fulfilled: no other attempt of its key, while the key is in flight or within the window;
or as many other keys were remembered as the window holds. -/
def Guarded (capacity : ℕ) (key : String) (a attempts remembered : ℕ) (t : State) : Prop :=
  remembered ≤ t.remembered.length ∧
    (capacity ≤ others key (t.remembered.drop remembered) ∨
      (∀ (b : ℕ) (known : Attempt), t.attempts[b]? = some known → inboundKey known.message = key → b < attempts) ∧
      (t.inFlight key = some a ∧ t.settledOf a = some true ∨
        ∃ before behind, t.admitted = before ++ key :: behind ∧ ∀ k ∈ behind, k ∈ t.remembered.drop remembered))

variable {key : String} {a attempts remembered : ℕ}

section
variable (h : Guarded capacity key a attempts remembered s)
include h

lemma Guarded.of_same (hremembered : t.remembered = s.remembered)
    (hadmitted : t.admitted = s.admitted) (hflight : s.inFlight key = some a → t.inFlight key = some a)
    (hsettled : s.settledOf a = some true → t.settledOf a = some true)
    (hattempts : ∀ (b : ℕ) (known : Attempt), t.attempts[b]? = some known → inboundKey known.message = key →
      ∃ known', s.attempts[b]? = some known' ∧ inboundKey known'.message = key) :
    Guarded capacity key a attempts remembered t := by
  obtain ⟨hlength, hcases⟩ := h
  refine ⟨hremembered ▸ hlength, ?_⟩
  rw [hremembered, hadmitted]
  refine hcases.imp id fun ⟨hnone, hkept⟩ => ⟨fun b known hknown hkey => ?_, ?_⟩
  · obtain ⟨known', hknown', hkey'⟩ := hattempts b known hknown hkey
    exact hnone b known' hknown' hkey'
  · exact hkept.imp (fun hinFlight => ⟨hflight hinFlight.1, hsettled hinFlight.2⟩) id

lemma Guarded.held (hfull : ¬capacity ≤ others key (s.remembered.drop remembered)) :
    s.inFlight key = some a ∧ s.settledOf a = some true ∨ key ∈ s.admitted := by
  obtain ⟨-, hkept⟩ := h.2.resolve_left hfull
  refine hkept.imp id fun ⟨before, behind, hadmitted, _⟩ => ?_
  rw [hadmitted]
  exact mem_append_right _ mem_cons_self

lemma Guarded.carry (message : InboundMessage) (throws : Bool)
    (copies : List Copy) :
    Guarded capacity key a attempts remembered { (Inbound.carry s message throws).1 with copies := copies } := by
  rcases carry_cases s message throws with ⟨-, hcarry⟩ | ⟨b, -, hcarry⟩ | ⟨hnew, hidle, hcarry | hcarry⟩
  · rw [hcarry]
    exact h
  · rw [hcarry]
    exact h
  · rw [hcarry]
    exact h
  · rw [hcarry]
    by_cases hfull : capacity ≤ others key (s.remembered.drop remembered)
    · exact ⟨h.1, .inl hfull⟩
    have hne : inboundKey message ≠ key := by
      rintro rfl
      rcases h.held hfull with ⟨hflight, -⟩ | hmem
      · rw [hidle] at hflight
        cases hflight
      · exact hnew hmem
    refine h.of_same rfl rfl (fun hflight => ?_) (fun hsettled => ?_) fun b known hknown hkey => ?_
    · change Function.update s.inFlight (inboundKey message) (some s.attempts.length) key = some a
      rwa [update_of_ne (Ne.symm hne)]
    · obtain ⟨known, hknown, hfulfilled⟩ := bind_eq_some_iff.mp hsettled
      obtain ⟨hlt, -⟩ := List.getElem?_eq_some_iff.mp hknown
      refine bind_eq_some_iff.mpr ⟨known, ?_, hfulfilled⟩
      exact (getElem?_append_left hlt).trans hknown
    · replace hknown : (s.attempts ++ [{ message := message }])[b]? = some known := hknown
      rcases Nat.lt_or_ge b s.attempts.length with hlt | hge
      · rw [getElem?_append_left hlt] at hknown
        exact ⟨known, hknown, hkey⟩
      · rw [getElem?_append_right hge] at hknown
        obtain rfl := mem_singleton.mp (mem_of_getElem? hknown)
        exact absurd hkey hne

end

lemma Guarded.remember (hinv : Inv s) (h : Guarded capacity key a attempts remembered s) {i b : ℕ} {copy : Copy}
    (hcopy : s.copies[i]? = some copy) (hstage : copy.stage = .carrying b) (copies : List Copy) :
    Guarded capacity key a attempts remembered { s with
      admitted := kept capacity s.admitted (inboundKey copy.message)
      remembered := s.remembered ++ [inboundKey copy.message]
      inFlight := Function.update s.inFlight (inboundKey copy.message) none
      copies := copies } := by
  have hflight := hinv.carrying i copy b hcopy hstage
  have hnew := hinv.fresh _ b hflight
  generalize inboundKey copy.message = other at hflight hnew ⊢
  obtain ⟨hlength, hcases⟩ := h
  have hdrop : (s.remembered ++ [other]).drop remembered = s.remembered.drop remembered ++ [other] :=
    drop_append_of_le_length hlength
  refine ⟨hlength.trans (length_append ▸ Nat.le_add_right _ _), ?_⟩
  change capacity ≤ others key ((s.remembered ++ [other]).drop remembered) ∨ _ ∧
    (Function.update s.inFlight other none key = some a ∧ _ ∨ ∃ before behind, kept capacity s.admitted other =
      before ++ key :: behind ∧ ∀ k ∈ behind, k ∈ (s.remembered ++ [other]).drop remembered)
  rw [hdrop]
  rcases hcases with hfull | ⟨hnone, hkept⟩
  · exact .inl (hfull.trans (others_mono fun k hk => mem_append_left _ hk))
  by_cases hkey : other = key
  · subst hkey
    -- its own carrier: the key enters the window last
    rcases hkept with ⟨-, -⟩ | ⟨before, behind, hadmitted, -⟩
    · rcases Nat.eq_zero_or_pos capacity with rfl | hpos
      · exact .inl (Nat.zero_le _)
      · refine .inr ⟨hnone, .inr ?_⟩
        unfold kept
        split_ifs with hover
        · cases hadmitted : s.admitted with
          | nil =>
            rw [hadmitted] at hover
            simp only [nil_append, length_singleton] at hover
            omega
          | cons first rest => exact ⟨rest, [], rfl, nofun⟩
        · exact ⟨s.admitted, [], rfl, nofun⟩
    · rw [hadmitted] at hnew
      exact absurd (mem_append_right _ mem_cons_self) hnew
  · rcases hkept with ⟨hinFlight, hsettled⟩ | ⟨before, behind, hadmitted, hbehind⟩
    · exact .inr ⟨hnone, .inl ⟨by rwa [update_of_ne (Ne.symm hkey)], hsettled⟩⟩
    · have hsub : ∀ k ∈ behind ++ [other], k ∈ s.remembered.drop remembered ++ [other] := fun k hk => by
        rcases mem_append.mp hk with hk | hk
        · exact mem_append_left _ (hbehind k hk)
        · exact mem_append_right _ hk
      have hnodup := hinv.nodup
      rw [hadmitted] at hnew hnodup
      unfold kept
      rw [hadmitted]
      split_ifs with hover
      · cases before with
        | cons first before =>
          exact .inr ⟨hnone, .inr ⟨before, behind ++ [other], by simp, hsub⟩⟩
        | nil =>
          -- the key is the oldest of a full window
          rw [nil_append] at hnew hnodup hover
          obtain ⟨hkeyBehind, hnodup⟩ := nodup_cons.mp hnodup
          have hotherBehind : other ∉ behind := fun hmem => hnew (mem_cons_of_mem _ hmem)
          have hdistinct : (behind ++ [other]).Nodup := by
            rw [nodup_append]
            exact ⟨hnodup, nodup_singleton _, fun x hx y hy heq => hotherBehind (mem_singleton.mp hy ▸ heq ▸ hx)⟩
          have hcount := le_others hdistinct fun k hk => ⟨hsub k hk, fun hk' : k = key => by
            subst hk'
            rcases mem_append.mp hk with hk | hk
            · exact hkeyBehind hk
            · exact hkey (mem_singleton.mp hk).symm⟩
          refine .inl (le_trans ?_ hcount)
          simp only [length_append, length_cons, length_nil] at hover ⊢
          omega
      · exact .inr ⟨hnone, .inr ⟨before, behind ++ [other], by simp, hsub⟩⟩

lemma Guarded.step (hinv : Inv s) (h : Guarded capacity key a attempts remembered s) (hstep : Step capacity s event t) :
    Guarded capacity key a attempts remembered t := by
  cases hstep.moves hinv with
  | deliver message throws => exact h.carry message throws _
  | settle b known fulfilled hknown hnone =>
    obtain ⟨hlt, -⟩ := List.getElem?_eq_some_iff.mp hknown
    refine h.of_same rfl rfl id (fun hsettled => ?_) fun c other hother hkey => ?_
    · have hba : b ≠ a := by
        rintro rfl
        unfold State.settledOf at hsettled
        rw [hknown, bind_some, hnone] at hsettled
        cases hsettled
      unfold State.settledOf at hsettled ⊢
      change ((s.attempts.set b _)[a]?).bind _ = _
      rwa [getElem?_set_ne hba]
    · replace hother : (s.attempts.set b { known with settled := some fulfilled })[c]? = some other := hother
      by_cases hbc : b = c
      · subst hbc
        rw [getElem?_set_self hlt] at hother
        cases hother
        exact ⟨known, hknown, hkey⟩
      · rw [getElem?_set_ne hbc] at hother
        exact ⟨other, hother, hkey⟩
  | admitted i b copy throws hcopy hstage hsettled => exact h.remember hinv hcopy hstage _
  | refuse i b copy throws hcopy hstage hsettled =>
    by_cases hfull : capacity ≤ others key (s.remembered.drop remembered)
    · exact ⟨h.1, .inl hfull⟩
    have hflight := hinv.carrying i copy b hcopy hstage
    have hne : inboundKey copy.message ≠ key := by
      rintro rfl
      rcases h.held hfull with ⟨hown, hfulfilled⟩ | hmem
      · rw [hown] at hflight
        cases hflight
        rw [hsettled] at hfulfilled
        cases hfulfilled
      · exact hinv.fresh _ b hflight hmem
    refine h.of_same rfl rfl (fun hown => ?_) id fun c other hother hkey => ⟨other, hother, hkey⟩
    change Function.update s.inFlight (inboundKey copy.message) none key = some a
    rwa [update_of_ne (Ne.symm hne)]
  | drop i b copy throws hcopy hstage hsettled => exact h
  | retry i b copy throws hcopy hstage hsettled => exact h.carry copy.message throws _

end Runs

def Carried (s : State) (message : InboundMessage) : Prop :=
  ∃ (i : ℕ) (copy : Copy) (a : ℕ), s.copies[i]? = some copy ∧ copy.stage = .carrying a ∧ SamePhysical copy.message message

def Admitted (s : State) (message : InboundMessage) : Prop :=
  ∃ (a : ℕ) (known : Attempt), s.attempts[a]? = some known ∧ known.settled = some true ∧ SamePhysical known.message message

section Once
variable {capacity : ℕ} {s t u : State}

variable {message : InboundMessage} {a i : ℕ}

lemma Fulfilled.admitted (h : Fulfilled s (inboundKey message) a) : Admitted s message := by
  obtain ⟨known, hknown, hkey, hsettled⟩ := h
  exact ⟨a, known, hknown, hsettled, inboundKey_eq_iff.mp hkey⟩

lemma Inv.carry_next (h : Inv s) (hadmitted : ¬Admitted s message) (hcarried : ¬Carried s message) (throws : Bool) :
    (Inbound.carry s message throws).2 = if throws then .ended .refused else .carrying s.attempts.length := by
  rcases carry_cases s message throws with ⟨hmem, -⟩ | ⟨a, hflight, -⟩ | ⟨hnew, hidle, -⟩
  · obtain ⟨a, hfulfilled⟩ := h.admitted _ hmem
    exact absurd hfulfilled.admitted hadmitted
  · obtain ⟨-, i, copy, hcopy, hstage, hkey⟩ := h.flight _ a hflight
    exact absurd ⟨i, copy, a, hcopy, hstage, inboundKey_eq_iff.mp hkey⟩ hcarried
  · unfold Inbound.carry
    dsimp only
    rw [if_neg hnew, hidle]
    cases throws with
    | true | false => rfl

lemma step_retry (hcopy : s.copies[i]? = some ⟨message, .waiting a⟩) (hsettled : s.settledOf a = some false)
    (throws : Bool) : Step capacity s (.resume i throws)
      { (carry s message throws).1 with copies := s.copies.set i ⟨message, (carry s message throws).2⟩ } := by
  change (s.copies[i]?.bind fun known => resume capacity s i known.message throws known.stage) = _
  rw [hcopy, bind_some]
  dsimp only [resume]
  rw [hsettled]
  simp [State.stop, copies_carry]

lemma Inv.carrier_unique (h : Inv s) {j b : ℕ} {copy copy' : Copy} (hi : s.copies[i]? = some copy)
    (hj : s.copies[j]? = some copy') (hstage : copy.stage = .carrying a) (hstage' : copy'.stage = .carrying b)
    (hsame : SamePhysical copy.message copy'.message) : i = j := by
  have hflight := h.carrying i copy a hi hstage
  rw [inboundKey_eq_iff.mpr hsame, h.carrying j copy' b hj hstage'] at hflight
  obtain rfl := Option.some.inj hflight
  exact h.owner i j copy copy' b hi hj hstage hstage'

lemma Inv.guarded_settle (h : Inv s) {known : Attempt} (hknown : s.attempts[a]? = some known)
    (hstep : Step capacity s (.settle a true) t) :
    Guarded capacity (inboundKey known.message) a t.attempts.length t.remembered.length t := by
  cases hstep.moves h with
  | settle _ other _ hother hnone =>
    rw [hknown] at hother
    cases hother
    obtain ⟨hlt, -⟩ := List.getElem?_eq_some_iff.mp hknown
    refine ⟨le_rfl, .inr ⟨fun b other hother _ => (List.getElem?_eq_some_iff.mp hother).1, .inl ⟨?_, ?_⟩⟩⟩
    · exact h.unsettled a known hknown hnone
    · unfold State.settledOf
      change ((s.attempts.set a _)[a]?).bind _ = _
      rw [getElem?_set_self hlt]
      rfl

/-- Across every order of callbacks: one copy of a message is with the handler at a time; a copy is dropped only
where another was admitted; where none was and none is carried, the next copy is; a copy that waited for one
that was admitted never reaches the handler; and behind an admission the message reaches the handler again only
after as many other ids were admitted as the window keeps. -/
theorem inbound_once (h : Reachable (· = ({} : State)) (Step capacity) s) :
    (∀ (i j a b : ℕ) (copy copy' : Copy), s.copies[i]? = some copy → s.copies[j]? = some copy' →
      copy.stage = .carrying a → copy'.stage = .carrying b → SamePhysical copy.message copy'.message → i = j) ∧
    (∀ (i : ℕ) (copy : Copy), s.copies[i]? = some copy → copy.stage = .ended .dropped → Admitted s copy.message) ∧
    (∀ message throws, ¬Admitted s message → ¬Carried s message →
      (∃ t, Step capacity s (.deliver message throws) t ∧ t.copies[s.copies.length]? =
        some ⟨message, if throws then .ended .refused else .carrying s.attempts.length⟩) ∧
      ∀ (i a : ℕ), s.copies[i]? = some ⟨message, .waiting a⟩ → s.settledOf a = some false →
        ∃ t, Step capacity s (.resume i throws) t ∧ t.copies[i]? =
          some ⟨message, if throws then .ended .refused else .carrying s.attempts.length⟩) ∧
    (∀ (i a : ℕ) (copy : Copy) throws t, s.copies[i]? = some copy → copy.stage = .waiting a → s.settledOf a = some true →
      Step capacity s (.resume i throws) t → t.attempts = s.attempts ∧ t.copies[i]? = some ⟨copy.message, .ended .dropped⟩) ∧
    (∀ (a : ℕ) (known : Attempt) t trace u, s.attempts[a]? = some known → Step capacity s (.settle a true) t →
      Run (Step capacity) t trace u → ∀ (b : ℕ) (known' : Attempt), u.attempts[b]? = some known' → t.attempts.length ≤ b →
        SamePhysical known'.message known.message →
        capacity ≤ others (inboundKey known.message) (u.remembered.drop t.remembered.length)) := by
  have hinv := Inv.reachable h
  refine ⟨fun i j a b copy copy' => hinv.carrier_unique, fun i copy hcopy hstage => ?_,
    fun message throws hadmitted hcarried => ⟨?_, fun i a hcopy hsettled => ?_⟩,
    fun i a copy throws t hcopy hstage hsettled hstep => ?_,
    fun a known t trace u hknown hstep hrun b known' hknown' hnew hsame => ?_⟩
  · obtain ⟨a, hfulfilled⟩ := hinv.dropped i copy hcopy hstage
    exact hfulfilled.admitted
  · refine ⟨_, rfl, ?_⟩
    dsimp only
    rw [copies_carry, hinv.carry_next hadmitted hcarried throws]
    exact getElem?_concat_length
  · obtain ⟨hlt, -⟩ := List.getElem?_eq_some_iff.mp hcopy
    refine ⟨_, step_retry hcopy hsettled throws, ?_⟩
    dsimp only
    rw [getElem?_set_self hlt, hinv.carry_next hadmitted hcarried throws]
  · obtain ⟨hlt, -⟩ := List.getElem?_eq_some_iff.mp hcopy
    cases hstep.moves hinv with
    | admitted _ b other _ hother hother' | refuse _ b other _ hother hother' | retry _ b other _ hother hother' => simp_all
    | drop _ b other _ hother hother' =>
      rw [hcopy] at hother
      cases hother
      exact ⟨rfl, getElem?_set_self hlt⟩
  · have hguarded : Inv u ∧ Guarded capacity (inboundKey known.message) a t.attempts.length t.remembered.length u :=
      hrun.preserves (P := fun u => Inv u ∧ Guarded capacity (inboundKey known.message) a t.attempts.length t.remembered.length u)
        ⟨hinv.step hstep, hinv.guarded_settle hknown hstep⟩ fun _ _ _ ⟨hinv, hguarded⟩ hstep =>
          ⟨hinv.step hstep, hguarded.step hinv hstep⟩
    refine hguarded.2.2.resolve_right fun ⟨hnone, _⟩ => ?_
    have hlt := hnone b known' hknown' (inboundKey_eq_iff.mpr hsame)
    omega

end Once

namespace OnceSample

def message : InboundMessage := ⟨"slack", some "T1", "C1", "e1"⟩

def events : List Event :=
  [.deliver message false, .deliver message false, .settle 0 false, .resume 0 false, .resume 1 false]

def final : State := (events.foldlM (step 1) {}).getD {}

lemma reachable_final : Reachable (· = ({} : State)) (Step 1) final := by
  have hsome : (events.foldlM (step 1) {}).isSome = true := by decide +kernel
  obtain ⟨t, ht⟩ := Option.isSome_iff_exists.mp hsome
  obtain ⟨trace, -, hrun⟩ := Run.ofLabels ht
  refine ⟨{}, trace, rfl, ?_⟩
  unfold final
  rw [ht]
  exact hrun

/-- The second copy is carried where the first was refused. -/
theorem inbound_once_refused : final.copies = [⟨message, .ended .refused⟩, ⟨message, .carrying 1⟩] ∧
    ∀ (i : ℕ) (copy : Copy), final.copies[i]? = some copy → copy.stage = .ended .dropped → Admitted final copy.message :=
  ⟨by decide +kernel, (inbound_once reachable_final).2.1⟩

end OnceSample

end Inbound
end OpenOmni
