import Mathlib.Data.List.Dedup
import OpenOmni.Channels.Translate
import OpenOmni.Lib.Dict
import OpenOmni.Lib.Run

/-! Physical-send custody: deliveries under an idempotency key, their promises, and the map that holds them. -/
namespace OpenOmni
namespace Deliver
open List

open Translate

inductive ReceiptValue where
  | sent | notSent | unknown

structure DeliveryReceipt where
  value : ReceiptValue
  externalMessageId : Option String

structure Notice where
  msg : String
  idempotencyKey : String
  partialDelivery : Option PartialDelivery
  reason : String

def Thrown.text : Thrown → String
  | .error error => error.text
  | .partialDelivery _ => "partial message delivery"
  | .value text => text

def unknownNotice (idempotencyKey reason : String) : DeliveryReceipt × List Notice :=
  (⟨.unknown, none⟩,
    [⟨"delivery outcome unknown; uncertain send will not be retried", idempotencyKey, none, reason⟩])

/-- `attempt`: the receipt of what the send came to. What is not an `Error` is thrown on. -/
def attemptReceipt (isRejected : SendError → Bool) (idempotencyKey : String) :
    Except Thrown DeliveryOutcome → Except Thrown DeliveryReceipt × List Notice
  | .ok outcome =>
    if outcome.accepted then (.ok ⟨.sent, outcome.externalMessageId⟩, [])
    else
      let (receipt, notices) := unknownNotice idempotencyKey "platform returned no message id"
      (.ok receipt, notices)
  | .error (.value text) => (.error (.value text), [])
  | .error (.partialDelivery error) =>
    (.ok ⟨.unknown, none⟩, [⟨"partial message delivery", idempotencyKey, some error, error.reason.text⟩])
  | .error (.error error) =>
    if isNotSent isRejected error then (.ok ⟨.notSent, none⟩, [])
    else
      let (receipt, notices) := unknownNotice idempotencyKey error.text
      (.ok receipt, notices)

theorem attemptReceipt_notSent {isRejected : SendError → Bool} {key : String} {result : Except Thrown DeliveryOutcome}
    {receipt : DeliveryReceipt} (h : (attemptReceipt isRejected key result).1 = .ok receipt)
    (hvalue : receipt.value = .notSent) :
    ∃ error, result = .error (.error error) ∧ isNotSent isRejected error = true := by
  cases result with
  | ok outcome =>
    cases haccepted : outcome.accepted with
    | true =>
      simp only [attemptReceipt, haccepted, if_true, Except.ok.injEq] at h
      subst h
      cases hvalue
    | false =>
      simp only [attemptReceipt, haccepted, unknownNotice, Bool.false_eq_true, if_false, Except.ok.injEq] at h
      subst h
      cases hvalue
  | error thrown =>
    cases thrown with
    | value text => simp [attemptReceipt] at h
    | partialDelivery error =>
      simp only [attemptReceipt, Except.ok.injEq] at h
      subst h
      cases hvalue
    | error error =>
      cases hevidence : isNotSent isRejected error with
      | true => exact ⟨error, rfl, hevidence⟩
      | false =>
        simp only [attemptReceipt, hevidence, unknownNotice, Bool.false_eq_true, if_false, Except.ok.injEq] at h
        subst h
        cases hvalue

inductive Sent where
  | step (step : Step)
  | react (messageId emoji : String) (replaces : Option String)

inductive Phase where
  | queued
  | sending (total : ℕ) (step : Step) (rest : List Step) (state : StepsState)
  | reacting (messageId : String)
  | returned (result : Except Thrown DeliveryReceipt)
  | settled (result : Except Thrown DeliveryReceipt)

/-- One execution of `send` under a key, with the calls it made of the platform and what they came to. -/
structure Attempt where
  key : String
  payload : Payload
  surface : Surface
  sends : List Sent
  outcomes : List StepOutcome
  phase : Phase

namespace Attempt

def returning (a : Attempt) (result : Except Thrown DeliveryOutcome) : Attempt × List Notice :=
  let (receipt, notices) := attemptReceipt a.surface.isRejected a.key result
  ({ a with phase := .returned receipt }, notices)

/-- The loop of `runSteps` before its next step. -/
def proceed (a : Attempt) (total : ℕ) (state : StepsState) : List Step → Attempt × List Notice
  | [] => a.returning (stepsOutcome total state)
  | step :: rest => ({ a with sends := a.sends ++ [.step step], phase := .sending total step rest state }, [])

/-- `translate` up to its first call of the platform. -/
def begin (a : Attempt) : Option (Attempt × List Notice) :=
  match a.phase with
  | .queued =>
    match a.payload with
    | .react messageId emoji replaces =>
      if a.surface.reacts then
        some ({ a with sends := a.sends ++ [.react messageId emoji replaces], phase := .reacting messageId }, [])
      else some (a.returning (.error (.error (.notSent "react" "surface has no reactions"))))
    | .message parts =>
      match plan a.surface parts with
      | .error error => some (a.returning (.error (.error error)))
      | .ok steps => some (a.proceed steps.length .start steps)
  | _ => none

def answer (a : Attempt) (outcome : StepOutcome) : Option (Attempt × List Notice) :=
  let a' := { a with outcomes := a.outcomes ++ [outcome] }
  match a.phase with
  | .sending total step rest state =>
    match runStep total state step outcome with
    | .error thrown => some (a'.returning (.error thrown))
    | .ok state => some (a'.proceed total state rest)
  | .reacting messageId =>
    match outcome with
    | .threw thrown => some (a'.returning (.error thrown))
    | .ack _ => some (a'.returning (.ok ⟨true, some messageId⟩))
  | _ => none

def settledWith (a : Attempt) (result : Except Thrown DeliveryReceipt) : Attempt :=
  { a with phase := .settled result }

def planned (a : Attempt) : List Sent :=
  match a.payload with
  | .react messageId emoji replaces => if a.surface.reacts then [.react messageId emoji replaces] else []
  | .message parts =>
    match plan a.surface parts with
    | .error _ => []
    | .ok steps => steps.map .step

def Settled (a : Attempt) : Prop := ∃ result, a.phase = .settled result

def SettledAs (a : Attempt) (value : ReceiptValue) : Prop :=
  ∃ receipt : DeliveryReceipt, a.phase = .settled (.ok receipt) ∧ receipt.value = value

/-- Nothing reached the platform: no call was made, or the first was thrown with evidence. -/
def DeliveredNothing (a : Attempt) : Prop :=
  a.sends = [] ∨ ∃ sent error, a.sends = [sent] ∧ a.outcomes = [.threw (.error error)] ∧
    isNotSent a.surface.isRejected error = true

/-- What a result of `not_sent` stands on. -/
def Evidence (a : Attempt) (result : Except Thrown DeliveryReceipt) : Prop :=
  ∀ receipt, result = .ok receipt → receipt.value = .notSent → a.DeliveredNothing

def Sound (a : Attempt) : Prop :=
  match a.phase with
  | .queued => a.sends = [] ∧ a.outcomes = []
  | .sending total step rest state => ∃ done, a.planned = (done ++ step :: rest).map .step ∧
      total = (done ++ step :: rest).length ∧ a.sends = (done ++ [step]).map .step ∧
      state.attempted = done.length ∧ a.outcomes.length = done.length
  | .reacting _ => a.sends = a.planned ∧ a.sends.length = 1 ∧ a.outcomes = []
  | .returned result => a.sends <+: a.planned ∧ a.Evidence result
  | .settled result => a.sends <+: a.planned ∧ a.Evidence result

variable {a : Attempt} {b : Attempt × List Notice} {outcome : StepOutcome} {value : ReceiptValue}
  {result : Except Thrown DeliveryReceipt} {notices : List Notice}

lemma Sound.sends_planned (h : a.Sound) : a.sends <+: a.planned := by
  unfold Sound at h
  split at h
  · rw [h.1]
    exact nil_prefix
  · obtain ⟨done, hplanned, -, hsends, -⟩ := h
    rw [hplanned, hsends]
    exact ⟨_, by rw [← map_append, append_assoc, singleton_append]⟩
  · simp only [h.1, prefix_rfl]
  · exact h.1
  · exact h.1

theorem sound_returning {result : Except Thrown DeliveryOutcome} (hsends : a.sends <+: a.planned)
    (hevidence : ∀ error, result = .error (.error error) → isNotSent a.surface.isRejected error = true →
      a.DeliveredNothing) : (a.returning result).1.Sound := by
  refine ⟨hsends, ?_⟩
  intro receipt hreceipt hvalue
  obtain ⟨error, herror, hnotSent⟩ := attemptReceipt_notSent hreceipt hvalue
  exact hevidence error herror hnotSent

theorem sound_proceed {total : ℕ} {state : StepsState} {rest : List Step} (done : List Step)
    (hplanned : a.planned = (done ++ rest).map .step) (htotal : total = (done ++ rest).length)
    (hsends : a.sends = done.map .step) (hattempted : state.attempted = done.length)
    (houtcomes : a.outcomes.length = done.length) : (a.proceed total state rest).1.Sound := by
  cases rest with
  | nil =>
    apply sound_returning
    · simp only [hplanned, hsends, append_nil, prefix_rfl]
    · intro error herror
      exact absurd herror (stepsOutcome_ne_error error)
  | cons step rest =>
    refine ⟨done, hplanned, htotal, ?_, hattempted, houtcomes⟩
    rw [map_append, map_singleton, ← hsends]
    rfl

lemma not_settled_of_begin (h : a.begin = some b) : ¬ a.Settled := by
  rintro ⟨result, hphase⟩
  simp [begin, hphase] at h

lemma not_settled_of_answer (h : a.answer outcome = some b) : ¬ a.Settled := by
  rintro ⟨result, hphase⟩
  simp [answer, hphase] at h

lemma SettledAs.settled (h : a.SettledAs value) : a.Settled := by
  obtain ⟨receipt, hphase, -⟩ := h
  exact ⟨_, hphase⟩

lemma sound_settledWith (h : a.Sound) (hphase : a.phase = .returned result) : (a.settledWith result).Sound := by
  unfold Sound at h
  rw [hphase] at h
  exact h

lemma settledAs_settledWith :
    (a.settledWith result).SettledAs value ↔ ∃ receipt, result = .ok receipt ∧ receipt.value = value := by
  constructor
  · rintro ⟨receipt, hphase, hvalue⟩
    exact ⟨receipt, Phase.settled.inj hphase, hvalue⟩
  · rintro ⟨receipt, rfl, hvalue⟩
    exact ⟨receipt, rfl, hvalue⟩

lemma sound_begin {b : Attempt} (ha : a.Sound) (h : a.begin = some (b, notices)) :
    b.Sound ∧ b.key = a.key ∧ ¬ b.Settled := by
  unfold begin at h
  cases hphase : a.phase with
  | queued =>
    rw [hphase] at h
    simp only at h
    unfold Sound at ha
    rw [hphase] at ha
    have hnothing : a.DeliveredNothing := .inl ha.1
    have hnone : a.sends <+: a.planned := by
      rw [ha.1]
      exact nil_prefix
    cases hpayload : a.payload with
    | react messageId emoji replaces =>
      rw [hpayload] at h
      simp only at h
      cases hreacts : a.surface.reacts with
      | true =>
        rw [if_pos hreacts] at h
        obtain ⟨rfl, -⟩ := Prod.mk.inj (Option.some.inj h)
        refine ⟨⟨?_, ?_, ha.2⟩, rfl, by rintro ⟨result, hr⟩; cases hr⟩
        · simp [planned, hreacts, ha.1]
        · simp [ha.1]
      | false =>
        rw [if_neg (by simp [hreacts])] at h
        have hb := Option.some.inj h
        obtain rfl : (a.returning _).1 = b := congrArg Prod.fst hb
        exact ⟨sound_returning hnone fun _ _ _ => hnothing, rfl, by rintro ⟨result, hr⟩; cases hr⟩
    | message parts =>
      rw [hpayload] at h
      simp only at h
      cases hplan : plan a.surface parts with
      | error error =>
        rw [hplan] at h
        obtain rfl : (a.returning _).1 = b := congrArg Prod.fst (Option.some.inj h)
        exact ⟨sound_returning hnone fun _ _ _ => hnothing, rfl, by rintro ⟨result, hr⟩; cases hr⟩
      | ok steps =>
        rw [hplan] at h
        obtain rfl : (a.proceed steps.length .start steps).1 = b := congrArg Prod.fst (Option.some.inj h)
        refine ⟨sound_proceed [] ?_ rfl ha.1 rfl (by simp [ha.2]), ?_, ?_⟩
        · simp [planned, hpayload, hplan]
        · cases steps <;> rfl
        · rintro ⟨result, hr⟩
          cases steps <;> cases hr
  | _ => simp [hphase] at h

lemma sound_answer {b : Attempt} (ha : a.Sound) (h : a.answer outcome = some (b, notices)) :
    b.Sound ∧ b.key = a.key ∧ ¬ b.Settled := by
  unfold answer at h
  cases hphase : a.phase with
  | sending total step rest state =>
    rw [hphase] at h
    simp only at h
    unfold Sound at ha
    rw [hphase] at ha
    obtain ⟨done, hplanned, htotal, hsends, hattempted, houtcomes⟩ := ha
    cases hrun : runStep total state step outcome with
    | error thrown =>
      rw [hrun] at h
      obtain rfl : (Attempt.returning _ _).1 = b := congrArg Prod.fst (Option.some.inj h)
      refine ⟨sound_returning ?_ ?_, rfl, by rintro ⟨result, hr⟩; cases hr⟩
      · show a.sends <+: a.planned
        rw [hplanned, hsends]
        exact ⟨_, by rw [← map_append, append_assoc, singleton_append]⟩
      · -- an error that is thrown on as it came is the first step's
        intro error herror hnotSent
        cases herror
        cases outcome with
        | ack id =>
          obtain ⟨next, hnext, -⟩ := runStep_ack total state step id
          rw [hnext] at hrun
          cases hrun
        | threw thrown =>
          rcases Nat.eq_zero_or_pos state.attempted with hfirst | hlater
          · rw [runStep_threw_first hfirst] at hrun
            cases hrun
            rw [hattempted] at hfirst
            have hdone := eq_nil_of_length_eq_zero hfirst
            subst hdone
            have hempty := eq_nil_of_length_eq_zero houtcomes
            exact .inr ⟨_, error, hsends, by simp [hempty], hnotSent⟩
          · rw [runStep_threw hlater] at hrun
            cases hrun
    | ok next =>
      rw [hrun] at h
      obtain rfl : (Attempt.proceed _ total next rest).1 = b := congrArg Prod.fst (Option.some.inj h)
      have hnext : next.attempted = state.attempted + 1 := by
        cases outcome with
        | ack id =>
          obtain ⟨next', hnext, hattempted'⟩ := runStep_ack total state step id
          rw [hnext] at hrun
          cases hrun
          exact hattempted'
        | threw thrown =>
          rcases Nat.eq_zero_or_pos state.attempted with hfirst | hlater
          · rw [runStep_threw_first hfirst] at hrun
            cases hrun
          · rw [runStep_threw hlater] at hrun
            cases hrun
      refine ⟨sound_proceed (done ++ [step]) ?_ ?_ hsends ?_ ?_, ?_, ?_⟩
      · rw [append_assoc, singleton_append]
        exact hplanned
      · rw [append_assoc, singleton_append]
        exact htotal
      · simp [hnext, hattempted]
      · simp [houtcomes]
      · cases rest <;> rfl
      · rintro ⟨result, hr⟩
        cases rest <;> cases hr
  | reacting messageId =>
    rw [hphase] at h
    simp only at h
    unfold Sound at ha
    rw [hphase] at ha
    obtain ⟨hsends, hone, hempty⟩ := ha
    have hsent : a.sends <+: a.planned := by simp only [hsends, prefix_rfl]
    cases outcome with
    | ack id =>
      obtain rfl : (Attempt.returning _ _).1 = b := congrArg Prod.fst (Option.some.inj h)
      exact ⟨sound_returning hsent (fun _ herror => by cases herror), rfl, by rintro ⟨result, hr⟩; cases hr⟩
    | threw thrown =>
      obtain rfl : (Attempt.returning _ _).1 = b := congrArg Prod.fst (Option.some.inj h)
      refine ⟨sound_returning hsent ?_, rfl, by rintro ⟨result, hr⟩; cases hr⟩
      intro error herror hnotSent
      cases herror
      obtain ⟨sent, hsend⟩ := length_eq_one_iff.mp hone
      exact .inr ⟨sent, error, hsend, by simp [hempty], hnotSent⟩
  | _ => simp [hphase] at h

end Attempt

/-- `DeliveryReconciliation`: the promise under each key, and the keys whose send is proven, oldest first. -/
structure Reconciliation where
  attempts : Dict String ℕ
  sent : List String

/-- The loop of `retainSent`: the oldest proven keys go, and their promises with them. -/
def evict (sentRetention : ℕ) : List String → Dict String ℕ → List String × Dict String ℕ
  | [], attempts => ([], attempts)
  | oldest :: rest, attempts =>
    if (oldest :: rest).length ≤ sentRetention then (oldest :: rest, attempts)
    else evict sentRetention rest (attempts.erase oldest)

def Reconciliation.retainSent (sentRetention : ℕ) (r : Reconciliation) (key : String) : Reconciliation :=
  let sent := if key ∈ r.sent then r.sent else r.sent ++ [key]
  let (sent, attempts) := evict sentRetention sent r.attempts
  ⟨attempts, sent⟩

/-- One process: the reconciliation and every attempt it ever started, by its promise's number. The order
in which sends were proven is kept beside them in full. -/
structure World where
  reconciliation : Reconciliation
  attempts : List Attempt
  sentOrder : List (String × ℕ)
  notices : List Notice

def World.start : World := ⟨⟨Dict.empty, []⟩, [], [], []⟩

/-- `deliverKeyed` up to the promise it returns. -/
def deliverKeyed (w : World) (key : String) (payload : Payload) (surface : Surface) : World × ℕ :=
  match w.reconciliation.attempts.get? key with
  | some existing => (w, existing)
  | none =>
    let id := w.attempts.length
    ({ w with
        reconciliation := { w.reconciliation with attempts := w.reconciliation.attempts.set key id }
        attempts := w.attempts ++ [⟨key, payload, surface, [], [], .queued⟩] }, id)

/-- The handler behind an attempt: `not_sent` frees the key, `sent` bounds its retention. -/
def settle (sentRetention : ℕ) (w : World) (id : ℕ) : Option World :=
  match w.attempts[id]? with
  | some a =>
    match a.phase with
    | .returned result =>
      let w := { w with attempts := w.attempts.set id (a.settledWith result) }
      match result with
      | .error _ => some w
      | .ok receipt =>
        match receipt.value with
        | .notSent => some { w with
            reconciliation := { w.reconciliation with attempts := w.reconciliation.attempts.erase a.key } }
        | .sent => some { w with
            reconciliation := w.reconciliation.retainSent sentRetention a.key
            sentOrder := w.sentOrder ++ [(a.key, id)] }
        | .unknown => some w
    | _ => none
  | none => none

def advance (w : World) (id : ℕ) (f : Attempt → Option (Attempt × List Notice)) : Option World := do
  let a ← w.attempts[id]?
  let (a, notices) ← f a
  return { w with attempts := w.attempts.set id a, notices := w.notices ++ notices }

inductive Event where
  | call (key : String) (payload : Payload) (surface : Surface)
  | begin (id : ℕ)
  | answer (id : ℕ) (outcome : StepOutcome)
  | settle (id : ℕ)

def step (sentRetention : ℕ) (w : World) : Event → Option World
  | .call key payload surface => some (deliverKeyed w key payload surface).1
  | .begin id => advance w id Attempt.begin
  | .answer id outcome => advance w id (·.answer outcome)
  | .settle id => settle sentRetention w id

end Deliver
end OpenOmni
