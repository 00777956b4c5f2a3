import Mathlib
import OpenOmni.Lib.Dict
import OpenOmni.Lib.Run
import OpenOmni.Lib.Slots

/-! The table of the requests that wait for a peer, under replies, disconnects, timeouts and interrupts in any order. -/
namespace OpenOmni
namespace PeerRequests
open List Transition

variable {π ρ : Type}

structure Response (ρ : Type) where
  id : String
  result : ρ
  error : Option (ℚ × String)

/-- What completes the deferred of a call; the text of a remote error joins its code and its message. -/
inductive Answer (ρ : Type) where
  | result (value : ρ)
  | remoteError (code : ℚ) (message requestId method : String)
  | disconnected (error : String)

inductive Outcome (ρ : Type) where
  | answered (answer : Answer ρ)
  | timedOut (message requestId method : String)
  | unsent (error : String)
  | interrupted

structure PendingCall (π : Type) where
  peer : π
  method : String
  requestId : String

/-- A call, with every completion of its deferred and how its fiber ended. -/
structure Call (π ρ : Type) extends PendingCall π where
  answers : List (Answer ρ) := []
  outcome : Option (Outcome ρ) := none

/-- `pending` leads from a request to its call. -/
structure PeerRequestTable (π ρ : Type) where
  calls : List (Call π ρ) := []
  pending : Dict String ℕ := .empty

inductive Event (π ρ : Type) where
  | call (request : PendingCall π) (failure : Option String)
  | response (peer : π) (response : Response ρ)
  | disconnect (peer : π) (error : String)
  | disconnectAll (error : String)
  | resume (i : ℕ)
  | timeout (i : ℕ)
  | interrupt (i : ℕ)

def PeerRequestTable.answer (t : PeerRequestTable π ρ) (i : ℕ) (c : Call π ρ) (answer : Answer ρ) :
    PeerRequestTable π ρ :=
  ⟨t.calls.set i { c with answers := c.answers ++ [answer] }, t.pending.erase c.requestId⟩

def PeerRequestTable.finish (t : PeerRequestTable π ρ) (i : ℕ) (c : Call π ρ) (outcome : Outcome ρ) :
    PeerRequestTable π ρ :=
  ⟨t.calls.set i { c with outcome := some outcome }, t.pending.erase c.requestId⟩

def PeerRequestTable.waiting (t : PeerRequestTable π ρ) (requestId : String) : Option (ℕ × Call π ρ) :=
  (t.pending.get? requestId).bind fun i => (t.calls[i]?).map (i, ·)

def Response.answer (response : Response ρ) (method : String) : Answer ρ :=
  match response.error with
  | some (code, message) => .remoteError code message response.id method
  | none => .result response.result

section
variable (samePeer : π → π → Bool)

def PeerRequestTable.settleResponse (t : PeerRequestTable π ρ) (response : Response ρ) (peer : π) :
    PeerRequestTable π ρ :=
  match t.waiting response.id with
  | none => t
  | some (i, c) => if samePeer c.peer peer then t.answer i c (response.answer c.method) else t

/-- One request of the walk through the table; an entry that is gone is not visited. -/
def PeerRequestTable.reject (error : String) («matches» : π → Bool) (t : PeerRequestTable π ρ) (requestId : String) :
    PeerRequestTable π ρ :=
  match t.waiting requestId with
  | none => t
  | some (i, c) => if «matches» c.peer then t.answer i c (.disconnected error) else t

def PeerRequestTable.rejectPending (t : PeerRequestTable π ρ) (error : String) («matches» : π → Bool) :
    PeerRequestTable π ρ :=
  (t.pending.entries.map Prod.fst).foldl (reject error «matches») t

/-- One event. The source of ids repeats none, and a call ends once. -/
def step (t : PeerRequestTable π ρ) : Event π ρ → Option (PeerRequestTable π ρ)
  | .call request failure =>
    if t.calls.any (·.requestId = request.requestId) then none
    else match failure with
      | none => some ⟨t.calls ++ [⟨request, [], none⟩], t.pending.set request.requestId t.calls.length⟩
      | some error => some ⟨t.calls ++ [⟨request, [], some (.unsent error)⟩],
          (t.pending.set request.requestId t.calls.length).erase request.requestId⟩
  | .response peer response => some (t.settleResponse samePeer response peer)
  | .disconnect peer error => some (t.rejectPending error (samePeer · peer))
  | .disconnectAll error => some (t.rejectPending error fun _ => true)
  | .resume i => do
    let c ← t.calls[i]?
    let answer ← c.answers.head?
    guard c.outcome.isNone
    return t.finish i c (.answered answer)
  | .timeout i => do
    let c ← t.calls[i]?
    guard c.outcome.isNone
    return t.finish i c (.timedOut ("request timeout: " ++ c.method) c.requestId c.method)
  | .interrupt i => do
    let c ← t.calls[i]?
    guard c.outcome.isNone
    return t.finish i c .interrupted

inductive Completes (request : PendingCall π) : Event π ρ → Answer ρ → Prop
  | response {peer : π} {response : Response ρ} (hid : response.id = request.requestId)
      (hpeer : samePeer request.peer peer = true) :
      Completes request (.response peer response) (response.answer request.method)
  | disconnect {peer : π} {error : String} (hpeer : samePeer request.peer peer = true) :
      Completes request (.disconnect peer error) (.disconnected error)
  | disconnectAll {error : String} : Completes request (.disconnectAll error) (.disconnected error)

end

section
variable {t : PeerRequestTable π ρ} {H : PendingCall π → Answer ρ → Prop} {i : ℕ} {c : Call π ρ}
  {requestId : String}

def Call.Waits (c : Call π ρ) : Prop := c.answers = [] ∧ c.outcome = none

/-- A call is completed at most once, by what `H` vouches for, and its caller is told just that. -/
structure Call.Ok (H : PendingCall π → Answer ρ → Prop) (c : Call π ρ) : Prop where
  once : c.answers.length ≤ 1
  heard : ∀ a ∈ c.answers, H c.toPendingCall a
  told : ∀ a, c.outcome = some (.answered a) → c.answers = [a]

structure Inv (H : PendingCall π → Answer ρ → Prop) (t : PeerRequestTable π ρ) : Prop where
  listed : ∀ id i, t.pending.get? id = some i ↔ ∃ c : Call π ρ, t.calls[i]? = some c ∧ c.requestId = id ∧ c.Waits
  distinct : ∀ (i j : ℕ) (c d : Call π ρ), t.calls[i]? = some c → t.calls[j]? = some d → c.requestId = d.requestId → i = j
  calls : ∀ c ∈ t.calls, c.Ok H

lemma Inv.mono {H' : PendingCall π → Answer ρ → Prop} (h : Inv H t) (hle : ∀ r a, H r a → H' r a) : Inv H' t :=
  ⟨h.listed, h.distinct, fun c hc => ⟨(h.calls c hc).once, fun a ha => hle _ _ ((h.calls c hc).heard a ha),
    (h.calls c hc).told⟩⟩

lemma Inv.leave (h : Inv H t) (hc : t.calls[i]? = some c) {d : Call π ρ} (hid : d.requestId = c.requestId)
    (hwaits : ¬ d.Waits) (hd : d.Ok H) : Inv H ⟨t.calls.set i d, t.pending.erase c.requestId⟩ := by
  refine ⟨fun id j => ?_, fun j k e f he hf => ?_, fun e he => ?_⟩
  · rw [Dict.get?_erase, Slots.get?_set hc]
    by_cases hj : j = i
    · rw [if_pos hj]
      refine iff_of_false (fun hsome => ?_) ?_
      · split_ifs at hsome with hne
        obtain ⟨e, he, heid, -⟩ := (h.listed id j).mp hsome
        rw [hj, hc] at he
        cases he
        exact hne heid.symm
      · rintro ⟨e, he, -, hwait⟩
        cases he
        exact hwaits hwait
    · rw [if_neg hj]
      split_ifs with heq
      · refine iff_of_false (by rintro ⟨⟩) ?_
        rintro ⟨e, he, heid, -⟩
        exact hj (h.distinct j i e c he hc (heid.trans heq))
      · exact h.listed id j
  · rcases Slots.set_cases hc he with ⟨hj, rfl⟩ | ⟨-, hold⟩ <;> rcases Slots.set_cases hc hf with ⟨hk, rfl⟩ | ⟨-, hold'⟩
    · exact fun _ => hj.trans hk.symm
    · exact fun heq => hj.trans (h.distinct i k c f hc hold' (hid.symm.trans heq))
    · exact fun heq => (h.distinct j i e c hold hc (heq.trans hid)).trans hk.symm
    · exact h.distinct j k e f hold hold'
  · rcases mem_or_eq_of_mem_set he with he | rfl
    · exact h.calls e he
    · exact hd

lemma Inv.waiting (h : Inv H t) (hw : t.waiting requestId = some (i, c)) :
    t.calls[i]? = some c ∧ c.requestId = requestId ∧ c.Waits := by
  obtain ⟨j, hj, hc⟩ := Option.bind_eq_some_iff.mp hw
  obtain ⟨d, hd, heq⟩ := Option.map_eq_some_iff.mp hc
  cases heq
  obtain ⟨e, he, hid, hwaits⟩ := (h.listed _ _).mp hj
  cases hd.symm.trans he
  exact ⟨he, hid, hwaits⟩

lemma Inv.answer (h : Inv H t) (hw : t.waiting requestId = some (i, c)) {a : Answer ρ} (hheard : H c.toPendingCall a) :
    Inv H (t.answer i c a) := by
  obtain ⟨hc, -, hnone, hopen⟩ := h.waiting hw
  refine h.leave hc rfl (by simp [Call.Waits]) ⟨by simp [hnone], by simpa [hnone] using hheard, fun a ha => ?_⟩
  rw [hopen] at ha
  cases ha

lemma Inv.finish (h : Inv H t) (hc : t.calls[i]? = some c) {outcome : Outcome ρ}
    (htold : ∀ a, outcome = .answered a → c.answers = [a]) : Inv H (t.finish i c outcome) :=
  h.leave hc rfl (fun hwaits => nomatch hwaits.2) ⟨(h.calls c (mem_of_getElem? hc)).once,
    (h.calls c (mem_of_getElem? hc)).heard, fun a ha => htold a (Option.some.inj ha)⟩

lemma Inv.rejectPending (h : Inv H t) {error : String} {p : π → Bool}
    (hheard : ∀ r : PendingCall π, p r.peer = true → H r (.disconnected error)) : Inv H (t.rejectPending error p) := by
  unfold PeerRequestTable.rejectPending
  generalize t.pending.entries.map Prod.fst = ids
  induction ids generalizing t with
  | nil => exact h
  | cons id ids ih =>
    refine ih ?_
    unfold PeerRequestTable.reject
    cases hw : t.waiting id with
    | none => exact h
    | some found =>
      dsimp only
      split_ifs with hp
      · exact h.answer hw (hheard _ hp)
      · exact h

lemma Inv.call (h : Inv H t) {d : Call π ρ} (hnew : t.calls.any (·.requestId = d.requestId) = false)
    (hanswers : d.answers = []) {pending : Dict String ℕ} (houtcome : ∀ a, d.outcome ≠ some (.answered a))
    (hpending : ∀ id i, pending.get? id = some i ↔
      id = d.requestId ∧ d.outcome = none ∧ i = t.calls.length ∨ t.pending.get? id = some i) :
    Inv H ⟨t.calls ++ [d], pending⟩ := by
  have hfresh : ∀ {i} {e : Call π ρ}, t.calls[i]? = some e → e.requestId ≠ d.requestId := fun he => by
    simpa using any_eq_false.mp hnew _ (mem_of_getElem? he)
  refine ⟨fun id i => (hpending id i).trans ?_, fun i j e f he hf heq => ?_, fun e he => ?_⟩
  · rw [h.listed]
    constructor
    · rintro (⟨rfl, hopen, rfl⟩ | ⟨c, hc, hid, hwaits⟩)
      · exact ⟨d, by simp, rfl, hanswers, hopen⟩
      · exact ⟨c, Slots.get?_append hc d, hid, hwaits⟩
    · rintro ⟨c, hc, hid, hwaits⟩
      rcases Slots.append_cases hc with hc | ⟨hi, rfl⟩
      · exact .inr ⟨c, hc, hid, hwaits⟩
      · exact .inl ⟨hid.symm, hwaits.2, hi⟩
  · rcases Slots.append_cases he with hold | ⟨hi, rfl⟩ <;> rcases Slots.append_cases hf with hold' | ⟨hj, rfl⟩
    · exact h.distinct i j e f hold hold' heq
    · exact absurd heq (hfresh hold)
    · exact absurd heq.symm (hfresh hold')
    · exact hi.trans hj.symm
  · rcases mem_append.mp he with he | he
    · exact h.calls e he
    · cases mem_singleton.mp he
      exact ⟨by simp [hanswers], by simp [hanswers], fun a ha => absurd ha (houtcome a)⟩

variable {samePeer : π → π → Bool}

lemma Inv.step {t' : PeerRequestTable π ρ} {event : Event π ρ} (h : Inv H t)
    (hH : ∀ r a, Completes samePeer r event a → H r a) (hstep : step samePeer t event = some t') : Inv H t' := by
  cases event with
  | call request failure =>
    simp only [PeerRequests.step] at hstep
    split_ifs at hstep with hnew
    replace hnew := Bool.not_eq_true _ ▸ hnew
    have hnone : ∀ {i}, t.pending.get? request.requestId ≠ some i := by
      intro i hi
      obtain ⟨c, hc, hid, -⟩ := (h.listed _ _).mp hi
      have hne := any_eq_false.mp hnew c (mem_of_getElem? hc)
      exact hne (decide_eq_true hid)
    cases failure with
    | none =>
      cases hstep
      refine h.call hnew rfl (by rintro _ ⟨⟩) fun id i => ?_
      rw [Dict.get?_set]
      split_ifs with hid
      · simp [hid, hnone, eq_comm]
      · simp [hid]
    | some error =>
      cases hstep
      refine h.call hnew rfl (by rintro _ ⟨⟩) fun id i => ?_
      rw [Dict.get?_erase, Dict.get?_set]
      split_ifs with hid
      · simp [hid, hnone]
      · simp
  | response peer response =>
    cases hstep
    unfold PeerRequestTable.settleResponse
    cases hw : t.waiting response.id with
    | none => exact h
    | some found =>
      dsimp only
      split_ifs with hp
      · exact h.answer hw (hH _ _ (.response (h.waiting hw).2.1.symm hp))
      · exact h
  | disconnect peer error =>
    cases hstep
    exact h.rejectPending fun r hp => hH r _ (.disconnect hp)
  | disconnectAll error =>
    cases hstep
    exact h.rejectPending fun r _ => hH r _ .disconnectAll
  | resume i =>
    simp only [PeerRequests.step, Option.bind_eq_bind, Option.bind_eq_some_iff] at hstep
    obtain ⟨c, hc, answer, hanswer, _, -, hstep⟩ := hstep
    cases hstep
    refine h.finish hc fun a ha => ?_
    cases ha
    obtain ⟨rest, hrest⟩ := head?_eq_some_iff.mp hanswer
    have hlength := (h.calls c (mem_of_getElem? hc)).once
    rw [hrest, length_cons] at hlength
    rw [hrest, eq_nil_of_length_eq_zero (Nat.le_zero.mp (Nat.le_of_succ_le_succ hlength))]
  | timeout i =>
    simp only [PeerRequests.step, Option.bind_eq_bind, Option.bind_eq_some_iff] at hstep
    obtain ⟨c, hc, _, -, hstep⟩ := hstep
    cases hstep
    exact h.finish hc (by rintro _ ⟨⟩)
  | interrupt i =>
    simp only [PeerRequests.step, Option.bind_eq_bind, Option.bind_eq_some_iff] at hstep
    obtain ⟨c, hc, _, -, hstep⟩ := hstep
    cases hstep
    exact h.finish hc (by rintro _ ⟨⟩)

/-- A call is completed at most once, by a response with its id from its own peer or by a disconnect of it, it ends
with what completed it, and the table lists exactly the calls that are neither completed nor ended. -/
theorem calls_settle_once {trace : List (PeerRequestTable π ρ × Event π ρ)}
    (h : Run (fun s e s' => PeerRequests.step samePeer s e = some s') {} trace t) :
    Inv (fun r a => ∃ e ∈ trace, Completes samePeer r e.2 a) t := by
  induction h with
  | nil =>
    refine ⟨fun _ _ => by simp [Dict.get?, Dict.empty], fun _ _ _ _ hc => ?_, fun _ hc => absurd hc not_mem_nil⟩
    simp at hc
  | @snoc trace s u event _ hstep ih =>
    refine (ih.mono fun r a => ?_).step (fun r a hc => ⟨_, mem_append_right _ mem_cons_self, hc⟩) hstep
    rintro ⟨e, he, hc⟩
    exact ⟨e, mem_append_left _ he, hc⟩

def asked : PeerRequestTable ℕ ℕ := ⟨[⟨⟨1, "read", "r"⟩, [], none⟩], ⟨[("r", 0)]⟩⟩

theorem calls_settle_once_replied : Inv (fun r a => ∃ e ∈ [(({} : PeerRequestTable ℕ ℕ), Event.call ⟨1, "read", "r"⟩ none),
      (asked, .response 2 ⟨"r", 5, none⟩), (asked, .response 1 ⟨"r", 7, none⟩)], Completes (· == ·) r e.2 a)
    (⟨[⟨⟨1, "read", "r"⟩, [.result 7], none⟩], ⟨[]⟩⟩ : PeerRequestTable ℕ ℕ) :=
  calls_settle_once (((Run.nil.snoc rfl).snoc rfl).snoc rfl)

end
end PeerRequests
end OpenOmni
