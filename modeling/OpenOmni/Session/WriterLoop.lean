import Mathlib

/-! The one writer of a session: requests served from a queue in arrival order, a run of alarms
yielding the head to a waiting prompt. -/
namespace OpenOmni
open List

namespace Writer

inductive RequestTag where
  | deliver (kind : String)
  | resolve
  | alarm
  | read
deriving DecidableEq

structure SessionRequest where
  requestId : ℕ
  tag : RequestTag
deriving DecidableEq

def SessionRequest.isPromptDeliver (request : SessionRequest) : Bool :=
  request.tag = .deliver "prompt"

def SessionRequest.isAlarm (request : SessionRequest) : Bool :=
  request.tag = .alarm

/-- The three classes of requests: prompts, alarms, and the rest. -/
inductive RequestClass where
  | prompt
  | alarm
  | other
deriving DecidableEq

def SessionRequest.requestClass (request : SessionRequest) : RequestClass :=
  if request.isPromptDeliver then .prompt else if request.isAlarm then .alarm else .other

/-- The loop's own state, the mailbox it takes from, and what has come of the requests so far. -/
structure WriterLoop where
  buffer : List SessionRequest
  queue : List SessionRequest
  alarmsSincePrompt : ℕ
  serving : Option SessionRequest
  closing : Bool
  served : List SessionRequest
  completed : List SessionRequest
  refused : List SessionRequest

namespace WriterLoop

def start : WriterLoop := ⟨[], [], 0, none, false, [], [], []⟩

/-- The requests not yet taken, in the order `next` takes them. -/
def waiting (s : WriterLoop) : List SessionRequest := s.buffer ++ s.queue

/-- `next`: the buffer before the queue; `none` where `Queue.take` blocks. -/
def next (s : WriterLoop) : Option (SessionRequest × WriterLoop) :=
  match s.buffer, s.queue with
  | head :: rest, _ => some (head, { s with buffer := rest })
  | [], head :: rest => some (head, { s with queue := rest })
  | [], [] => none

/-- The rest of `select` for an alarm over its budget: the queue is flushed into the buffer, and the
first prompt there goes ahead of the alarm. -/
def yieldToPrompt (request : SessionRequest) (s : WriterLoop) : SessionRequest × WriterLoop :=
  match (s.buffer ++ s.queue).find? (·.isPromptDeliver) with
  | none => (request, { s with buffer := s.buffer ++ s.queue, queue := [] })
  | some prompt => (prompt, { s with
      buffer := request :: (s.buffer ++ s.queue).eraseP (·.isPromptDeliver), queue := [] })

def select (alarmsBeforePrompt : ℕ) (s : WriterLoop) : Option (SessionRequest × WriterLoop) :=
  s.next.map fun (request, rest) =>
    if !request.isAlarm || rest.alarmsSincePrompt < alarmsBeforePrompt then (request, rest)
    else yieldToPrompt request rest

/-- The start of `serve`: a prompt resets the counter, an alarm advances it. -/
def serve (request : SessionRequest) (s : WriterLoop) : WriterLoop :=
  { s with
    alarmsSincePrompt :=
      if request.isPromptDeliver then 0
      else if request.isAlarm then s.alarmsSincePrompt + 1 else s.alarmsSincePrompt
    serving := some request
    served := s.served ++ [request] }

/-- `drainOnClose`: what is left is refused with `shutdown`. -/
def drainOnClose (s : WriterLoop) : WriterLoop :=
  { s with buffer := [], queue := [], closing := true, refused := s.refused ++ s.waiting }

end WriterLoop

/-- What happens around the loop. Requests arrive at any time; `promptReceived` is the callback that
an alarm's occurrence runs when it delivers a prompt of its own. -/
inductive WriterEvent where
  | arrive (request : SessionRequest)
  | select
  | promptReceived
  | complete
  | close
deriving DecidableEq

namespace WriterLoop

/-- The loop of `writerLoop` one event at a time; `none` where the event cannot happen. -/
def step (alarmsBeforePrompt : ℕ) (s : WriterLoop) : WriterEvent → Option WriterLoop
  | .arrive request => some { s with queue := s.queue ++ [request] }
  | .select =>
    if s.closing || s.serving.isSome then none
    else (s.select alarmsBeforePrompt).map fun (request, rest) => serve request rest
  | .promptReceived =>
    if !s.closing && s.serving.any (·.isAlarm) then some { s with alarmsSincePrompt := 0 } else none
  | .complete =>
    match s.closing, s.serving with
    | false, some request => some { s with serving := none, completed := s.completed ++ [request] }
    | _, _ => none
  | .close => if s.closing then none else some s.drainOnClose

def run (alarmsBeforePrompt : ℕ) : WriterLoop → List WriterEvent → Option WriterLoop
  | s, [] => some s
  | s, event :: events =>
    (s.step alarmsBeforePrompt event).bind fun t => run alarmsBeforePrompt t events

end WriterLoop

def arrivals : List WriterEvent → List SessionRequest
  | [] => []
  | .arrive request :: events => request :: arrivals events
  | _ :: events => arrivals events

/-- What a selection takes from the waiting requests and what it leaves: the head, or the first
prompt past an alarm whose budget is spent. -/
inductive Selected (alarmsBeforePrompt alarms : ℕ) :
    List SessionRequest → SessionRequest → List SessionRequest → Prop where
  | head (request : SessionRequest) (rest : List SessionRequest)
      (hturn : request.isAlarm → alarms < alarmsBeforePrompt ∨ ∀ r ∈ rest, ¬ r.isPromptDeliver) :
      Selected alarmsBeforePrompt alarms (request :: rest) request rest
  | ahead (alarm prompt : SessionRequest) (before after : List SessionRequest)
      (halarm : alarm.isAlarm) (hprompt : prompt.isPromptDeliver)
      (hbefore : ∀ r ∈ before, ¬ r.isPromptDeliver) (hspent : alarmsBeforePrompt ≤ alarms) :
      Selected alarmsBeforePrompt alarms (alarm :: (before ++ prompt :: after)) prompt
        (alarm :: (before ++ after))

section Classes
variable {r : SessionRequest}

lemma SessionRequest.isPromptDeliver_of_isAlarm (h : r.isAlarm) : ¬ r.isPromptDeliver := by
  simp only [isAlarm, decide_eq_true_eq] at h
  simp [isPromptDeliver, h]

lemma SessionRequest.requestClass_eq_prompt :
    r.requestClass = .prompt ↔ r.isPromptDeliver := by
  unfold requestClass
  split
  · simp_all
  · split <;> simp_all

end Classes

theorem filter_ahead (c : RequestClass) {prompt : SessionRequest} (before after : List SessionRequest)
    (hprompt : prompt.isPromptDeliver) (hbefore : ∀ r ∈ before, ¬ r.isPromptDeliver) :
    (prompt :: (before ++ after)).filter (·.requestClass = c) =
      (before ++ prompt :: after).filter (·.requestClass = c) := by
  by_cases hc : c = .prompt
  · have hnone : before.filter (·.requestClass = c) = [] := by
      simpa [filter_eq_nil_iff, hc, SessionRequest.requestClass_eq_prompt] using hbefore
    simp [filter_append, filter_cons, hnone]
  · have hclass : prompt.requestClass = .prompt := SessionRequest.requestClass_eq_prompt.mpr hprompt
    have hskip : ¬ prompt.requestClass = c := fun h => hc (h.symm.trans hclass)
    simp [filter_append, hskip]

section Selection
variable {alarmsBeforePrompt alarms : ℕ} {request : SessionRequest} {waiting rest : List SessionRequest}

lemma Selected.filter (h : Selected alarmsBeforePrompt alarms waiting request rest)
    (c : RequestClass) :
    (request :: rest).filter (·.requestClass = c) = waiting.filter (·.requestClass = c) := by
  cases h with
  | head _ _ hturn => rfl
  | ahead alarm _ before after halarm hprompt hbefore hspent =>
    apply filter_ahead c (alarm :: before) after hprompt
    intro r hr
    cases mem_cons.mp hr with
    | inl heq => exact heq ▸ SessionRequest.isPromptDeliver_of_isAlarm halarm
    | inr hmem => exact hbefore r hmem

lemma Selected.length (h : Selected alarmsBeforePrompt alarms waiting request rest) :
    waiting.length = rest.length + 1 := by
  cases h with
  | head _ _ hturn => rfl
  | ahead alarm _ before after halarm hprompt hbefore hspent => simp; omega

variable {r : SessionRequest}

theorem Selected.budget (h : Selected alarmsBeforePrompt alarms waiting request rest) (halarm : request.isAlarm)
    (hr : r ∈ waiting) (hprompt : r.isPromptDeliver) : alarms < alarmsBeforePrompt := by
  cases h with
  | head _ _ hturn =>
    cases mem_cons.mp hr with
    | inl heq => exact absurd (heq ▸ hprompt) (SessionRequest.isPromptDeliver_of_isAlarm halarm)
    | inr hmem => exact (hturn halarm).resolve_right fun hnone => hnone r hmem hprompt
  | ahead alarm _ before after _ hisprompt hbefore hspent =>
    exact absurd hisprompt (SessionRequest.isPromptDeliver_of_isAlarm halarm)

lemma Selected.mem (h : Selected alarmsBeforePrompt alarms waiting request rest) (hr : r ∈ waiting) :
    r = request ∨ r ∈ rest := by
  cases h with
  | head _ _ hturn => simpa using hr
  | ahead alarm _ before after halarm hprompt hbefore hspent =>
    simp only [mem_cons, mem_append] at hr ⊢
    tauto

end Selection

namespace WriterLoop
variable {alarmsBeforePrompt : ℕ} {s t : WriterLoop}

variable {request : SessionRequest} {rest : WriterLoop} {arrived : List SessionRequest}

lemma next_spec (h : s.next = some (request, rest)) : s.waiting = request :: rest.waiting ∧
      rest = { s with buffer := rest.buffer, queue := rest.queue } := by
  unfold next at h
  split at h
  · case h_1 head tail _ hbuffer =>
    cases h
    exact ⟨by simp [waiting, hbuffer], rfl⟩
  · case h_2 head tail hbuffer hqueue =>
    cases h
    exact ⟨by simp [waiting, hbuffer, hqueue], rfl⟩
  · cases h

lemma next_isSome : s.next.isSome = !s.waiting.isEmpty := by
  unfold next waiting
  split <;> simp_all

lemma yieldToPrompt_spec (request : SessionRequest) (halarm : request.isAlarm)
    (hspent : alarmsBeforePrompt ≤ s.alarmsSincePrompt) :
    Selected alarmsBeforePrompt s.alarmsSincePrompt (request :: s.waiting)
        (yieldToPrompt request s).1 (yieldToPrompt request s).2.waiting ∧
      (yieldToPrompt request s).2 = { s with
        buffer := (yieldToPrompt request s).2.buffer, queue := (yieldToPrompt request s).2.queue } := by
  unfold yieldToPrompt
  split
  · case h_1 hnone =>
    refine ⟨?_, rfl⟩
    simp only [waiting, append_nil]
    refine Selected.head request _ fun _ => .inr fun r hr => ?_
    simpa using find?_eq_none.mp hnone r hr
  · case h_2 prompt hfound =>
    obtain ⟨hprompt, before, after, heq, hbefore⟩ := find?_eq_some_iff_append.mp hfound
    have hno : ∀ r ∈ before, ¬ r.isPromptDeliver := by simpa using hbefore
    refine ⟨?_, rfl⟩
    simp only [waiting, heq, append_nil]
    rw [eraseP_append_right _ hno, eraseP_cons_of_pos hprompt]
    exact Selected.ahead request prompt before after halarm hprompt hno hspent

lemma select_spec (h : s.select alarmsBeforePrompt = some (request, rest)) :
    Selected alarmsBeforePrompt s.alarmsSincePrompt s.waiting request rest.waiting ∧
      rest = { s with buffer := rest.buffer, queue := rest.queue } := by
  obtain ⟨⟨head, tail⟩, hnext, htaken⟩ := Option.map_eq_some_iff.mp h
  obtain ⟨hwaiting, htail⟩ := next_spec hnext
  have hcount : tail.alarmsSincePrompt = s.alarmsSincePrompt := by rw [htail]
  simp only at htaken
  split at htaken
  · case isTrue hserve =>
    cases htaken
    refine ⟨hwaiting ▸ Selected.head _ _ fun halarm => .inl ?_, htail⟩
    simpa [halarm, hcount] using hserve
  · case isFalse hover =>
    simp only [Bool.or_eq_true, Bool.not_eq_true', decide_eq_true_eq, not_or, Bool.not_eq_false]
      at hover
    have hyield := yieldToPrompt_spec head hover.1 (Nat.not_lt.mp hover.2)
    rw [htaken] at hyield
    have hrest : rest = { tail with buffer := rest.buffer, queue := rest.queue } := hyield.2
    rw [htail] at hrest
    exact ⟨hwaiting ▸ hcount ▸ hyield.1, hrest⟩

lemma select_isSome : (s.select alarmsBeforePrompt).isSome = !s.waiting.isEmpty := by
  rw [select, Option.isSome_map, next_isSome]

theorem step_select (h : s.step alarmsBeforePrompt .select = some t) :
    s.closing = false ∧ s.serving = none ∧ ∃ request rest,
      Selected alarmsBeforePrompt s.alarmsSincePrompt s.waiting request rest.waiting ∧
      rest = { s with buffer := rest.buffer, queue := rest.queue } ∧ t = serve request rest := by
  simp only [step] at h
  split at h
  · cases h
  · case isFalse hidle =>
    simp only [Bool.or_eq_true, not_or, Bool.not_eq_true, Option.isSome_eq_false_iff,
      Option.isNone_iff_eq_none] at hidle
    obtain ⟨⟨request, rest⟩, hselect, ht⟩ := Option.map_eq_some_iff.mp h
    obtain ⟨hselected, hrest⟩ := select_spec hselect
    exact ⟨hidle.1, hidle.2, request, rest, hselected, hrest, ht.symm⟩

/-- Every request that arrived is served, refused or waiting, in the order of its class; and what was
served is answered, but for the request at hand. -/
structure Accounts (s : WriterLoop) (arrived : List SessionRequest) : Prop where
  order : ∀ c : RequestClass,
    (s.served ++ s.refused ++ s.waiting).filter (·.requestClass = c) =
      arrived.filter (·.requestClass = c)
  noneRefused : s.closing = false → s.refused = []
  answered : s.closing = false → s.completed ++ s.serving.toList = s.served

lemma accounts_start : Accounts start [] :=
  ⟨fun _ => rfl, fun _ => rfl, fun _ => rfl⟩

lemma step_accounts {event : WriterEvent} (h : s.step alarmsBeforePrompt event = some t) (hs : Accounts s arrived) :
    Accounts t (arrived ++ arrivals [event]) := by
  cases event with
  | arrive request =>
    simp only [step, Option.some.injEq] at h
    subst h
    refine ⟨fun c => ?_, hs.noneRefused, hs.answered⟩
    have horder := hs.order c
    simp only [waiting, arrivals, filter_append] at horder ⊢
    rw [← horder]
    simp only [append_assoc]
  | select =>
    obtain ⟨hopen, hidle, request, rest, hselected, hrest, rfl⟩ := step_select h
    have hrefused : rest.refused = [] := by rw [hrest]; exact hs.noneRefused hopen
    have hserved : rest.served = s.served := by rw [hrest]
    have hcompleted : rest.completed = s.completed := by rw [hrest]
    refine ⟨fun c => ?_, fun _ => hrefused, fun _ => ?_⟩
    · have horder := hs.order c
      have htaken := hselected.filter c
      rw [hs.noneRefused hopen] at horder
      simp only [serve, waiting, arrivals, hrefused, hserved, append_nil] at horder htaken ⊢
      rw [← horder, filter_append s.served, ← htaken, append_assoc, filter_append]
      rfl
    · have hanswered := hs.answered hopen
      simp only [hidle, Option.toList_none, append_nil] at hanswered
      simp only [serve, hserved, hcompleted, hanswered, Option.toList_some]
  | promptReceived =>
    simp only [step] at h
    split at h
    · cases h
      exact ⟨fun c => by simpa [arrivals, waiting] using hs.order c, hs.noneRefused, hs.answered⟩
    · cases h
  | complete =>
    simp only [step] at h
    split at h
    · case h_1 request hopen hserving =>
      cases h
      refine ⟨fun c => by simpa [arrivals, waiting] using hs.order c, hs.noneRefused, fun _ => ?_⟩
      simpa [hserving] using hs.answered hopen
    · cases h
  | close =>
    simp only [step] at h
    split at h
    · cases h
    · cases h
      refine ⟨fun c => ?_, nofun, nofun⟩
      simpa [arrivals, drainOnClose, waiting] using hs.order c

lemma run_accounts {events : List WriterEvent} (h : run alarmsBeforePrompt s events = some t)
    (hs : Accounts s arrived) : Accounts t (arrived ++ arrivals events) := by
  induction events generalizing s arrived with
  | nil =>
    cases h
    simpa [arrivals] using hs
  | cons event events ih =>
    obtain ⟨u, hstep, hrun⟩ := Option.bind_eq_some_iff.mp h
    have hu := ih hrun (step_accounts hstep hs)
    have hsplit : arrivals (event :: events) = arrivals [event] ++ arrivals events := by
      cases event <;> rfl
    rwa [hsplit, ← append_assoc]

theorem perm_of_classes {l m : List SessionRequest}
    (h : ∀ c : RequestClass, l.filter (·.requestClass = c) = m.filter (·.requestClass = c)) :
    l.Perm m := by
  rw [perm_iff_count]
  intro r
  have hcount : ∀ l : List SessionRequest,
      (l.filter (·.requestClass = r.requestClass)).count r = l.count r := fun l =>
    count_filter (by simp)
  rw [← hcount l, ← hcount m, h]

end WriterLoop

end Writer
end OpenOmni
