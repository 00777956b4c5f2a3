import OpenOmni.Lib.Run
import OpenOmni.Machines.PtyDecode

/-! The control client: commands queue for their replies in the order they were written, and the
server beside it that answers them. -/
namespace OpenOmni
namespace PtyControl
open List
open Option (none_or not_mem_none some_ne_none)

abbrev Line := List Char

/-- What a queued command's deferred is completed with; a refusal with the lines of its cause. -/
inductive Settled
  | answered (lines : List Line)
  | refused (lines : List Line)
  | lost (operation : String)

/-- The cause a failure carries: `lines.join("\n") || "tmux refused the command"` for a refusal. -/
def Settled.cause : Settled → Option Line
  | .answered _ => none
  | .refused lines =>
    some (if ['\n'].intercalate lines = [] then "tmux refused the command".toList else ['\n'].intercalate lines)
  | .lost _ => some "tmux control client is gone".toList

inductive CommandFailure
  | deadline
  | spawn

structure PendingReply where
  id : ℕ
  lines : List Line

/-- The client: `done` holds the deferreds by command, `failed` what failed without its own. -/
structure Control where
  pending : List PendingReply
  exited : Bool
  done : ℕ → Option Settled
  failed : ℕ → Option CommandFailure
  next : ℕ

def startPtyControl : Control := ⟨[⟨0, []⟩], false, fun _ => none, fun _ => none, 1⟩

namespace Control

def settle (c : Control) (id : ℕ) (settled : Settled) : Control :=
  { c with done := fun i => if i = id then (c.done i).or (some settled) else c.done i }

def settleAll (c : Control) (settled : Settled) : Control :=
  c.pending.foldl (fun c reply => c.settle reply.id settled) { c with pending := [] }

def finish (c : Control) : Control :=
  if c.exited then c else { c with exited := true }.settleAll (.lost "pty.command")

def handleEnd (c : Control) (ok : Bool) : Control :=
  match c.pending with
  | [] => c
  | reply :: pending =>
    { c with pending }.settle reply.id (if ok then .answered reply.lines else .refused reply.lines)

def route (c : Control) (event : PtyControlEvent) : Control :=
  match event with
  | .replyBody line =>
    match c.pending with
    | [] => c
    | reply :: pending => { c with pending := { reply with lines := reply.lines ++ [line] } :: pending }
  | .replyEnd ok => c.handleEnd ok
  | .exit => c.finish
  | _ => c

/-- A command is queued before it is written; a write that throws leaves it queued. -/
def command (c : Control) (written : Bool) : Control :=
  { c with
    pending := c.pending ++ [⟨c.next, []⟩]
    failed := fun i => if i = c.next ∧ ¬ written then some .spawn else c.failed i
    next := c.next + 1 }

def expire (c : Control) (id : ℕ) : Control :=
  { c with
    pending := c.pending.eraseP (·.id = id)
    failed := fun i => if i = id then some .deadline else c.failed i }

def close (c : Control) : Control := { c with exited := true }.settleAll (.lost "pty.close")

end Control

/-- A reply the server has begun: the command it answers, its body so far, and whether each line
of it found its command at the head of the queue. -/
structure Answering where
  id : ℕ
  body : List Line
  onTime : Bool

/-- The client and the server: the commands it was sent, the replies it has given in full, the
least command it may still answer, and the reply under way. -/
structure World where
  client : Control
  sent : List ℕ
  replies : ℕ → Option (List Line × Bool)
  floor : ℕ
  answering : Option Answering

def World.start : World := ⟨startPtyControl, [0], fun _ => none, 0, none⟩

inductive Label
  | command (written : Bool)
  | deadline (id : ℕ)
  | begin (id : ℕ)
  | body (line : Line)
  | «end» (ok : Bool)
  | event (event : PtyControlEvent)
  | gone
  | close

def unframed : PtyControlEvent → Bool
  | .replyBegin | .replyBody _ | .replyEnd _ => false
  | _ => true

def attached (c : Control) : Bool :=
  match c.done 0 with
  | some (.answered _) => true
  | _ => false

def headIs (c : Control) (id : ℕ) : Bool := c.pending.head?.any (·.id = id)

/-- Replies come one after another in the order of their commands, each late or never. -/
def World.step (w : World) : Label → Option World
  | .command written =>
    if attached w.client ∧ ¬ w.client.exited then
      some { w with
        client := w.client.command written
        sent := if written then w.sent ++ [w.client.next] else w.sent }
    else none
  | .deadline id =>
    if id < w.client.next ∧ w.client.failed id = none then
      some { w with client := w.client.expire id }
    else none
  | .begin id =>
    if w.answering = none ∧ id ∈ w.sent ∧ w.floor ≤ id then
      some { w with client := w.client.route .replyBegin, answering := some ⟨id, [], true⟩ }
    else none
  | .body line =>
    w.answering.map fun a =>
      { w with
        client := w.client.route (.replyBody line)
        answering := some { a with body := a.body ++ [line], onTime := a.onTime && headIs w.client a.id } }
  | .end ok =>
    w.answering.map fun a =>
      { w with
        client := w.client.route (.replyEnd ok)
        replies := fun i => if i = a.id then some (a.body, ok) else w.replies i
        floor := a.id + 1
        answering := none }
  | .event event => if unframed event then some { w with client := w.client.route event } else none
  | .gone => some { w with client := w.client.finish }
  | .close => some { w with client := w.client.close }

/-- A reply that ends while a command waits ends at its own command, which was at the head of the
queue for each of its lines. -/
def OnTime (w : World) : Label → Prop
  | .end _ => w.client.pending = [] ∨ ∀ a ∈ w.answering, headIs w.client a.id ∧ a.onTime
  | _ => True

/-- Every command that succeeded or was refused has the body of its own reply. -/
structure Faithful (w : World) : Prop where
  answered : ∀ id lines, w.client.done id = some (.answered lines) → w.replies id = some (lines, true)
  refused : ∀ id lines, w.client.done id = some (.refused lines) → w.replies id = some (lines, false)

/-- The queue is in the order of the commands, only its head has lines, and those of the command
under answer are its reply's as far as they came in time. -/
structure Queued (w : World) : Prop where
  ordered : (w.client.pending.map (·.id)).Pairwise (· < ·)
  bound : ∀ e ∈ w.client.pending, e.id < w.client.next
  fresh : ∀ e ∈ w.client.pending, w.client.done e.id = none ∧ w.replies e.id = none
  later : ∀ id, w.client.next ≤ id → w.client.done id = none ∧ w.replies id = none
  sent : ∀ id ∈ w.sent, id < w.client.next
  early : ∀ id, w.replies id ≠ none → id < w.floor
  idle : w.answering = none → ∀ e ∈ w.client.pending, e.lines = []
  waiting : ∀ e ∈ w.client.pending.tail, e.lines = []
  under : ∀ a ∈ w.answering, w.floor ≤ a.id ∧ a.id < w.client.next
  own : ∀ a ∈ w.answering, ∀ e ∈ w.client.pending, e.id = a.id →
    if a.onTime then e.lines = a.body else e.lines.length < a.body.length

variable {w w' : World} {c : Control}

namespace Control

lemma done_settle (id i : ℕ) (settled : Settled) :
    (c.settle id settled).done i = if i = id then (c.done i).or (some settled) else c.done i := rfl

lemma settleAll_fields (settled : Settled) : (c.settleAll settled).pending = [] ∧
    (c.settleAll settled).next = c.next ∧
    ∀ i, (c.settleAll settled).done i =
      if i ∈ c.pending.map (·.id) then (c.done i).or (some settled) else c.done i := by
  have hfold : ∀ (replies : List PendingReply) (d : Control),
      let d' := replies.foldl (fun c reply => c.settle reply.id settled) d
      d'.pending = d.pending ∧ d'.next = d.next ∧
        ∀ i, d'.done i = if i ∈ replies.map (·.id) then (d.done i).or (some settled) else d.done i := by
    intro replies
    induction replies with
    | nil => exact fun d => ⟨rfl, rfl, fun i => by simp⟩
    | cons reply replies ih =>
      intro d
      obtain ⟨hpending, hnext, hdone⟩ := ih (d.settle reply.id settled)
      refine ⟨hpending, hnext, fun i => ?_⟩
      rw [foldl_cons, hdone i, done_settle]
      by_cases hi : i = reply.id
      · by_cases hmem : i ∈ replies.map (·.id)
        · simp [hi ▸ hmem, hi]
        · simp [hi]
      · simp [hi]
  exact hfold c.pending { c with pending := [] }

end Control

lemma Queued.emptied (h : Queued w) (hp : c.pending = []) (hn : c.next = w.client.next)
    (hd : ∀ id, w.client.next ≤ id → c.done id = none) : Queued { w with client := c } where
  ordered := by rw [hp]; exact List.Pairwise.nil
  bound := by rw [hp]; exact fun e he => absurd he not_mem_nil
  fresh := by rw [hp]; exact fun e he => absurd he not_mem_nil
  later := fun id hid => ⟨hd id (hn ▸ hid), (h.later id (hn ▸ hid)).2⟩
  sent := fun id hid => hn ▸ h.sent id hid
  early := h.early
  idle := by rw [hp]; exact fun _ e he => absurd he not_mem_nil
  waiting := by rw [hp]; exact fun e he => absurd he not_mem_nil
  under := fun a ha => hn ▸ h.under a ha
  own := by rw [hp]; exact fun _ _ e he => absurd he not_mem_nil

lemma Queued.settleAll (h : Queued w) (settled : Settled) :
    Queued { w with client := { w.client with exited := true }.settleAll settled } := by
  obtain ⟨hp, hn, hd⟩ := Control.settleAll_fields (c := { w.client with exited := true }) settled
  refine h.emptied hp hn fun id hid => ?_
  have hmem : id ∉ w.client.pending.map (·.id) := by
    intro hm
    obtain ⟨e, he, rfl⟩ := mem_map.mp hm
    exact absurd (h.bound e he) (Nat.not_lt.mpr hid)
  rw [hd id, if_neg hmem]
  exact (h.later id hid).1

lemma Faithful.settleAll (h : Faithful w) (operation : String) :
    Faithful { w with client := { w.client with exited := true }.settleAll (.lost operation) } := by
  obtain ⟨-, -, hd⟩ := Control.settleAll_fields (c := { w.client with exited := true }) (.lost operation)
  have hback : ∀ id settled, ({ w.client with exited := true }.settleAll (.lost operation)).done id = some settled →
      w.client.done id = some settled ∨ settled = .lost operation := by
    intro id settled hid
    rw [hd id] at hid
    cases hdone : w.client.done id with
    | some settled' =>
      left
      simpa [hdone] using hid
    | none =>
      simp only [hdone, none_or] at hid
      split_ifs at hid
      exact .inr (Option.some.inj hid).symm
  constructor
  · intro id lines hid
    rcases hback id _ hid with hid | hid
    · exact h.answered id lines hid
    · exact Settled.noConfusion hid
  · intro id lines hid
    rcases hback id _ hid with hid | hid
    · exact h.refused id lines hid
    · exact Settled.noConfusion hid

lemma Queued.finish (h : Queued w) : Queued { w with client := w.client.finish } := by
  unfold Control.finish
  split_ifs
  · exact h
  · exact h.settleAll _

lemma Faithful.finish (h : Faithful w) : Faithful { w with client := w.client.finish } := by
  unfold Control.finish
  split_ifs
  · exact h
  · exact h.settleAll _

lemma Queued.event (h : Queued w) {event : PtyControlEvent} (he : unframed event) :
    Queued { w with client := w.client.route event } := by
  cases event with
  | exit => exact h.finish
  | replyBegin | replyBody _ | replyEnd _ => exact absurd he Bool.false_ne_true
  | _ => exact h

lemma Faithful.event (h : Faithful w) {event : PtyControlEvent} (he : unframed event) :
    Faithful { w with client := w.client.route event } := by
  cases event with
  | exit => exact h.finish
  | replyBegin | replyBody _ | replyEnd _ => exact absurd he Bool.false_ne_true
  | _ => exact h

lemma Queued.command (h : Queued w) (written : Bool) : Queued { w with
    client := w.client.command written
    sent := if written then w.sent ++ [w.client.next] else w.sent } where
  ordered := by
    change ((w.client.pending ++ [(⟨w.client.next, []⟩ : PendingReply)]).map (·.id)).Pairwise (· < ·)
    rw [map_append, pairwise_append]
    refine ⟨h.ordered, pairwise_singleton _ _, ?_⟩
    intro i hi j hj
    obtain ⟨e, he, rfl⟩ := mem_map.mp hi
    rw [mem_singleton.mp hj]
    exact h.bound e he
  bound := by
    intro e he
    rcases mem_append.mp he with he | he
    · exact Nat.lt_succ_of_lt (h.bound e he)
    · rw [mem_singleton.mp he]
      exact Nat.lt_succ_self _
  fresh := by
    intro e he
    rcases mem_append.mp he with he | he
    · exact h.fresh e he
    · rw [mem_singleton.mp he]
      exact h.later _ (le_refl _)
  later := fun id hid => h.later id (Nat.le_of_succ_le hid)
  sent := by
    intro id hid
    cases written with
    | true =>
      rcases mem_append.mp hid with hid | hid
      · exact Nat.lt_succ_of_lt (h.sent id hid)
      · rw [mem_singleton.mp hid]
        exact Nat.lt_succ_self _
    | false => exact Nat.lt_succ_of_lt (h.sent id hid)
  early := h.early
  idle := by
    intro ha e he
    rcases mem_append.mp he with he | he
    · exact h.idle ha e he
    · rw [mem_singleton.mp he]
  waiting := by
    intro e he
    have hmem : e ∈ w.client.pending.tail ∨ e = ⟨w.client.next, []⟩ := by
      change e ∈ (w.client.pending ++ [(⟨w.client.next, []⟩ : PendingReply)]).tail at he
      cases hp : w.client.pending with
      | nil =>
        rw [hp] at he
        exact absurd he not_mem_nil
      | cons head rest =>
        rw [hp, cons_append, tail_cons, mem_append, mem_singleton] at he
        exact he
    rcases hmem with hmem | rfl
    · exact h.waiting e hmem
    · rfl
  under := fun a ha => ⟨(h.under a ha).1, Nat.lt_succ_of_lt (h.under a ha).2⟩
  own := by
    intro a ha e he hid
    rcases mem_append.mp he with he | he
    · exact h.own a ha e he hid
    · rw [mem_singleton.mp he] at hid
      exact absurd (h.under a ha).2 (by rw [← hid]; exact Nat.lt_irrefl _)

lemma Queued.expire (h : Queued w) (id : ℕ) : Queued { w with client := w.client.expire id } := by
  have hsub : (w.client.expire id).pending.Sublist w.client.pending := eraseP_sublist
  have hmem : ∀ e ∈ (w.client.expire id).pending, e ∈ w.client.pending := fun e he => hsub.subset he
  refine ⟨h.ordered.sublist (hsub.map _), fun e he => h.bound e (hmem e he), fun e he => h.fresh e (hmem e he),
    h.later, h.sent, h.early, fun ha e he => h.idle ha e (hmem e he), ?_, h.under,
    fun a ha e he => h.own a ha e (hmem e he)⟩
  intro e he
  have htail : (w.client.expire id).pending.tail.Sublist w.client.pending.tail := hsub.tail
  exact h.waiting e (htail.subset he)

lemma Queued.begin (h : Queued w) {id : ℕ} (ha : w.answering = none) (hs : id ∈ w.sent) (hf : w.floor ≤ id) :
    Queued { w with client := w.client.route .replyBegin, answering := some ⟨id, [], true⟩ } where
  ordered := h.ordered
  bound := h.bound
  fresh := h.fresh
  later := h.later
  sent := h.sent
  early := h.early
  idle := fun hnone => absurd hnone (some_ne_none _)
  waiting := h.waiting
  under := by
    intro a hmem
    cases hmem
    exact ⟨hf, h.sent id hs⟩
  own := by
    intro a hmem e he _
    cases hmem
    exact h.idle ha e he

lemma Queued.body (h : Queued w) {a : Answering} (ha : w.answering = some a) (line : Line) : Queued { w with
    client := w.client.route (.replyBody line)
    answering := some { a with body := a.body ++ [line], onTime := a.onTime && headIs w.client a.id } } := by
  have hown := h.own a ha
  have hunder := h.under a ha
  cases hp : w.client.pending with
  | nil =>
    have hclient : w.client.route (.replyBody line) = w.client := by
      simp [Control.route, hp]
    rw [hclient]
    refine ⟨h.ordered, h.bound, h.fresh, h.later, h.sent, h.early, fun hnone => absurd hnone (some_ne_none _), h.waiting,
      ?_, ?_⟩
    · intro b hb
      cases hb
      exact hunder
    · intro b hb e he
      change e ∈ w.client.pending at he
      rw [hp] at he
      exact absurd he not_mem_nil
  | cons head rest =>
    have hclient : w.client.route (.replyBody line) =
        { w.client with pending := ⟨head.id, head.lines ++ [line]⟩ :: rest } := by
      simp [Control.route, hp]
    have hordered := h.ordered
    have hbound := h.bound
    have hfresh := h.fresh
    have hwaiting := h.waiting
    rw [hp] at hordered hbound hfresh hwaiting hown
    have hhead : headIs w.client a.id = decide (head.id = a.id) := by
      rw [headIs, hp]
      rfl
    rw [hclient]
    refine ⟨hordered, ?_, ?_, h.later, h.sent, h.early, fun hnone => absurd hnone (some_ne_none _), hwaiting, ?_, ?_⟩
    · exact forall_mem_cons.mpr ⟨hbound head mem_cons_self, fun e he => hbound e (mem_cons_of_mem _ he)⟩
    · exact forall_mem_cons.mpr ⟨hfresh head mem_cons_self, fun e he => hfresh e (mem_cons_of_mem _ he)⟩
    · intro b hb
      cases hb
      exact hunder
    · intro b hb e he hid
      cases hb
      change e.id = a.id at hid
      dsimp only
      rcases mem_cons.mp he with rfl | he
      · -- the command under answer is at the head: it gets the line
        have hold := hown head mem_cons_self hid
        change head.id = a.id at hid
        rw [hhead, decide_eq_true hid, Bool.and_true]
        cases hon : a.onTime with
        | true =>
          simp only [hon, if_true] at hold ⊢
          rw [hold]
        | false =>
          simp only [hon, Bool.false_eq_true, if_false] at hold ⊢
          rw [length_append, length_append]
          exact Nat.add_lt_add_right hold 1
      · have hne : head.id ≠ a.id := by
          have hlt : head.id < e.id := rel_of_pairwise_cons hordered (mem_map_of_mem he)
          intro heq
          rw [heq, ← hid] at hlt
          exact Nat.lt_irrefl _ hlt
        have hlines := hwaiting e he
        rw [hhead, decide_eq_false hne, Bool.and_false, if_neg Bool.false_ne_true, hlines, length_append]
        exact Nat.succ_pos _

section ending

variable {a : Answering} (ok : Bool)

def ended (w : World) (a : Answering) (ok : Bool) : World := { w with
  client := w.client.route (.replyEnd ok)
  replies := fun i => if i = a.id then some (a.body, ok) else w.replies i
  floor := a.id + 1
  answering := none }

lemma early_ended (h : Queued w) (ha : w.answering = some a) :
    ∀ id, (ended w a ok).replies id ≠ none → id < (ended w a ok).floor := by
  intro id hid
  have hunder := (h.under a ha).1
  change (if id = a.id then some (a.body, ok) else w.replies id) ≠ none at hid
  change id < a.id + 1
  by_cases he : id = a.id
  · omega
  · rw [if_neg he] at hid
    have hlt := h.early id hid
    omega

lemma replies_ended_of_some (h : Queued w) (ha : w.answering = some a) {id : ℕ} {reply : List Line × Bool}
    (hr : w.replies id = some reply) : (ended w a ok).replies id = some reply := by
  have hlt := h.early id (by rw [hr]; exact some_ne_none _)
  have hunder := (h.under a ha).1
  change (if id = a.id then some (a.body, ok) else w.replies id) = some reply
  rw [if_neg (by omega), hr]

lemma replies_ended_of_ne {id : ℕ} (hid : id ≠ a.id) : (ended w a ok).replies id = w.replies id := if_neg hid

lemma ended_of_empty (h : Queued w) (hf : Faithful w) (ha : w.answering = some a) (hp : w.client.pending = []) :
    Queued (ended w a ok) ∧ Faithful (ended w a ok) := by
  have hclient : w.client.route (.replyEnd ok) = w.client := by
    simp [Control.route, Control.handleEnd, hp]
  have hunder := h.under a ha
  constructor
  · unfold ended
    rw [hclient]
    refine ⟨h.ordered, h.bound, ?_, ?_, h.sent, early_ended ok h ha, ?_, h.waiting,
      fun b hb => absurd hb (not_mem_none b), fun b hb => absurd hb (not_mem_none b)⟩
    · intro e he
      change e ∈ w.client.pending at he
      rw [hp] at he
      exact absurd he not_mem_nil
    · intro id hid
      change w.client.next ≤ id at hid
      exact ⟨(h.later id hid).1, (replies_ended_of_ne ok (by omega)).trans (h.later id hid).2⟩
    · intro _ e he
      change e ∈ w.client.pending at he
      rw [hp] at he
      exact absurd he not_mem_nil
  · have hdone : (ended w a ok).client.done = w.client.done := congrArg Control.done hclient
    constructor
    · intro id lines hid
      rw [hdone] at hid
      exact replies_ended_of_some ok h ha (hf.answered id lines hid)
    · intro id lines hid
      rw [hdone] at hid
      exact replies_ended_of_some ok h ha (hf.refused id lines hid)

lemma ended_of_own (h : Queued w) (hf : Faithful w) (ha : w.answering = some a) {head : PendingReply}
    {rest : List PendingReply} (hp : w.client.pending = head :: rest) (hid : head.id = a.id) (hon : a.onTime) :
    Queued (ended w a ok) ∧ Faithful (ended w a ok) := by
  have hclient : w.client.route (.replyEnd ok) = { w.client with pending := rest }.settle head.id
      (if ok then .answered head.lines else .refused head.lines) := by
    simp [Control.route, Control.handleEnd, hp]
  have hordered := h.ordered
  have hbound := h.bound
  have hfresh := h.fresh
  have hwaiting := h.waiting
  have hown := h.own a ha
  rw [hp] at hordered hbound hfresh hwaiting hown
  have hlines := hown head mem_cons_self hid
  rw [if_pos hon] at hlines
  have hunder := h.under a ha
  have hrest : ∀ e ∈ rest, e.id ≠ a.id := by
    intro e he heq
    have hlt : head.id < e.id := rel_of_pairwise_cons hordered (mem_map_of_mem he)
    rw [heq, ← hid] at hlt
    exact Nat.lt_irrefl _ hlt
  constructor
  · unfold ended
    rw [hclient]
    refine ⟨List.Pairwise.of_cons hordered, fun e he => hbound e (mem_cons_of_mem _ he), ?_, ?_, h.sent,
      early_ended ok h ha, fun _ e he => hwaiting e he, fun e he => hwaiting e (mem_of_mem_tail he),
      fun b hb => absurd hb (not_mem_none b), fun b hb => absurd hb (not_mem_none b)⟩
    · intro e he
      have hne := hrest e he
      obtain ⟨hdone, hreply⟩ := hfresh e (mem_cons_of_mem _ he)
      refine ⟨?_, (replies_ended_of_ne ok hne).trans hreply⟩
      rw [Control.done_settle, if_neg (by rw [hid]; exact hne)]
      exact hdone
    · intro id hle
      change w.client.next ≤ id at hle
      refine ⟨?_, (replies_ended_of_ne ok (by omega)).trans (h.later id hle).2⟩
      rw [Control.done_settle, if_neg (by omega)]
      exact (h.later id hle).1
  · have hdone : ∀ id, (ended w a ok).client.done id =
        if id = head.id then (w.client.done id).or
          (some (if ok then .answered head.lines else .refused head.lines))
        else w.client.done id := by
      intro id
      change (w.client.route (.replyEnd ok)).done id = _
      rw [hclient]
      rfl
    have hreply : (ended w a ok).replies a.id = some (a.body, ok) := if_pos rfl
    have hnone := (hfresh head mem_cons_self).1
    constructor
    · intro id lines hdid
      rw [hdone id] at hdid
      by_cases hi : id = head.id
      · rw [if_pos hi, hi, hnone, none_or] at hdid
        cases ok with
        | true =>
          rw [hi, hid, hreply, ← hlines]
          exact congrArg (fun l => some (l, true)) (Settled.answered.inj (Option.some.inj hdid))
        | false => exact Settled.noConfusion (Option.some.inj hdid)
      · rw [if_neg hi] at hdid
        exact replies_ended_of_some ok h ha (hf.answered id lines hdid)
    · intro id lines hdid
      rw [hdone id] at hdid
      by_cases hi : id = head.id
      · rw [if_pos hi, hi, hnone, none_or] at hdid
        cases ok with
        | true => exact Settled.noConfusion (Option.some.inj hdid)
        | false =>
          rw [hi, hid, hreply, ← hlines]
          exact congrArg (fun l => some (l, false)) (Settled.refused.inj (Option.some.inj hdid))
      · rw [if_neg hi] at hdid
        exact replies_ended_of_some ok h ha (hf.refused id lines hdid)

/-- A reply that ends while a command waits settles the head of the queue; where that has the
body of its own reply, the reply is the head's and came in time. -/
lemma onTime_of_ended (h : Queued w) (ha : w.answering = some a) (hf : Faithful (ended w a ok)) :
    OnTime w (.end ok) := by
  cases hp : w.client.pending with
  | nil => exact .inl hp
  | cons head rest =>
    right
    intro b hb
    obtain rfl := Option.mem_unique ha hb
    have hclient : w.client.route (.replyEnd ok) = { w.client with pending := rest }.settle head.id
        (if ok then .answered head.lines else .refused head.lines) := by
      simp [Control.route, Control.handleEnd, hp]
    have hmem : head ∈ w.client.pending := by
      rw [hp]
      exact mem_cons_self
    obtain ⟨hnone, hreply⟩ := h.fresh head hmem
    have hdone : (ended w a ok).client.done head.id =
        some (if ok then .answered head.lines else .refused head.lines) := by
      change (w.client.route (.replyEnd ok)).done head.id = _
      rw [hclient, Control.done_settle, if_pos rfl]
      change (w.client.done head.id).or _ = _
      rw [hnone, none_or]
    have hsettled : (ended w a ok).replies head.id = some (head.lines, ok) := by
      cases ok with
      | true => exact hf.answered _ _ hdone
      | false => exact hf.refused _ _ hdone
    by_cases hid : head.id = a.id
    · have hlines : a.body = head.lines := by
        rw [hid] at hsettled
        have hbody : (ended w a ok).replies a.id = some (a.body, ok) := if_pos rfl
        exact congrArg Prod.fst (Option.mem_unique hbody hsettled)
      refine ⟨?_, ?_⟩
      · rw [headIs, hp]
        exact decide_eq_true hid
      · by_contra hon
        have hown := h.own a ha head hmem hid
        rw [if_neg hon, hlines] at hown
        exact Nat.lt_irrefl _ hown
    · rw [replies_ended_of_ne ok hid, hreply] at hsettled
      exact absurd hsettled.symm (some_ne_none _)

end ending

lemma Faithful.frame (h : Faithful w) (hd : w'.client.done = w.client.done) (hr : w'.replies = w.replies) :
    Faithful w' where
  answered := by
    rw [hd, hr]
    exact h.answered
  refused := by
    rw [hd, hr]
    exact h.refused

lemma done_route_body (line : Line) : (c.route (.replyBody line)).done = c.done := by
  cases hp : c.pending <;> simp [Control.route, hp]

lemma step_faithful {l : Label} (h : Queued w) (hf : Faithful w) (hstep : w.step l = some w') :
    (OnTime w l → Queued w' ∧ Faithful w') ∧ (Faithful w' → OnTime w l) := by
  cases l with
  | command written =>
    refine ⟨fun _ => ?_, fun _ => trivial⟩
    rw [World.step] at hstep
    by_cases hguard : attached w.client ∧ ¬ w.client.exited
    · rw [if_pos hguard] at hstep
      cases hstep
      exact ⟨h.command written, hf.frame rfl rfl⟩
    · rw [if_neg hguard] at hstep
      exact absurd hstep.symm (some_ne_none _)
  | deadline id =>
    refine ⟨fun _ => ?_, fun _ => trivial⟩
    rw [World.step] at hstep
    split_ifs at hstep
    cases hstep
    exact ⟨h.expire id, hf.frame rfl rfl⟩
  | begin id =>
    refine ⟨fun _ => ?_, fun _ => trivial⟩
    rw [World.step] at hstep
    split_ifs at hstep with hbegin
    cases hstep
    exact ⟨h.begin hbegin.1 hbegin.2.1 hbegin.2.2, hf.frame rfl rfl⟩
  | body line =>
    refine ⟨fun _ => ?_, fun _ => trivial⟩
    obtain ⟨a, ha, rfl⟩ := Option.map_eq_some_iff.mp hstep
    exact ⟨h.body ha line, hf.frame (done_route_body line) rfl⟩
  | «end» ok =>
    obtain ⟨a, ha, rfl⟩ := Option.map_eq_some_iff.mp hstep
    refine ⟨?_, onTime_of_ended ok h ha⟩
    rintro (hp | hown)
    · exact ended_of_empty ok h hf ha hp
    · obtain ⟨hhead, hon⟩ := hown a ha
      cases hp : w.client.pending with
      | nil => exact ended_of_empty ok h hf ha hp
      | cons head rest =>
        rw [headIs, hp] at hhead
        exact ended_of_own ok h hf ha hp (of_decide_eq_true hhead) hon
  | event event =>
    refine ⟨fun _ => ?_, fun _ => trivial⟩
    rw [World.step] at hstep
    split_ifs at hstep with he
    cases hstep
    exact ⟨h.event he, hf.event he⟩
  | gone =>
    refine ⟨fun _ => ?_, fun _ => trivial⟩
    cases hstep
    exact ⟨h.finish, hf.finish⟩
  | close =>
    refine ⟨fun _ => ?_, fun _ => trivial⟩
    cases hstep
    exact ⟨h.settleAll _, hf.settleAll _⟩

lemma queued_start : Queued World.start where
  ordered := pairwise_singleton _ _
  bound := fun e he => by rw [mem_singleton.mp he]; exact Nat.one_pos
  fresh := fun e _ => ⟨rfl, rfl⟩
  later := fun _ _ => ⟨rfl, rfl⟩
  sent := fun id hid => by rw [mem_singleton.mp hid]; exact Nat.one_pos
  early := fun _ hid => absurd rfl hid
  idle := fun _ e he => by rw [mem_singleton.mp he]
  waiting := fun e he => absurd he not_mem_nil
  under := fun a ha => absurd ha (not_mem_none a)
  own := fun a ha => absurd ha (not_mem_none a)

lemma faithful_start : Faithful World.start where
  answered := fun _ _ hid => absurd hid.symm (some_ne_none _)
  refused := fun _ _ hid => absurd hid.symm (some_ne_none _)

open Transition

abbrev Step (w : World) (l : Label) (w' : World) : Prop := w.step l = some w'

/-- In every run, every command has the body of its own reply in every state exactly when each
reply that ends while a command waits ends at its own, in time for each of its lines. -/
theorem replies_belong {trace : List (World × Label)} (h : Run Step World.start trace w) :
    ((∀ e ∈ trace, Faithful e.1) ∧ Faithful w) ↔ ∀ e ∈ trace, OnTime e.1 e.2 :=
  (h.forall_iff_within queued_start faithful_start fun _ _ _ hq hf hs => step_faithful hq hf hs).symm

/-- The attach, answered at once. -/
theorem replies_belong_attach : ∃ (trace : List (World × Label)) (w : World),
    Run Step World.start trace w ∧ w.client.done 0 = some (.answered []) ∧ Faithful w := by
  have hrun : Run Step World.start _ _ := (Run.nil.snoc (l := .begin 0) rfl).snoc (l := .end true) rfl
  refine ⟨_, _, hrun, rfl, ((replies_belong hrun).mpr ?_).2⟩
  intro e he
  rcases mem_append.mp he with he | he
  · rw [nil_append, mem_singleton] at he
    rw [he]
    trivial
  · rw [mem_singleton] at he
    rw [he]
    right
    intro a ha
    cases ha
    exact ⟨rfl, rfl⟩

/-- Command one passes its deadline, command two waits, and the reply of one comes. -/
def lateReply : List Label :=
  [.begin 0, .end true, .command true, .deadline 1, .command true, .begin 1, .body ['1'], .end true]

theorem late_reply_settles_next :
    ¬ ∀ (trace : List (World × Label)) (w : World), Run Step World.start trace w → Faithful w := by
  intro h
  have hsome : (lateReply.foldlM World.step World.start).isSome := by decide
  obtain ⟨trace, -, hrun⟩ := Run.ofLabels (Option.some_get hsome).symm
  have hfaithful := h trace _ hrun
  have hdone : ((lateReply.foldlM World.step World.start).get hsome).client.done 2 = some (.answered [['1']]) := rfl
  have hnone : ((lateReply.foldlM World.step World.start).get hsome).replies 2 = none := rfl
  have hreply := hfaithful.answered 2 _ hdone
  rw [hnone] at hreply
  exact absurd hreply.symm (some_ne_none _)

end PtyControl
end OpenOmni
