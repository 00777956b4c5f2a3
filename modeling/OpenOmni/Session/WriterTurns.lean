import OpenOmni.Session.WriterLoop

/-! How long a request waits for the session writer: the alarm budget ahead of a prompt, and the
bound on being overtaken. -/
namespace OpenOmni
open List

namespace Writer
namespace WriterLoop
variable {alarmsBeforePrompt : ℕ} {s t : WriterLoop}

variable {event : WriterEvent} {events : List WriterEvent} {r : SessionRequest} {before after : List SessionRequest}

lemma step_served (h : s.step alarmsBeforePrompt event = some t) : s.served <+: t.served := by
  cases event with
  | arrive request => cases h; exact prefix_rfl
  | select =>
    obtain ⟨-, -, request, rest, -, hrest, rfl⟩ := step_select h
    have hserved : rest.served = s.served := by rw [hrest]
    exact ⟨[request], by simp [serve, hserved]⟩
  | promptReceived | complete | close =>
    simp only [step] at h
    split at h <;> cases h
    exact prefix_rfl

lemma run_served (h : run alarmsBeforePrompt s events = some t) : s.served <+: t.served := by
  induction events generalizing s with
  | nil => cases h; exact prefix_rfl
  | cons event events ih =>
    obtain ⟨u, hstep, hrun⟩ := Option.bind_eq_some_iff.mp h
    exact (step_served hstep).trans (ih hrun)

theorem step_budget (h : s.step alarmsBeforePrompt event = some t) (hevent : event ≠ .promptReceived)
    (hprompt : r.isPromptDeliver) (hr : s.closing ∨ r ∈ s.waiting) :
    ∃ taken, t.served = s.served ++ taken ∧ ((∀ x ∈ taken, ¬ x.isPromptDeliver) →
      (t.closing ∨ r ∈ t.waiting) ∧
      t.alarmsSincePrompt = s.alarmsSincePrompt + taken.countP (·.isAlarm) ∧
      (taken.countP (·.isAlarm) = 0 ∨ t.alarmsSincePrompt ≤ alarmsBeforePrompt)) := by
  cases event with
  | arrive request =>
    simp only [step, Option.some.injEq] at h
    subst h
    refine ⟨[], (append_nil _).symm, fun _ => ⟨?_, rfl, .inl rfl⟩⟩
    exact hr.imp id fun hmem => by
      simp only [waiting, mem_append] at hmem ⊢
      tauto
  | select =>
    obtain ⟨hopen, -, request, rest, hselected, hrest, rfl⟩ := step_select h
    have hmem : r ∈ s.waiting := hr.resolve_left (by simp [hopen])
    have hserved : rest.served = s.served := by rw [hrest]
    have hcount : rest.alarmsSincePrompt = s.alarmsSincePrompt := by rw [hrest]
    refine ⟨[request], by simp [serve, hserved], fun hnone => ?_⟩
    have hno : ¬ request.isPromptDeliver := hnone request (mem_singleton_self _)
    have hstays : r ∈ rest.waiting := (hselected.mem hmem).resolve_left fun heq => hno (heq ▸ hprompt)
    refine ⟨.inr hstays, ?_, ?_⟩
    · by_cases halarm : request.isAlarm <;> simp [serve, hno, halarm, hcount]
    · by_cases halarm : request.isAlarm
      · have hbudget := hselected.budget halarm hmem hprompt
        right
        simp only [serve, hno, halarm, hcount, Bool.false_eq_true, if_false, if_true]
        omega
      · left
        simp [halarm]
  | promptReceived => exact absurd rfl hevent
  | complete =>
    simp only [step] at h
    split at h
    · cases h
      exact ⟨[], (append_nil _).symm, fun _ => ⟨hr, rfl, .inl rfl⟩⟩
    · cases h
  | close =>
    simp only [step] at h
    split at h
    · cases h
    · cases h
      exact ⟨[], (append_nil _).symm, fun _ => ⟨.inl rfl, rfl, .inl rfl⟩⟩

lemma run_budget (h : run alarmsBeforePrompt s events = some t) (hevents : .promptReceived ∉ events)
    (hprompt : r.isPromptDeliver) (hr : s.closing ∨ r ∈ s.waiting) :
    ∃ taken, t.served = s.served ++ taken ∧ ((∀ x ∈ taken, ¬ x.isPromptDeliver) →
      s.alarmsSincePrompt + taken.countP (·.isAlarm) ≤
        max alarmsBeforePrompt s.alarmsSincePrompt) := by
  induction events generalizing s with
  | nil =>
    cases h
    exact ⟨[], (append_nil _).symm, fun _ => Nat.le_max_right _ _⟩
  | cons event events ih =>
    obtain ⟨u, hstep, hrun⟩ := Option.bind_eq_some_iff.mp h
    have hne : event ≠ .promptReceived := fun heq => hevents (heq ▸ mem_cons_self)
    have hrest : .promptReceived ∉ events := fun hmem => hevents (mem_cons_of_mem _ hmem)
    obtain ⟨first, hu, hfirst⟩ := step_budget hstep hne hprompt hr
    by_cases hnone : ∀ x ∈ first, ¬ x.isPromptDeliver
    · obtain ⟨hstays, hcount, hbound⟩ := hfirst hnone
      obtain ⟨later, ht, hlater⟩ := ih hrun hrest hstays
      refine ⟨first ++ later, by rw [ht, hu, append_assoc], fun hall => ?_⟩
      have htail := hlater fun x hx => hall x (mem_append_right _ hx)
      rw [countP_append]
      omega
    · obtain ⟨later, ht⟩ := run_served hrun
      refine ⟨first ++ later, by rw [← ht, hu, append_assoc], fun hall => ?_⟩
      exact absurd (fun x hx => hall x (mem_append_left _ hx)) hnone

/-- One more service is due before the head can be passed over again. -/
def overtaken (alarmsBeforePrompt alarms : ℕ) : ℕ :=
  if alarmsBeforePrompt ≤ alarms then 1 else 0

lemma overtaken_le (alarmsBeforePrompt alarms : ℕ) : overtaken alarmsBeforePrompt alarms ≤ 1 := by
  unfold overtaken
  split <;> omega

/-- A selection brings every other waiting request forward: by a place, or by the turn that the
overtaken alarm now has. -/
theorem selected_wait {alarms : ℕ} {request : SessionRequest} {waiting rest : List SessionRequest}
    (h : Selected alarmsBeforePrompt alarms waiting request rest) (hwaiting : waiting = before ++ r :: after) :
    r = request ∨ ∃ before' after', rest = before' ++ r :: after' ∧
      (2 * before'.length + 2 ≤ 2 * before.length ∨
        request.isPromptDeliver ∧ 2 * before'.length + 1 ≤
          2 * before.length + overtaken alarmsBeforePrompt alarms) := by
  cases h with
  | head _ _ hturn =>
    cases before with
    | nil => exact .inl (List.cons.inj hwaiting).1.symm
    | cons head before =>
      obtain ⟨-, htail⟩ := List.cons.inj hwaiting
      exact .inr ⟨before, after, htail, .inl (by simp; omega)⟩
  | ahead alarm _ ahead behind halarm hprompt hbefore hspent =>
    have hover : overtaken alarmsBeforePrompt alarms = 1 := if_pos hspent
    cases before with
    | nil =>
      obtain ⟨hhead, -⟩ := List.cons.inj hwaiting
      exact .inr ⟨[], ahead ++ behind, by simp [hhead], .inr ⟨hprompt, by simp [hover]⟩⟩
    | cons head before =>
      obtain ⟨hhead, htail⟩ := List.cons.inj hwaiting
      cases append_eq_append_iff.mp htail with
      | inl hpast =>
        -- `r` stands behind the prompt, or is the prompt
        obtain ⟨between, hb, hsplit⟩ := hpast
        cases between with
        | nil => exact .inl (List.cons.inj hsplit).1.symm
        | cons _ between =>
          obtain ⟨-, hbehind⟩ := List.cons.inj hsplit
          refine .inr ⟨alarm :: (ahead ++ between), after, by simp [hbehind], .inl ?_⟩
          simp [hb]
          omega
      | inr hnear =>
        -- `r` stands between the alarm and the prompt
        obtain ⟨between, hb, hsplit⟩ := hnear
        cases between with
        | nil => exact .inl (List.cons.inj hsplit).1
        | cons _ between =>
          obtain ⟨hr, hafter⟩ := List.cons.inj hsplit
          refine .inr ⟨alarm :: before, between ++ behind, by simp [hb, hr], .inr ⟨hprompt, ?_⟩⟩
          simp [hover]

lemma step_wait (h : s.step alarmsBeforePrompt event = some t) (hpos : 0 < alarmsBeforePrompt)
    (hevent : event ≠ .close) (hwaiting : s.waiting = before ++ r :: after) :
    ∃ taken, t.served = s.served ++ taken ∧ (r ∈ taken ∨
      ∃ before' after', t.waiting = before' ++ r :: after' ∧
        taken.length + 2 * before'.length + overtaken alarmsBeforePrompt t.alarmsSincePrompt ≤
          2 * before.length + overtaken alarmsBeforePrompt s.alarmsSincePrompt) := by
  have hreset : overtaken alarmsBeforePrompt 0 = 0 := if_neg (by omega)
  cases event with
  | arrive request =>
    cases h
    refine ⟨[], (append_nil _).symm, .inr ⟨before, after ++ [request], ?_, by simp⟩⟩
    simp only [waiting] at hwaiting ⊢
    rw [← append_assoc, hwaiting, append_assoc, cons_append]
  | select =>
    obtain ⟨-, -, request, rest, hselected, hrest, rfl⟩ := step_select h
    have hserved : rest.served = s.served := by rw [hrest]
    refine ⟨[request], by simp [serve, hserved], ?_⟩
    cases selected_wait hselected hwaiting with
    | inl heq => exact .inl (heq ▸ mem_singleton_self _)
    | inr hmoved =>
      obtain ⟨before', after', hleft, hcost⟩ := hmoved
      refine .inr ⟨before', after', hleft, ?_⟩
      have hle := overtaken_le alarmsBeforePrompt (serve request rest).alarmsSincePrompt
      simp only [length_singleton]
      cases hcost with
      | inl hplace => omega
      | inr hturn =>
        have hzero : (serve request rest).alarmsSincePrompt = 0 := if_pos hturn.1
        rw [hzero, hreset]
        omega
  | promptReceived =>
    simp only [step] at h
    split at h <;> cases h
    exact ⟨[], (append_nil _).symm, .inr ⟨before, after, hwaiting, by simp [hreset]⟩⟩
  | complete =>
    simp only [step] at h
    split at h <;> cases h
    exact ⟨[], (append_nil _).symm, .inr ⟨before, after, hwaiting, by simp⟩⟩
  | close => exact absurd rfl hevent

lemma run_wait (h : run alarmsBeforePrompt s events = some t) (hpos : 0 < alarmsBeforePrompt)
    (hevents : .close ∉ events) (hwaiting : s.waiting = before ++ r :: after) :
    ∃ taken, t.served = s.served ++ taken ∧ (r ∈ taken ∨ taken.length ≤
      2 * before.length + overtaken alarmsBeforePrompt s.alarmsSincePrompt) := by
  induction events generalizing s before after with
  | nil =>
    cases h
    exact ⟨[], (append_nil _).symm, .inr (Nat.zero_le _)⟩
  | cons event events ih =>
    obtain ⟨u, hstep, hrun⟩ := Option.bind_eq_some_iff.mp h
    have hne : event ≠ .close := fun heq => hevents (heq ▸ mem_cons_self)
    have hrest : .close ∉ events := fun hmem => hevents (mem_cons_of_mem _ hmem)
    obtain ⟨first, hu, hfirst⟩ := step_wait hstep hpos hne hwaiting
    cases hfirst with
    | inl hmem =>
      obtain ⟨later, ht⟩ := run_served hrun
      exact ⟨first ++ later, by rw [← ht, hu, append_assoc],
        .inl (mem_append_left _ hmem)⟩
    | inr hmoved =>
      obtain ⟨before', after', hleft, hcost⟩ := hmoved
      obtain ⟨later, ht, hlater⟩ := ih hrun hrest hleft
      refine ⟨first ++ later, by rw [ht, hu, append_assoc], ?_⟩
      cases hlater with
      | inl hmem => exact .inl (mem_append_right _ hmem)
      | inr hbound =>
        right
        rw [length_append]
        omega

lemma step_select_isSome (hopen : s.closing = false) (hidle : s.serving = none) :
    (s.step alarmsBeforePrompt .select).isSome = !s.waiting.isEmpty := by
  simp only [step, hopen, hidle, Option.isSome_none, Bool.or_false, Bool.false_eq_true, if_false,
    Option.isSome_map, select_isSome]

variable (alarmsBeforePrompt) in

theorem drains (hopen : s.closing = false) (hidle : s.serving = none) :
    ∃ events t, arrivals events = [] ∧ run alarmsBeforePrompt s events = some t ∧
      t.closing = false ∧ t.serving = none ∧ t.waiting = [] := by
  generalize hlen : s.waiting.length = n
  induction n generalizing s with
  | zero => exact ⟨[], s, rfl, rfl, hopen, hidle, length_eq_zero_iff.mp hlen⟩
  | succ n ih =>
    have hsome : (s.step alarmsBeforePrompt .select).isSome := by
      rw [step_select_isSome hopen hidle]
      cases hwaiting : s.waiting with
      | nil => simp [hwaiting] at hlen
      | cons head tail => rfl
    obtain ⟨u, hu⟩ := Option.isSome_iff_exists.mp hsome
    obtain ⟨-, -, request, rest, hselected, hrest, rfl⟩ := step_select hu
    have hstill : rest.closing = false := by rw [hrest]; exact hopen
    let v : WriterLoop := { serve request rest with
      serving := none, completed := rest.completed ++ [request] }
    have hv : (serve request rest).step alarmsBeforePrompt .complete = some v := by
      simp [step, serve, hstill, v]
    have hshort : v.waiting.length = n := by
      have hcut := hselected.length
      rw [hlen] at hcut
      exact (Nat.succ.inj hcut).symm
    obtain ⟨events, t, harrivals, hrun, ht⟩ := ih (s := v) hstill rfl hshort
    refine ⟨.select :: .complete :: events, t, harrivals, ?_, ht⟩
    rw [run, hu, Option.bind_some, run, hv, Option.bind_some, hrun]

theorem drains_open (hopen : s.closing = false) :
    ∃ events t, arrivals events = [] ∧ run alarmsBeforePrompt s events = some t ∧
      t.closing = false ∧ t.serving = none ∧ t.waiting = [] := by
  cases hserving : s.serving with
  | none => exact drains alarmsBeforePrompt hopen hserving
  | some request =>
    let u : WriterLoop := { s with serving := none, completed := s.completed ++ [request] }
    have hu : s.step alarmsBeforePrompt .complete = some u := by simp [step, hopen, hserving, u]
    have hagain := drains alarmsBeforePrompt (s := u) hopen rfl
    obtain ⟨events, t, harrivals, hrun, ht⟩ := hagain
    exact ⟨.complete :: events, t, harrivals, by rw [run, hu, Option.bind_some, hrun], ht⟩

def servedSince (s t : WriterLoop) : List SessionRequest := t.served.drop s.served.length

lemma servedSince_eq {taken : List SessionRequest} (h : t.served = s.served ++ taken) :
    servedSince s t = taken := by
  rw [servedSince, h, drop_left]

theorem answers_all (h : run alarmsBeforePrompt start events = some t) (hopen : t.closing = false) :
    ∃ more u, arrivals more = [] ∧ run alarmsBeforePrompt t more = some u ∧
      u.completed.Perm (arrivals events) := by
  obtain ⟨more, u, harrivals, hrun, hstill, hidle, hempty⟩ := drains_open hopen
  refine ⟨more, u, harrivals, hrun, ?_⟩
  have haccounts := run_accounts hrun (run_accounts h accounts_start)
  rw [harrivals, append_nil, nil_append] at haccounts
  have hperm := perm_of_classes haccounts.order
  have hanswered := haccounts.answered hstill
  rw [hidle, Option.toList_none, append_nil] at hanswered
  rwa [hempty, haccounts.noneRefused hstill, append_nil, append_nil, ← hanswered] at hperm

/-- From `s` on, the alarms served while a prompt waits stay within the budget as long as no prompt
is served, whatever the alarms' own occurrences deliver. -/
def BudgetKept (alarmsBeforePrompt : ℕ) (s : WriterLoop) (later : List WriterEvent) : Prop :=
  ∀ t r, run alarmsBeforePrompt s later = some t → r ∈ s.waiting → r.isPromptDeliver →
    (∀ x ∈ servedSince s t, ¬ x.isPromptDeliver) →
    (servedSince s t).countP (·.isAlarm) ≤ alarmsBeforePrompt

/-- The writer serves every request exactly once and each class in arrival order; a request is
overtaken a bounded number of times; and while a prompt waits, the alarms served before a prompt is
taken in, be it a delivery or one that an alarm's occurrence makes, stay within the budget. -/
theorem writer_serves_in_turn (alarmsBeforePrompt : ℕ) (events : List WriterEvent) (s : WriterLoop)
    (h : run alarmsBeforePrompt start events = some s) :
    (s.served ++ s.refused ++ s.waiting).Perm (arrivals events) ∧
    (∀ c : RequestClass, (s.served ++ s.refused ++ s.waiting).filter (·.requestClass = c) =
      (arrivals events).filter (·.requestClass = c)) ∧
    (s.closing = false → s.refused = [] ∧ s.completed ++ s.serving.toList = s.served ∧
      ∃ more u, arrivals more = [] ∧ run alarmsBeforePrompt s more = some u ∧
        u.completed.Perm (arrivals events)) ∧
    (0 < alarmsBeforePrompt → ∀ r before after later u, s.waiting = before ++ r :: after →
      .close ∉ later → run alarmsBeforePrompt s later = some u →
      2 * before.length + 2 ≤ (servedSince s u).length → r ∈ servedSince s u) ∧
    ∀ later, .promptReceived ∉ later → BudgetKept alarmsBeforePrompt s later := by
  have haccounts := run_accounts h accounts_start
  rw [nil_append] at haccounts
  refine ⟨perm_of_classes haccounts.order, haccounts.order, fun hopen => ?_,
    fun hpos r before after later u hwaiting hclose hrun hlong => ?_,
    fun later hlater u r hrun hr hprompt hnone => ?_⟩
  · exact ⟨haccounts.noneRefused hopen, haccounts.answered hopen, answers_all h hopen⟩
  · obtain ⟨taken, hu, htaken⟩ := run_wait hrun hpos hclose hwaiting
    rw [servedSince_eq hu] at hlong ⊢
    have hle := overtaken_le alarmsBeforePrompt s.alarmsSincePrompt
    exact htaken.resolve_right (by omega)
  · obtain ⟨taken, hu, htaken⟩ := run_budget hrun hlater hprompt (.inr hr)
    rw [servedSince_eq hu] at hnone ⊢
    have hbound := htaken hnone
    omega

/-- Two alarms, a third behind them and a prompt last, of a budget of two. -/
def deferredAlarm : List WriterEvent :=
  [.arrive ⟨1, .alarm⟩, .arrive ⟨2, .alarm⟩, .arrive ⟨3, .alarm⟩, .arrive ⟨4, .deliver "prompt"⟩]

theorem writer_serves_in_turn_deferred :
    ∃ s, run 2 start deferredAlarm = some s ∧ s.waiting.length = 4 ∧
      BudgetKept 2 s [.select, .complete, .select, .complete, .select, .complete] := by
  refine ⟨_, rfl, rfl, ?_⟩
  exact (writer_serves_in_turn 2 deferredAlarm _ rfl).2.2.2.2 _ (by decide)

/-- The second alarm's occurrence delivers a prompt, and a third alarm goes before the prompt that
has been waiting all along. -/
theorem routed_prompt_renews_budget :
    ¬ ∀ alarmsBeforePrompt events s later, run alarmsBeforePrompt start events = some s →
      BudgetKept alarmsBeforePrompt s later := by
  intro hall
  let later : List WriterEvent :=
    [.select, .complete, .select, .promptReceived, .complete, .select, .complete]
  have hkept := hall 2 deferredAlarm _ later rfl _ ⟨4, .deliver "prompt"⟩ rfl (by decide) (by decide)
    (by decide)
  exact absurd hkept (by decide)

end WriterLoop

end Writer
end OpenOmni
