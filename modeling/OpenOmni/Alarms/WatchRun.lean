import OpenOmni.Alarms.WatchTasks
import OpenOmni.Lib.Run

/-! A watch over every run: the hits wake its session within its budget, and once its main chain is
retired nothing wakes it or arms it again. -/
namespace OpenOmni
namespace Watch
open Transition List

/-- A commit that wakes nobody, arms nothing and leaves an unarmed main chain unarmed. -/
structure Stays (f f' : File) : Prop where
  wakes : f'.wakes = f.wakes
  timed : timedArms f' = timedArms f
  main : f.armed .main = none → f'.armed .main = none
  settled : Settled f → Settled f'

lemma Stays.refl (f : File) : Stays f f := ⟨rfl, rfl, id, id⟩

variable {f f' : File} {o : Occurrence}

lemma Stays.trans {f'' : File} (h : Stays f f') (h' : Stays f' f'') : Stays f f'' :=
  ⟨h'.wakes.trans h.wakes, h'.timed.trans h.timed, fun hmain => h'.main (h.main hmain),
    fun hsettled => h'.settled (h.settled hsettled)⟩

lemma mints_eq_timedArms (f : File) : mints f = (timedArms f).filter fun row => row.chain = .main := by
  unfold mints timedArms ArmRow.mints
  rw [filter_filter]

lemma Stays.mints (h : Stays f f') : mints f' = mints f := by
  rw [mints_eq_timedArms, mints_eq_timedArms, h.timed]

lemma Stays.hitWakes (h : Stays f f') : hitWakes f' = hitWakes f := by
  unfold Watch.hitWakes
  rw [h.wakes]

lemma settled_commitArm {input : ArmInput} : Settled (f.commitArm input) ↔
    Settled f ∨ input.chain = .main ∧ input.at = none ∧ input.payload ≠ .reason .sendRefused := by
  unfold Settled File.commitArm
  simp only [mem_append, mem_singleton, or_and_right, exists_or, exists_eq_left]

lemma stays_retire (f : File) (input : ArmInput) (hretire : input.at = none) : Stays f (f.commitArm input) := by
  refine ⟨rfl, ?_, fun hmain => ?_, fun hsettled => settled_commitArm.mpr (.inl hsettled)⟩
  · simp [timedArms, File.commitArm, hretire]
  · cases hchain : input.chain with
    | main => simp [File.commitArm, hchain, hretire]
    | timeout => simpa [File.commitArm, hchain] using hmain

lemma stays_appendFired (f : File) (o : Occurrence) (outcome : FiredOutcome) : Stays f (f.appendFired o outcome) := by
  unfold File.appendFired
  split_ifs
  · exact Stays.refl f
  · refine ⟨rfl, rfl, fun hmain => Option.eq_none_iff_forall_not_mem.mpr fun row hrow => ?_, id⟩
    have hknown := armed_without hrow
    rw [hmain] at hknown
    cases hknown

lemma settled_appendFired {outcome : FiredOutcome} : Settled (f.appendFired o outcome) ↔ Settled f := by
  unfold File.appendFired
  split_ifs
  · exact Iff.rfl
  · exact Iff.rfl

lemma stays_strike (f : File) (chain : Chain) : Stays f (f.strike chain) := by
  refine ⟨rfl, rfl, fun hmain => ?_, id⟩
  cases chain with
  | main => simp [File.strike, hmain]
  | timeout => simpa [File.strike] using hmain

lemma stays_other (f : File) : Stays f { f with revision := f.revision + 1 } := ⟨rfl, rfl, id, id⟩

section Advance
variable {ρ : Type} {f : File} (accepted : Bool) {task : Task ρ}

lemma advance_prompt (f : File) (wake : Wake) (committed refused : Task ρ) :
    (Task.prompt wake committed refused).advance f accepted = (f, refused) ∨
      ∃ f', f.prompt wake accepted = some f' ∧ (Task.prompt wake committed refused).advance f accepted = (f', committed) := by
  cases hprompt : f.prompt wake accepted with
  | none => exact .inl (by simp [Task.advance, hprompt])
  | some f' => exact .inr ⟨f', rfl, by simp [Task.advance, hprompt]⟩

lemma stays_advance (hmain : f.armed .main = none) (h : task.Quiet) :
    Stays f (task.advance f accepted).1 ∧ (task.advance f accepted).2.Quiet := by
  cases task with
  | done result => exact ⟨Stays.refl f, trivial⟩
  | prompt wake committed refused => exact h.elim
  | arm input committed refused =>
    cases accepted with
    | true => exact ⟨stays_retire f input h.1, h.2.1 _⟩
    | false => exact ⟨Stays.refl f, h.2.2⟩
  | latestArm chain next =>
    refine ⟨Stays.refl f, h _ fun hchain => ?_⟩
    rw [hchain]
    exact hmain
  | install installed refused =>
    cases accepted with
    | true => exact ⟨Stays.refl f, h.1⟩
    | false => exact ⟨Stays.refl f, h.2⟩

lemma prompt_settled {f' : File} {wake : Wake} {accepted : Bool} (h : f.prompt wake accepted = some f') : Settled f' ↔ Settled f := by
  rcases prompt_cases h with ⟨rfl, -⟩ | ⟨-, rfl⟩
  · exact Iff.rfl
  · exact Iff.rfl

lemma settles_advance (h : task.Settles) :
    (task.advance f accepted).2.Settles ∧
      (Settled (task.advance f accepted).1 → Settled f ∨
        (task.advance f accepted).1.armed .main = none ∧ (task.advance f accepted).2.Quiet) := by
  cases task with
  | done result => exact ⟨trivial, .inl⟩
  | prompt wake committed refused =>
    rcases advance_prompt accepted f wake committed refused with hnext | ⟨f', hprompt, hnext⟩
    · rw [hnext]
      exact ⟨h.2, .inl⟩
    · rw [hnext]
      exact ⟨h.1, fun hsettled => .inl ((prompt_settled hprompt).mp hsettled)⟩
  | arm input committed refused =>
    cases accepted with
    | false => exact ⟨h.2.2, .inl⟩
    | true =>
      refine ⟨h.2.1 _, fun hsettled => ?_⟩
      rcases settled_commitArm.mp hsettled with hsettled | ⟨hchain, hretire, -⟩
      · exact .inl hsettled
      · refine .inr ⟨?_, h.1 hchain hretire _⟩
        simp [Task.advance, File.commitArm, hchain, hretire]
  | latestArm chain next => exact ⟨h _, .inl⟩
  | install installed refused =>
    cases accepted with
    | true => exact ⟨h.1, .inl⟩
    | false => exact ⟨h.2, .inl⟩

lemma settled_advance (hsettles : task.Settles) (hsettled : Settled f → f.armed .main = none ∧ task.Quiet) :
    (task.advance f accepted).2.Settles ∧
      (Settled (task.advance f accepted).1 →
        (task.advance f accepted).1.armed .main = none ∧ (task.advance f accepted).2.Quiet) ∧
      (Settled f → Stays f (task.advance f accepted).1) := by
  obtain ⟨hnext, hnew⟩ := settles_advance (f := f) accepted hsettles
  refine ⟨hnext, fun hdone => ?_, fun hbefore => ?_⟩
  · rcases hnew hdone with hbefore | hnow
    · obtain ⟨hmain, hquiet⟩ := hsettled hbefore
      obtain ⟨hstays, hquiet'⟩ := stays_advance accepted hmain hquiet
      exact ⟨hstays.main hmain, hquiet'⟩
    · exact hnow
  · obtain ⟨hmain, hquiet⟩ := hsettled hbefore
    exact (stays_advance accepted hmain hquiet).1

variable {limit : ℕ}

lemma aside_advance (hbooks : Books limit f) (h : task.Aside) :
    Books limit (task.advance f accepted).1 ∧ (task.advance f accepted).2.Aside := by
  cases task with
  | done result => exact ⟨hbooks, trivial⟩
  | prompt wake committed refused =>
    rcases advance_prompt accepted f wake committed refused with hnext | ⟨f', hprompt, hnext⟩
    · rw [hnext]
      exact ⟨hbooks, h.2.2⟩
    · rw [hnext]
      exact ⟨hbooks.prompt_timeout h.1 hprompt, h.2.1⟩
  | arm input committed refused =>
    cases accepted with
    | true => exact ⟨hbooks.commit_aside h.1, h.2.1 _⟩
    | false => exact ⟨hbooks, h.2.2⟩
  | latestArm chain next => exact ⟨hbooks, h _⟩
  | install installed refused =>
    cases accepted with
    | true => exact ⟨hbooks, h.1⟩
    | false => exact ⟨hbooks, h.2⟩

/-- The task handles the last arm's occurrence; once it has prompted, every occurrence is awake. -/
def Spending (limit : ℕ) (f : File) (task : Task ρ) : Prop :=
  ∃ last notifications prompted, (mints f).getLast? = some last ∧ last.payload = .budget notifications ∧
    task.Spends limit last.armSeq notifications prompted ∧
    (prompted = true → (hitWakes f).map (·.armSeq) = (mints f).map (·.armSeq))

lemma Books.last_budget (h : Books limit f) {last : ArmRow} {notifications : ℕ} (hlast : (mints f).getLast? = some last)
    (hpayload : last.payload = .budget notifications) : (mints f).length = notifications + 1 := by
  obtain ⟨front, hmints⟩ := getLast?_eq_some_iff.mp hlast
  have hbudget := h.budgets front.length last (by rw [hmints, getElem?_concat_length])
  rw [hpayload] at hbudget
  injection hbudget with hcount
  rw [hmints, length_append, length_singleton, hcount]

lemma spending_advance (hbooks : Books limit f) (h : Spending limit f task) :
    Books limit (task.advance f accepted).1 ∧
      ((task.advance f accepted).2.Aside ∨ Spending limit (task.advance f accepted).1 (task.advance f accepted).2) := by
  obtain ⟨last, notifications, prompted, hlast, hpayload, hspends, hwakes⟩ := h
  cases task with
  | done result => exact ⟨hbooks, .inl trivial⟩
  | prompt wake committed refused =>
    obtain ⟨⟨hchain, hseq⟩, hcommitted, hrefused⟩ := hspends
    rcases advance_prompt accepted f wake committed refused with hnext | ⟨f', hprompt, hnext⟩
    · rw [hnext]
      exact ⟨hbooks, .inr ⟨last, notifications, prompted, hlast, hpayload, hrefused, hwakes⟩⟩
    · obtain ⟨hbooks', hmints, hall⟩ := hbooks.prompt_main hlast hchain hseq hprompt
      rw [hnext]
      exact ⟨hbooks', .inr ⟨last, notifications, true, (congrArg List.getLast? hmints).trans hlast, hpayload, hcommitted,
        fun _ => hall⟩⟩
  | arm input committed refused =>
    obtain ⟨hmint, hcommitted, hrefused⟩ := hspends
    cases accepted with
    | false => exact ⟨hbooks, .inr ⟨last, notifications, prompted, hlast, hpayload, hrefused, hwakes⟩⟩
    | true =>
      by_cases htimed : input.chain = .main ∧ input.at.isSome = true
      · obtain ⟨hprompted, hbudget, hlimit, haside⟩ := hmint htimed.1 htimed.2
        have hcount := hbooks.last_budget hlast hpayload
        refine ⟨hbooks.mint htimed.1 htimed.2 (hbudget.trans ?_) (by omega) (hwakes hprompted), .inl (haside _)⟩
        rw [hcount]
      · have haside : input.chain = .main → input.at = none := fun hchain =>
          Option.not_isSome_iff_eq_none.mp fun hsome => htimed ⟨hchain, hsome⟩
        have hmints : mints (f.commitArm input) = mints f := by
          rw [mints_commitArm, if_neg htimed, append_nil]
        refine ⟨hbooks.commit_aside haside, .inr ⟨last, notifications, prompted, ?_, hpayload, hcommitted _, ?_⟩⟩
        · exact (congrArg List.getLast? hmints).trans hlast
        · intro hprompted
          exact (hwakes hprompted).trans (congrArg (List.map (·.armSeq)) hmints).symm
  | latestArm chain next => exact ⟨hbooks, .inr ⟨last, notifications, prompted, hlast, hpayload, hspends _, hwakes⟩⟩
  | install installed refused =>
    cases accepted with
    | true => exact ⟨hbooks, .inr ⟨last, notifications, prompted, hlast, hpayload, hspends.1, hwakes⟩⟩
    | false => exact ⟨hbooks, .inr ⟨last, notifications, prompted, hlast, hpayload, hspends.2, hwakes⟩⟩

end Advance

inductive Moves (spec : Spec) (s : System) : System → Prop where
  | create (now : ℚ) (hidle : s.serving = .idle) (hfresh : s.file.arms = []) :
      Moves spec s { s with serving := .verb (createWatchVerb spec now) }
  | deliver (o : Occurrence) (capable : Bool) (now : ℚ) (hidle : s.serving = .idle) (hcarries : s.file.carries o = true) :
      Moves spec s { s with
        file := (alarmOccurrence spec s.file o capable now).1
        serving := .alarm o (alarmOccurrence spec s.file o capable now).2 }
  | fire (o : Occurrence) (outcome : FiredOutcome) (hserving : s.serving = .alarm o (.done outcome)) :
      Moves spec s { s with file := s.file.appendFired o outcome, serving := .idle }
  | answer (result : VerbResult) (hserving : s.serving = .verb (.done result)) :
      Moves spec s { s with serving := .idle, created := some result }
  | handle (o : Occurrence) (task : Task FiredOutcome) (accepted : Bool) (hserving : s.serving = .alarm o task) :
      Moves spec s { s with
        file := (task.advance s.file accepted).1
        serving := .alarm o (task.advance s.file accepted).2 }
  | work (task : Task VerbResult) (accepted : Bool) (hserving : s.serving = .verb task) :
      Moves spec s { s with
        file := (task.advance s.file accepted).1
        serving := .verb (task.advance s.file accepted).2 }
  | crash : Moves spec s { s with serving := .idle }
  | sendRefused (chain : Chain) (row : Armed) (harmed : s.file.armed chain = some row) :
      Moves spec s { s with file := s.file.commitArm ⟨chain, none, some row.armSeq, .reason .sendRefused⟩ }
  | other : Moves spec s { s with file := { s.file with revision := s.file.revision + 1 } }

lemma System.Step.moves {spec : Spec} {s t : System} {event : Event} (h : s.Step spec event t) : Moves spec s t := by
  unfold System.Step System.step at h
  cases event with
  | create now =>
    cases hserving : s.serving with
    | idle =>
      simp only [hserving] at h
      split_ifs at h with hfresh
      cases h
      exact .create now hserving hfresh
    | alarm o task | verb task => simp only [hserving, reduceCtorEq] at h
  | deliver o capable now =>
    cases hserving : s.serving with
    | idle =>
      simp only [hserving] at h
      split_ifs at h with hcarries
      cases h
      exact .deliver o capable now hserving hcarries
    | alarm o task | verb task => simp only [hserving, reduceCtorEq] at h
  | advance accepted =>
    cases hserving : s.serving with
    | idle => simp only [hserving, reduceCtorEq] at h
    | alarm o task =>
      cases task with
      | done outcome =>
        simp only [hserving] at h
        cases h
        exact .fire o outcome hserving
      | _ =>
        simp only [hserving] at h
        cases h
        exact .handle o _ accepted hserving
    | verb task =>
      cases task with
      | done result =>
        simp only [hserving] at h
        cases h
        exact .answer result hserving
      | _ =>
        simp only [hserving] at h
        cases h
        exact .work _ accepted hserving
  | crash =>
    cases h
    exact .crash
  | sendRefused chain =>
    obtain ⟨row, harmed, rfl⟩ := Option.map_eq_some_iff.mp h
    exact .sendRefused chain row harmed
  | other =>
    cases h
    exact .other

def Serving.Quiet : Serving → Prop
  | .idle => True
  | .alarm _ task => task.Quiet
  | .verb task => task.Quiet

def Serving.Settles : Serving → Prop
  | .idle => True
  | .alarm _ task => task.Settles
  | .verb task => task.Settles

/-- What is being served leaves the budget alone, or spends it on the current occurrence, or is the
verb before its first arm. -/
def Serving.Keeps (spec : Spec) (f : File) : Serving → Prop
  | .idle => True
  | .alarm _ task => task.Aside ∨ Spending spec.notificationLimit f task
  | .verb task => task.Aside ∨ mints f = [] ∧ ∃ now, task = createWatchVerb spec now

structure Kept (spec : Spec) (s : System) : Prop where
  books : Books spec.notificationLimit s.file
  keeps : s.serving.Keeps spec s.file
  settles : s.serving.Settles
  settled : Settled s.file → s.file.armed .main = none ∧ s.serving.Quiet

lemma Kept.init (spec : Spec) : Kept spec {} where
  books := Books.empty _
  keeps := trivial
  settles := trivial
  settled := nofun

lemma Serving.Keeps.of_stays {spec : Spec} {serving : Serving} (h : Stays f f') (hkeeps : serving.Keeps spec f) :
    serving.Keeps spec f' := by
  cases serving with
  | idle => trivial
  | alarm o task =>
    refine hkeeps.imp id fun hspending => ?_
    unfold Spending at hspending ⊢
    rwa [h.mints, h.hitWakes]
  | verb task =>
    refine hkeeps.imp id fun hfresh => ?_
    rwa [h.mints]

lemma Books.running {spec : Spec} (h : Books spec.notificationLimit f) (hchain : o.chain = .main)
    (hruns : f.runs o = true) (hcarries : f.carries o = true) :
    ∃ last notifications, (mints f).getLast? = some last ∧ o.armSeq = last.armSeq ∧ last.payload = .budget notifications ∧
      o.payload = .budget notifications := by
  unfold File.runs at hruns
  simp only [Bool.and_eq_true] at hruns
  obtain ⟨row, hrow, hseq⟩ := (Option.any_eq_true _ _).mp hruns.1.2
  rw [hchain] at hrow
  obtain ⟨last, hlast, hrowSeq, -⟩ := h.armed row hrow
  have hlastSeq : o.armSeq = last.armSeq := (of_decide_eq_true hseq).symm.trans hrowSeq
  obtain ⟨front, hmints⟩ := getLast?_eq_some_iff.mp hlast
  have hbudget := h.budgets front.length last (by rw [hmints, getElem?_concat_length])
  have hmem : last ∈ mints f := by
    rw [hmints]
    exact mem_append_right _ (mem_singleton.mpr rfl)
  obtain ⟨harm, hmint⟩ := mem_filter.mp hmem
  have hmain : last.chain = .main := by
    unfold ArmRow.mints at hmint
    exact of_decide_eq_true (Bool.and_eq_true_iff.mp hmint).1
  have hpayload := all_eq_true.mp hcarries last harm
  simp only [hmain, hchain, hlastSeq, decide_true, Bool.and_self, Bool.not_true, Bool.false_or, decide_eq_true_eq] at hpayload
  exact ⟨last, front.length, hlast, hlastSeq, hbudget, hpayload.symm.trans hbudget⟩

lemma Serving.Keeps.deliver {spec : Spec} (h : Books spec.notificationLimit f) (o : Occurrence) (capable : Bool)
    (now : ℚ) (hcarries : f.carries o = true) :
    (Serving.alarm o (alarmOccurrence spec f o capable now).2).Keeps spec (alarmOccurrence spec f o capable now).1 := by
  have hstays : Stays f (f.strike o.chain) := stays_strike f o.chain
  unfold Serving.Keeps alarmOccurrence wake
  dsimp only
  split_ifs with hruns hstrikes hcapable
  · exact .inl trivial
  · cases hchain : o.chain with
    | timeout => exact .inl (monitorTimeout_aside o)
    | main =>
      obtain ⟨last, notifications, hlast, hseq, hbudget, hpayload⟩ := h.running hchain hruns hcarries
      refine .inr ⟨last, notifications, false, ?_, hbudget, ?_, nofun⟩
      · rw [hchain] at hstays
        rw [hstays.mints]
        exact hlast
      · rw [← hseq]
        exact monitorHit_spends spec o now hpayload
  · exact .inl trivial
  · exact .inl trivial

lemma stays_deliver (spec : Spec) (f : File) (o : Occurrence) (capable : Bool) (now : ℚ) :
    Stays f (alarmOccurrence spec f o capable now).1 ∧
      (Settled (alarmOccurrence spec f o capable now).1 ↔ Settled f) ∧
      (∀ limit, Books limit f → Books limit (alarmOccurrence spec f o capable now).1) := by
  rcases alarmOccurrence_file spec f o capable now with hfile | hfile
  · rw [hfile]
    exact ⟨Stays.refl f, Iff.rfl, fun _ => id⟩
  · rw [hfile]
    exact ⟨stays_strike f o.chain, Iff.rfl, fun _ h => h.strike o.chain⟩

lemma first_arm {spec : Spec} (h : Books spec.notificationLimit f) (hfresh : mints f = []) (now : ℚ) (accepted : Bool) :
    Books spec.notificationLimit ((createWatchVerb spec now).advance f accepted).1 ∧
      ((createWatchVerb spec now).advance f accepted).2.Aside := by
  cases accepted with
  | false => exact ⟨h, trivial⟩
  | true =>
    refine ⟨h.mint rfl rfl ?_ ?_ ?_, created_aside spec now _⟩
    · rw [hfresh]
      rfl
    · rw [hfresh]
      exact spec.positive
    · obtain ⟨m, -, -, hwakes⟩ := h.wakes
      rw [hwakes, hfresh]
      simp

section Runs
variable {spec : Spec} {s t : System}

lemma Kept.step {event : Event} (h : Kept spec s) (hstep : s.Step spec event t) :
    Kept spec t ∧ (Settled s.file → Stays s.file t.file) := by
  obtain ⟨hbooks, hkeeps, hsettles, hsettled⟩ := h
  cases hstep.moves with
  | create now hidle hfresh =>
    have hunsettled : ¬Settled s.file := by
      rintro ⟨row, hrow, -⟩
      rw [hfresh] at hrow
      cases hrow
    have hmints : mints s.file = [] := by
      unfold mints
      rw [hfresh]
      rfl
    exact ⟨⟨hbooks, .inr ⟨hmints, now, rfl⟩, createWatchVerb_settles spec now, fun hdone => absurd hdone hunsettled⟩,
      fun hdone => absurd hdone hunsettled⟩
  | deliver o capable now hidle hcarries =>
    obtain ⟨hstays, hiff, hkept⟩ := stays_deliver spec s.file o capable now
    refine ⟨⟨hkept _ hbooks, Serving.Keeps.deliver hbooks o capable now hcarries,
      alarmOccurrence_settles spec s.file o capable now, fun hdone => ?_⟩, fun _ => hstays⟩
    obtain ⟨hmain, -⟩ := hsettled (hiff.mp hdone)
    exact ⟨hstays.main hmain, alarmOccurrence_quiet spec o capable now hmain⟩
  | fire o outcome hserving =>
    have hstays := stays_appendFired s.file o outcome
    refine ⟨⟨hbooks.appendFired o outcome, trivial, trivial, fun hdone => ⟨hstays.main ?_, trivial⟩⟩, fun _ => hstays⟩
    exact (hsettled (settled_appendFired.mp hdone)).1
  | answer result hserving | crash =>
    exact ⟨⟨hbooks, trivial, trivial, fun hdone => ⟨(hsettled hdone).1, trivial⟩⟩, fun _ => Stays.refl _⟩
  | handle o task accepted hserving =>
    rw [hserving] at hkeeps hsettles hsettled
    obtain ⟨hnext, hquiet, hstays⟩ := settled_advance accepted hsettles hsettled
    rcases hkeeps with haside | hspending
    · obtain ⟨hbooks', haside'⟩ := aside_advance accepted hbooks haside
      exact ⟨⟨hbooks', .inl haside', hnext, hquiet⟩, hstays⟩
    · obtain ⟨hbooks', hkeeps'⟩ := spending_advance accepted hbooks hspending
      exact ⟨⟨hbooks', hkeeps', hnext, hquiet⟩, hstays⟩
  | work task accepted hserving =>
    rw [hserving] at hkeeps hsettles hsettled
    obtain ⟨hnext, hquiet, hstays⟩ := settled_advance accepted hsettles hsettled
    rcases hkeeps with haside | ⟨hfresh, now, rfl⟩
    · obtain ⟨hbooks', haside'⟩ := aside_advance accepted hbooks haside
      exact ⟨⟨hbooks', .inl haside', hnext, hquiet⟩, hstays⟩
    · obtain ⟨hbooks', haside'⟩ := first_arm hbooks hfresh now accepted
      exact ⟨⟨hbooks', .inl haside', hnext, hquiet⟩, hstays⟩
  | sendRefused chain row harmed =>
    have hstays := stays_retire s.file ⟨chain, none, some row.armSeq, .reason .sendRefused⟩ rfl
    refine ⟨⟨hbooks.commit_aside fun _ => rfl, hkeeps.of_stays hstays, hsettles, fun hdone => ?_⟩, fun _ => hstays⟩
    rcases settled_commitArm.mp hdone with hbefore | ⟨-, -, hreason⟩
    · exact ⟨hstays.main (hsettled hbefore).1, (hsettled hbefore).2⟩
    · exact absurd rfl hreason
  | other => exact ⟨⟨hbooks.other, hkeeps.of_stays (stays_other s.file), hsettles, hsettled⟩, fun _ => stays_other s.file⟩

def Init (s : System) : Prop := s = {}

lemma Kept.reachable (h : Reachable Init (System.Step spec) s) : Kept spec s :=
  h.invariant (by rintro s rfl; exact Kept.init spec) fun _ _ _ hkept hstep => (hkept.step hstep).1

lemma Kept.run {trace : List (System × Event)} (h : Kept spec s) (hsettled : Settled s.file)
    (hrun : Run (System.Step spec) s trace t) : Stays s.file t.file := by
  have hall : Kept spec t ∧ Stays s.file t.file :=
    hrun.preserves (P := fun u => Kept spec u ∧ Stays s.file u.file) ⟨h, Stays.refl _⟩ fun a event b ⟨hkept, hstays⟩ hstep => by
      obtain ⟨hkept', hquiet⟩ := hkept.step hstep
      exact ⟨hkept', hstays.trans (hquiet (hstays.settled hsettled))⟩
  exact hall.2

variable {limit : ℕ} {f : File}

end Runs

namespace WatchSample

def spec : Spec := ⟨2, Nat.two_pos, some 5⟩

def created : List Event := [.create 0, .advance true, .advance true, .advance true, .advance true]

def hit : List Event := [.deliver ⟨.main, 1, .budget 0, some ⟨"line", false, "out"⟩⟩ true 1, .advance true]

def timedOut : List Event :=
  [.deliver ⟨.timeout, 2, .watchId, none⟩ true 5, .advance true, .advance true, .advance false, .advance true]

def after (s : System) (events : List Event) : System := (events.foldlM (System.step spec) s).getD s

end WatchSample

end Watch
end OpenOmni
