import Mathlib.Data.List.Nodup
import OpenOmni.Llm.Router

/-! What one call keeps from attempt to attempt: what it may still try, what was shown, what is billed. -/
namespace OpenOmni
open List

namespace Router

lemma nodup_eraseDups (names : List String) : names.eraseDups.Nodup := by
  induction hlength : names.length using Nat.strong_induction_on generalizing names with
  | _ n ih =>
    cases names with
    | nil => exact nodup_nil
    | cons name names =>
      rw [eraseDups_cons, nodup_cons]
      constructor
      · intro hmem
        rw [mem_eraseDups, mem_filter] at hmem
        simp at hmem
      · refine ih _ ?_ _ rfl
        rw [← hlength, length_cons]
        exact Nat.lt_succ_of_le (length_filter_le _ names)

theorem Route.selectors_nodup (route : Route) : route.selectors.Nodup := nodup_eraseDups route.row

structure Tally where
  tried : List (String × Slot)
  charged : List Usage
  visible : List ℕ
  shown : List (ℕ × Shown)
  heard : Option (ℕ × String)
  billedUsage : Usage

def Call.tally (call : Call) : Tally :=
  ⟨call.tried, call.charged, call.visible, call.shown, call.heard, call.billedUsage⟩

namespace Tally

/-- What holds wherever the call stands: nothing is tried twice, and all that was seen is of the last
attempt. -/
structure Attempted (t : Tally) : Prop where
  once : t.tried.Nodup
  seen : ∀ n ∈ t.visible, n = t.tried.length
  told : ∀ e ∈ t.shown, e.1 = t.tried.length
  heard : ∀ n text, t.heard = some (n, text) → n ≤ t.tried.length
  billed : t.billedUsage = Usage.sum t.charged

structure Between (t : Tally) : Prop where
  charged : t.charged.length = t.tried.length
  unseen : t.visible = []
  untold : t.shown = []

def Handed (t : Tally) : Prop :=
  ∀ text, t.heard = some (t.tried.length, text) → (t.tried.length, .message text) ∈ t.shown

structure During (t : Tally) (attempt : Attempt) : Prop where
  charged : t.charged.length + 1 = t.tried.length
  unseen : attempt.phase = .preRequest → t.visible = [] ∧ t.shown = []
  pending : attempt.phase = .preRequest →
    ∀ text, t.heard = some (t.tried.length, text) → attempt.pending = some text
  handed : attempt.phase = .streaming → attempt.pending = none ∧ t.Handed

structure Answered (t : Tally) : Prop where
  charged : t.charged.length = t.tried.length
  handed : t.Handed

end Tally

namespace Control

def MayTry : Control → String × Slot → Prop
  | .waiting, _ => True
  | .selecting rest, tried => tried.1 ∈ rest
  | .resolving selector _ rest, tried => tried.1 ∈ selector :: rest
  | .authorizing selector _ rest, tried => tried.1 ∈ selector :: rest
  | .slotting candidate slots rest, tried =>
    tried.1 = candidate.selector ∧ tried.2 ∈ slots ∨ tried.1 ∈ rest
  | .attempting candidate _ slots rest, tried =>
    tried.1 = candidate.selector ∧ tried.2 ∈ slots ∨ tried.1 ∈ rest
  | .ended _, _ => False

def Ordered : Control → Prop
  | .waiting => True
  | .selecting rest => rest.Nodup
  | .resolving selector _ rest => (selector :: rest).Nodup
  | .authorizing selector _ rest => (selector :: rest).Nodup
  | .slotting candidate slots rest => (candidate.selector :: rest).Nodup ∧ slots.Nodup
  | .attempting candidate _ slots rest => (candidate.selector :: rest).Nodup ∧ slots.Nodup
  | .ended _ => True

def Stands (control : Control) (t : Tally) : Prop :=
  match control with
  | .attempting _ attempt _ _ => t.During attempt
  | .ended (.ok outcome) => outcome.billedUsage = none ∧ t.Between ∨
    outcome.billedUsage = some t.billedUsage ∧ t.Answered
  | .ended (.error .interrupted) => True
  | _ => t.Between

end Control

structure CallKept (call : Call) : Prop where
  attempted : call.tally.Attempted
  ordered : call.control.Ordered
  fresh : ∀ tried ∈ call.tried, ¬ call.control.MayTry tried
  stands : call.control.Stands call.tally

lemma start_callKept : CallKept .start where
  attempted := ⟨nodup_nil, nofun, nofun, nofun, rfl⟩
  ordered := trivial
  fresh := nofun
  stands := ⟨rfl, rfl, rfl⟩

section Steps
variable {route : Route} {s : Shared} {call : Call} {candidate : Candidate} {attempt : Attempt}
  {slots : List Slot} {rest : List String}

theorem kept_refused {refusal : Refusal} (hattempted : call.tally.Attempted)
    (hbetween : call.tally.Between) : CallKept { call with control := .ended (.error refusal) } where
  attempted := hattempted
  ordered := trivial
  fresh := fun _ _ => id
  stands := by
    cases refusal with
    | modelUnavailable | llm => exact hbetween
    | interrupted => trivial

theorem orderedSlots_perm (previous : Option Pin) (selector : String) (fingerprints : List String) :
    (orderedSlots previous selector fingerprints).Perm
      (fingerprints.mapIdx fun i fingerprint =>
        ⟨i, providerOf selector ++ ":" ++ fingerprint⟩) := by
  unfold orderedSlots
  extract_lets slots preferred
  have hperm := filter_append_perm (fun slot : Slot => some slot.key = preferred) slots
  simpa only [ne_eq, decide_not] using hperm

lemma orderedSlots_nodup (previous : Option Pin) (selector : String) (fingerprints : List String) :
    (orderedSlots previous selector fingerprints).Nodup := by
  rw [(orderedSlots_perm previous selector fingerprints).nodup_iff]
  refine List.Nodup.of_map Slot.index ?_
  have hindex : (fingerprints.mapIdx fun i fingerprint =>
      (⟨i, providerOf selector ++ ":" ++ fingerprint⟩ : Slot)).map Slot.index =
      List.range fingerprints.length := by
    apply ext_getElem
    · simp
    · intro i hi hi'
      simp
  rw [hindex]
  exact nodup_range

section
variable (hattempted : call.tally.Attempted) (hbetween : call.tally.Between) {selector : String}
  (hnodup : (selector :: rest).Nodup) (hfresh : ∀ tried ∈ call.tried, tried.1 ∉ selector :: rest) (lease : Circuit)
include hattempted hbetween hnodup hfresh lease

lemma startCandidate_kept (fingerprints : List String) :
    CallKept (startCandidate call selector lease rest fingerprints) where
  attempted := hattempted
  ordered := ⟨hnodup, orderedSlots_nodup call.previous selector fingerprints⟩
  fresh := by
    intro tried htried hmay
    refine hfresh tried htried ?_
    cases hmay with
    | inl hhere => exact hhere.1 ▸ mem_cons_self
    | inr hrest => exact mem_cons_of_mem _ hrest
  stands := hbetween

lemma authorize_kept : CallKept (authorize route call selector lease rest) := by
  unfold authorize
  dsimp only
  split
  · exact ⟨hattempted, hnodup, hfresh, hbetween⟩
  · exact startCandidate_kept hattempted hbetween hnodup hfresh lease _

end

lemma selectStep_kept (h : CallKept call) (hcontrol : call.control = .selecting rest)
    (aborted : Bool) (clock : ℕ → ℚ) :
    CallKept (selectStep route s call rest aborted clock).2 := by
  have hordered := h.ordered
  have hfresh := h.fresh
  have hbetween := h.stands
  rw [hcontrol] at hordered hfresh hbetween
  unfold selectStep
  split
  · exact kept_refused h.attempted hbetween
  · case h_2 selector rest =>
    split
    · exact ⟨h.attempted, trivial, fun _ _ => id, .inl ⟨rfl, hbetween⟩⟩
    · split
      · refine ⟨h.attempted, (nodup_cons.mp hordered).2, fun tried htried hmay => ?_, hbetween⟩
        exact hfresh tried htried (mem_cons_of_mem selector hmay)
      · dsimp only
        split
        · exact authorize_kept h.attempted hbetween hordered hfresh _
        · exact ⟨h.attempted, hordered, hfresh, hbetween⟩

theorem caught_kept (hattempted : call.tally.Attempted) (hbetween : call.tally.Between)
    (hnodup : rest.Nodup) (hfresh : ∀ tried ∈ call.tried, tried.1 ∉ rest) (selector : String)
    (lease : Circuit) (error : LlmError) (clock : ℕ → ℚ) :
    CallKept (caught s call selector lease rest error clock).2 := by
  unfold caught
  dsimp only
  split
  · exact ⟨hattempted, hnodup, hfresh, hbetween⟩
  · exact kept_refused hattempted hbetween

theorem startAttempt_kept {slot : Slot} (h : CallKept call)
    (hcontrol : call.control = .slotting candidate (slot :: slots) rest) (lease : CredentialState)
    (started : ℚ) : CallKept (startAttempt call candidate slot lease slots rest started) := by
  have hordered := h.ordered
  have hfresh := h.fresh
  have hbetween := h.stands
  rw [hcontrol] at hordered hfresh hbetween
  obtain ⟨hnodup, hslots⟩ := hordered
  have hlength : (call.tried ++ [(candidate.selector, slot)]).length = call.tried.length + 1 :=
    length_append
  have hnew : (candidate.selector, slot) ∉ call.tried := fun htried =>
    hfresh _ htried (.inl ⟨rfl, mem_cons_self⟩)
  refine ⟨⟨?_, ?_, ?_, fun n text hheard => ?_, h.attempted.billed⟩,
    ⟨hnodup, (nodup_cons.mp hslots).2⟩, fun tried htried hmay => ?_, ⟨?_, ?_, ?_, nofun⟩⟩
  · exact nodup_append.mpr ⟨h.attempted.once, by simp, by
      rintro tried htried other hother rfl
      exact hnew (mem_singleton.mp hother ▸ htried)⟩
  · intro n hn
    have hnone : call.visible = [] := hbetween.unseen
    have hmem : n ∈ call.visible := hn
    rw [hnone] at hmem
    cases hmem
  · intro e he
    have hnone : call.shown = [] := hbetween.untold
    have hmem : e ∈ call.shown := he
    rw [hnone] at hmem
    cases hmem
  · have hle : n ≤ call.tried.length := h.attempted.heard n text hheard
    exact hle.trans (hlength ▸ Nat.le_succ _)
  · have hcases : tried ∈ call.tried ∨ tried = (candidate.selector, slot) :=
      (mem_append.mp htried).imp id mem_singleton.mp
    cases hcases with
    | inl hold =>
      refine hfresh tried hold ?_
      cases hmay with
      | inl hhere => exact .inl ⟨hhere.1, mem_cons_of_mem _ hhere.2⟩
      | inr hrest => exact .inr hrest
    | inr hthis =>
      subst hthis
      cases hmay with
      | inl hhere => exact (nodup_cons.mp hslots).1 hhere.2
      | inr hrest => exact (nodup_cons.mp hnodup).1 hrest
  · have hcharged : call.charged.length = call.tried.length := hbetween.charged
    exact (congrArg (· + 1) hcharged).trans hlength.symm
  · exact fun _ => ⟨hbetween.unseen, hbetween.untold⟩
  · intro _ text hheard
    have hle : call.tried.length + 1 ≤ call.tried.length :=
      h.attempted.heard _ text (hlength ▸ hheard)
    omega

lemma slotStep_kept (h : CallKept call) (hcontrol : call.control = .slotting candidate slots rest)
    (clock : ℕ → ℚ) : CallKept (slotStep route s call candidate slots rest clock).2 := by
  have hordered := h.ordered
  have hfresh := h.fresh
  have hbetween := h.stands
  rw [hcontrol] at hordered hfresh hbetween
  unfold slotStep
  split
  · refine ⟨h.attempted, (nodup_cons.mp hordered.1).2, fun tried htried hmay => ?_, hbetween⟩
    exact hfresh tried htried (.inr hmay)
  · case h_2 slot slots =>
    dsimp only
    split
    · have hskip : ∀ tried ∈ call.tried,
          ¬ (tried.1 = candidate.selector ∧ tried.2 ∈ slots ∨ tried.1 ∈ rest) := by
        intro tried htried hmay
        refine hfresh tried htried ?_
        cases hmay with
        | inl hhere => exact .inl ⟨hhere.1, mem_cons_of_mem _ hhere.2⟩
        | inr hrest => exact .inr hrest
      split
      · exact ⟨h.attempted, ⟨hordered.1, (nodup_cons.mp hordered.2).2⟩, hskip, hbetween⟩
      · exact ⟨h.attempted, ⟨hordered.1, (nodup_cons.mp hordered.2).2⟩, hskip, hbetween⟩
    · exact startAttempt_kept h hcontrol _ _

theorem show_attempted (h : call.tally.Attempted) (shown : Shown) :
    (call.show shown).tally.Attempted := by
  refine ⟨h.once, h.seen, fun e he => ?_, h.heard, h.billed⟩
  cases mem_append.mp he with
  | inl hold => exact h.told e hold
  | inr hnew => rw [mem_singleton.mp hnew]; rfl

lemma see_attempted (h : call.tally.Attempted) : call.see.tally.Attempted := by
  refine ⟨h.once, fun n hn => ?_, h.told, h.heard, h.billed⟩
  cases mem_append.mp hn with
  | inl hold => exact h.seen n hold
  | inr hnew => exact mem_singleton.mp hnew

lemma flush_attempted (h : call.tally.Attempted) (pending : Option String) :
    (call.flush pending).tally.Attempted := by
  cases pending with
  | none => exact h
  | some text => exact show_attempted h (.message text)

lemma flush_tried (pending : Option String) : (call.flush pending).tried = call.tried := by
  cases pending with
  | none | some text => rfl

lemma flush_charged (pending : Option String) :
    (call.flush pending).charged = call.charged := by
  cases pending with
  | none | some text => rfl

theorem show_handed (h : call.tally.Handed) (shown : Shown) : (call.show shown).tally.Handed :=
  fun text hheard => mem_append_left _ (h text hheard)

theorem flush_handed {pending : Option String}
    (h : ∀ text, call.heard = some (call.tried.length, text) →
      pending = some text ∨ (call.tried.length, .message text) ∈ call.shown) :
    (call.flush pending).tally.Handed := by
  cases pending with
  | none =>
    intro text hheard
    cases h text hheard with
    | inl hpending => cases hpending
    | inr hshown => exact hshown
  | some held =>
    intro text hheard
    cases h text hheard with
    | inl hpending =>
      cases hpending
      exact mem_append_right _ mem_cons_self
    | inr hshown => exact mem_append_left _ hshown

lemma CallKept.during (h : CallKept call)
    (hcontrol : call.control = .attempting candidate attempt slots rest) :
    call.tally.During attempt := by
  have hstands := h.stands
  rwa [hcontrol] at hstands

theorem Tally.During.held {t : Tally} (h : t.During attempt) (text : String)
    (hheard : t.heard = some (t.tried.length, text)) :
    attempt.pending = some text ∨ (t.tried.length, .message text) ∈ t.shown := by
  cases hphase : attempt.phase with
  | preRequest => exact .inl (h.pending hphase text hheard)
  | streaming => exact .inr ((h.handed hphase).2 text hheard)

section
variable (h : CallKept call) (hcontrol : call.control = .attempting candidate attempt slots rest)
include h hcontrol

theorem goesOn_kept {next : Call} {going : Attempt}
    (hnext : next.control = .attempting candidate going slots rest) (htried : next.tried = call.tried)
    (hattempted : next.tally.Attempted) (hduring : next.tally.During going) : CallKept next := by
  have hordered := h.ordered
  have hfresh := h.fresh
  rw [hcontrol] at hordered hfresh
  refine ⟨hattempted, ?_, ?_, ?_⟩
  · rw [hnext]
    exact hordered
  · rw [hnext, htried]
    exact hfresh
  · rw [hnext]
    exact hduring

lemma onMessage_kept (text : String) :
    CallKept (onMessage call candidate attempt slots rest text) := by
  have hduring := h.during hcontrol
  let told : Call := { call with heard := some (call.tried.length, text) }
  have htold : told.tally.Attempted := by
    refine ⟨h.attempted.once, h.attempted.seen, h.attempted.told, fun n t hheard => ?_,
      h.attempted.billed⟩
    cases hheard
    exact le_rfl
  unfold onMessage
  dsimp only
  split
  · case h_1 hphase =>
    refine goesOn_kept h hcontrol hcontrol rfl (show_attempted htold (.message text)) ?_
    refine ⟨hduring.charged, ?_, ?_, fun _ => ⟨(hduring.handed hphase).1, fun t hheard => ?_⟩⟩
    · rw [hphase]
      nofun
    · rw [hphase]
      nofun
    · cases hheard
      exact mem_append_right _ mem_cons_self
  · case h_2 hphase =>
    refine goesOn_kept h hcontrol rfl rfl htold ⟨hduring.charged, hduring.unseen, ?_, ?_⟩
    · intro _ t hheard
      cases hheard
      rfl
    · rw [hphase]
      nofun

lemma observe_kept : CallKept (observe route s call candidate attempt slots rest).2 := by
  have hduring := h.during hcontrol
  unfold observe
  split
  · case h_1 hphase =>
    refine goesOn_kept h hcontrol hcontrol rfl (see_attempted h.attempted) ?_
    refine ⟨hduring.charged, ?_, ?_, hduring.handed⟩
    · rw [hphase]
      nofun
    · rw [hphase]
      nofun
  · refine goesOn_kept h hcontrol rfl ?_ (flush_attempted (see_attempted h.attempted) _) ?_
    · exact flush_tried _
    · refine ⟨?_, nofun, nofun, fun _ => ⟨rfl, flush_handed hduring.held⟩⟩
      have hsame : (call.see.flush attempt.pending).tried = call.tried := flush_tried _
      have hcharged : (call.see.flush attempt.pending).charged = call.charged := flush_charged _
      refine (congrArg (fun charged : List Usage => charged.length + 1) hcharged).trans ?_
      exact hduring.charged.trans (congrArg List.length hsame).symm

lemma onToolCall_kept (hphase : attempt.phase = .streaming) (id : String) :
    CallKept (onToolCall call candidate attempt slots rest id) := by
  have hduring := h.during hcontrol
  obtain ⟨hpending, hhanded⟩ := hduring.handed hphase
  unfold onToolCall
  refine goesOn_kept h hcontrol rfl rfl (show_attempted (see_attempted h.attempted) (.toolCall id)) ?_
  exact ⟨hduring.charged, nofun, nofun, fun _ => ⟨hpending, show_handed hhanded (.toolCall id)⟩⟩

lemma onToolResult_kept
    (hphase : attempt.phase = .streaming) (id : String) : CallKept (call.show (.toolResult id)) := by
  have hduring := h.during hcontrol
  obtain ⟨hpending, hhanded⟩ := hduring.handed hphase
  refine goesOn_kept h hcontrol hcontrol rfl (show_attempted h.attempted (.toolResult id)) ?_
  refine ⟨hduring.charged, ?_, ?_, fun _ => ⟨hpending, show_handed hhanded (.toolResult id)⟩⟩
  · rw [hphase]
    nofun
  · rw [hphase]
    nofun

end

/-- An attempt that has ended and is charged, before it is decided what follows. -/
structure Ending (call : Call) (candidate : Candidate) (attempt : Attempt) (slots : List Slot)
    (rest : List String) : Prop where
  attempted : call.tally.Attempted
  charged : call.charged.length = call.tried.length
  unseen : attempt.phase = .preRequest → call.visible = [] ∧ call.shown = []
  held : ∀ text, call.heard = some (call.tried.length, text) →
    attempt.pending = some text ∨ (call.tried.length, .message text) ∈ call.shown
  nodup : (candidate.selector :: rest).Nodup
  slotsNodup : slots.Nodup
  fresh : ∀ tried ∈ call.tried,
    ¬ (tried.1 = candidate.selector ∧ tried.2 ∈ slots ∨ tried.1 ∈ rest)

lemma CallKept.charge (h : CallKept call)
    (hcontrol : call.control = .attempting candidate attempt slots rest) (usage : Option Usage) :
    Ending (call.charge usage) candidate attempt slots rest := by
  have hduring := h.during hcontrol
  have hordered := h.ordered
  have hfresh := h.fresh
  rw [hcontrol] at hordered hfresh
  refine ⟨⟨h.attempted.once, h.attempted.seen, h.attempted.told, h.attempted.heard, ?_⟩, ?_,
    hduring.unseen, hduring.held, hordered.1, hordered.2, hfresh⟩
  · have hbilled : call.billedUsage = Usage.sum call.charged := h.attempted.billed
    have hsum := Usage.sum_snoc call.charged (usage.getD .zero)
    rw [← hbilled] at hsum
    exact hsum.symm
  · have hlength : (call.charged ++ [usage.getD .zero]).length = call.charged.length + 1 :=
      length_append
    exact hlength.trans hduring.charged

namespace Ending
variable (h : Ending call candidate attempt slots rest)
include h

lemma fact (fact : RoutingFact) : Ending (call.fact fact) candidate attempt slots rest :=
  ⟨h.attempted, h.charged, h.unseen, h.held, h.nodup, h.slotsNodup, h.fresh⟩

lemma between (hphase : attempt.phase = .preRequest) : call.tally.Between :=
  ⟨h.charged, (h.unseen hphase).1, (h.unseen hphase).2⟩

lemma freshRest : ∀ tried ∈ call.tried, tried.1 ∉ rest :=
  fun tried htried hrest => h.fresh tried htried (.inr hrest)

theorem nextSlot (hphase : attempt.phase = .preRequest) {other : Candidate}
    (hother : other.selector = candidate.selector) :
    CallKept { call with control := .slotting other slots rest } := by
  refine ⟨h.attempted, ⟨?_, h.slotsNodup⟩, fun tried htried hmay => h.fresh tried htried ?_,
    h.between hphase⟩
  · rw [hother]
    exact h.nodup
  · rw [← hother]
    exact hmay

theorem nextModel (hphase : attempt.phase = .preRequest) :
    CallKept { call with control := .selecting rest } :=
  ⟨h.attempted, (nodup_cons.mp h.nodup).2, h.freshRest, h.between hphase⟩

theorem answer (type : OutcomeType) (facts : List RoutingFact) (selected : Option String) :
    CallKept { call.flush attempt.pending with
      control := .ended (.ok
        ⟨type, some (call.flush attempt.pending).billedUsage, facts, selected⟩) } := by
  refine ⟨flush_attempted h.attempted _, trivial, fun _ _ => id, .inr ⟨rfl, ?_, flush_handed h.held⟩⟩
  have hcharged : (call.flush attempt.pending).charged = call.charged := flush_charged _
  have htried : (call.flush attempt.pending).tried = call.tried := flush_tried _
  have hlength : (call.flush attempt.pending).charged.length =
      (call.flush attempt.pending).tried.length := by
    rw [hcharged, htried, h.charged]
  exact hlength

end Ending

lemma failureStep_kept (h : Ending call candidate attempt slots rest) (error : LlmError)
    (thrown : Bool) (hthrown : thrown → attempt.phase = .preRequest ∧ attempt.pending = none)
    (clock : ℕ → ℚ) :
    CallKept (failureStep route s call candidate attempt slots rest error thrown clock).2 := by
  unfold failureStep
  extract_lets streak struck decision seen pinned lease opened freed maybeOpened flushed released
  have hseen : Ending seen candidate attempt slots rest := h.fact _
  split
  · case h_1 reason haction hblock => exact hseen.nextSlot (preRequest_of_swap (.inl haction)) rfl
  · case h_2 haction => exact hseen.nextModel (preRequest_of_swap (.inr haction))
  · split
    · case isTrue hrefused =>
      obtain ⟨hphase, hpending⟩ := hthrown hrefused
      have hflushed : flushed = seen := by
        unfold flushed
        rw [hpending]
        rfl
      rw [hflushed]
      exact caught_kept hseen.attempted (hseen.between hphase) (nodup_cons.mp hseen.nodup).2
        hseen.freshRest _ _ _ _
    · exact hseen.answer _ _ _

lemma finish_kept (h : CallKept call)
    (hcontrol : call.control = .attempting candidate attempt slots rest) (outcome : AttemptOutcome)
    (hrefusal : outcome.isRefusal → attempt.phase = .preRequest ∧ attempt.pending = none)
    (clock : ℕ → ℚ) :
    CallKept (finish route s call candidate attempt slots rest outcome clock).2 := by
  have hending := h.charge hcontrol outcome.usage
  unfold finish
  cases outcome with
  | stop usage | aborted usage => exact (hending.fact _).answer _ _ _
  | error cause => exact failureStep_kept hending cause false nofun clock
  | failure cause => exact failureStep_kept hending cause true (fun _ => hrefusal rfl) clock

lemma interrupt_kept (h : CallKept call) : CallKept (interrupt s call).2 := by
  have hstopped : CallKept { call with control := .ended (.error .interrupted) } :=
    ⟨h.attempted, trivial, fun _ _ => id, trivial⟩
  unfold interrupt
  split <;> exact hstopped

theorem act_kept {action : Action} {result : Shared × Call} (h : CallKept call)
    (hact : act route s call action = some result) : CallKept result.2 := by
  have hordered := h.ordered
  have hfresh := h.fresh
  have hstands := h.stands
  cases acts_of_act hact with
  | enter hcontrol =>
    rw [hcontrol] at hfresh hstands
    refine ⟨h.attempted, ?_, fun tried htried _ => hfresh tried htried trivial, hstands⟩
    exact (order_perm route.selectors route.selectors_nodup _ route.primary route.turn).nodup_iff.mpr
      route.selectors_nodup
  | select rest aborted clock hcontrol => exact selectStep_kept h hcontrol aborted clock
  | resolved selector lease rest clock hcontrol =>
    rw [hcontrol] at hordered hfresh hstands
    exact authorize_kept h.attempted hstands hordered hfresh lease
  | unresolved selector lease rest error clock hcontrol | unauthorized selector lease rest error clock hcontrol =>
    rw [hcontrol] at hordered hfresh hstands
    exact caught_kept h.attempted hstands (nodup_cons.mp hordered).2
      (fun tried htried hrest => hfresh tried htried (mem_cons_of_mem _ hrest)) _ _ _ _
  | authorized selector lease rest fingerprint clock hcontrol =>
    rw [hcontrol] at hordered hfresh hstands
    exact startCandidate_kept h.attempted hstands hordered hfresh lease [fingerprint]
  | slot candidate slots rest clock hcontrol => exact slotStep_kept h hcontrol clock
  | message candidate attempt slots rest text hcontrol => exact onMessage_kept h hcontrol text
  | delta candidate attempt slots rest hcontrol => exact observe_kept h hcontrol
  | toolCall candidate attempt slots rest id hcontrol hphase =>
    exact onToolCall_kept h hcontrol hphase id
  | toolResult candidate attempt slots rest id hcontrol hphase =>
    exact onToolResult_kept h hcontrol hphase id
  | finish candidate attempt slots rest outcome clock hcontrol hrefusal =>
    exact finish_kept h hcontrol outcome hrefusal clock
  | interrupt hcontrol => exact interrupt_kept h

end Steps

end Router
end OpenOmni
