import OpenOmni.Lib.Run
import OpenOmni.Machines.PtyTerminal

/-! Over every run of one terminal its cursors read the pane without a gap and without a byte twice, while no
output comes between a capture and its attach and no later attach brings another replay. -/
namespace OpenOmni
open List

namespace Pty

namespace Terminal

variable {name : String} {t t' : Terminal} {i : ℕ}

/-- What the daemon keeps of a terminal, and how it stands to what the terminal said. -/
structure Kept (t : Terminal) : Prop where
  bound : t.record.liveLength ≤ liveRetainMaxBytes
  holds : ∃ stream, t.record.Holds stream ∧ (t.record.attached = true → t.record.closed = false → stream = t.said)
  fresh : t.record.closed = false → t.record.attached = false →
    t.routes = [] ∧ t.record.liveChunks = [] ∧ t.record.liveLength = 0 ∧ t.record.liveDropped = 0
  routed : t.record.closed = false → t.record.attached = true →
    ∃ paneId, t.record.paneId = some paneId ∧ ∀ pane, pane ∈ t.routes ↔ pane = paneId

/-- A step keeps the stream of an open terminal in one piece: the attach that ends with it heard nothing since
its capture, and one that ends on an attached terminal brings the pane and the replay that it has. -/
def Unbroken (t : Terminal) : Label → Prop
  | .resume i => ∀ operation windowId paneId lines since,
    t.ops i = .replied operation (.capturePane windowId paneId) (.ok lines) since → t.record.closed = false →
      (t.record.attached = false → since = []) ∧
      (t.record.attached = true → t.record.paneId = some paneId ∧ snapshot lines = t.record.replay)
  | _ => True

/-- The cursors of an open terminal read what it said, each from its place. -/
def Seamless (t : Terminal) : Prop :=
  t.record.attached = true → t.record.closed = false → ∀ place ≤ t.said.length,
    PtyRecord.Reads t.said place (t.record.read (.minted place))

lemma Kept.seamless (h : t.Kept) : t.Seamless := by
  intro hattached hclosed place hplace
  obtain ⟨stream, hholds, hsaid⟩ := h.holds
  obtain rfl := hsaid hattached hclosed
  exact hholds.read hplace

/-- A step that leaves the record, its routes and what was said. -/
structure Still (t t' : Terminal) : Prop where
  record : t'.record = t.record
  routes : t'.routes = t.routes
  said : t'.said = t.said

lemma Still.kept (h : Still t t') (hkept : t.Kept) : t'.Kept := by
  obtain ⟨hrecord, hroutes, hsaid⟩ := h
  obtain ⟨hbound, hholds, hfresh, hrouted⟩ := hkept
  rw [← hrecord] at hbound hholds hfresh hrouted
  rw [← hroutes] at hfresh hrouted
  rw [← hsaid] at hholds
  exact ⟨hbound, hholds, hfresh, hrouted⟩

lemma put_still (phase : Phase) : Still t (t.put i phase) := ⟨rfl, rfl, rfl⟩

lemma send_still (operation : Operation) (command : Command) : Still t (t.send i operation command) :=
  ⟨rfl, rfl, rfl⟩

lemma body_still (operation : Operation) : Still t (t.body i operation) := by
  cases operation with
  | read cursor waits =>
    unfold body
    dsimp only
    split
    · exact put_still _
    · exact put_still _
  | commands count =>
    cases count with
    | zero => exact put_still _
    | succ more => exact send_still _ _
  | _ => exact put_still _

lemma begin_still (operation : Operation) : Still t (t.begin i operation) := by
  unfold begin
  split
  · exact put_still _
  · split
    · exact send_still _ _
    · split
      · exact body_still operation
      · exact send_still _ _

/-- A step leaves what is kept, ends an attach, ends a close, or takes output. -/
inductive Change (t : Terminal) (label : Label) (t' : Terminal) : Prop where
  | still (h : Still t t')
  | attached (i : ℕ) (operation : Operation) (windowId paneId : String) (lines : List String) (since : Bytes)
      (hlabel : label = .resume i)
      (hphase : t.ops i = .replied operation (.capturePane windowId paneId) (.ok lines) since)
      (h : Still (t.attach windowId paneId lines since) t')
  | removed (i : ℕ) (h : t' = t.remove i)
  | heard (paneId : String) (data : Bytes) (h : t' = t.route (.output paneId data))

variable {label : Label} {since : Bytes}

lemma closeWindow_change : Change t label (t.closeWindow i) := by
  unfold closeWindow
  split
  · exact .still (send_still _ _)
  · exact .removed i rfl

lemma proceed_change {operation : Operation} {command : Command} {reply : Reply}
    (hphase : t.ops i = .replied operation command reply since) :
    Change t (.resume i) (t.proceed i name operation since command reply) := by
  cases reply with
  | refused =>
    cases command with
    | killSession | killWindow windowId => exact .still (send_still _ _)
    | other more =>
      cases more with
      | zero | succ more => exact .still (put_still _)
    | _ => exact .still (put_still _)
  | ok lines =>
    cases command with
    | listPanes =>
      simp only [proceed]
      split
      · exact .still (send_still _ _)
      · exact .still (put_still _)
    | linkWindow windowId paneId => exact .still (send_still _ _)
    | capturePane windowId paneId =>
      exact .attached i operation windowId paneId lines since rfl hphase (body_still operation)
    | killSession => exact closeWindow_change
    | listSessions =>
      simp only [proceed]
      split
      · exact .still (put_still _)
      · exact closeWindow_change
    | killWindow windowId => exact .removed i rfl
    | listWindows windowId =>
      simp only [proceed]
      split
      · exact .still (put_still _)
      · exact .removed i rfl
    | other more =>
      cases more with
      | zero => exact .still (put_still _)
      | succ more => exact .still (send_still _ _)

lemma step_change (h : t.step name label = some t') : Change t label t' := by
  cases label with
  | begin i operation =>
    unfold step at h
    dsimp only at h
    split at h
    · cases h
      exact .still (begin_still operation)
    · cases h
  | resume i =>
    unfold step resume at h
    dsimp only at h
    split at h
    · case h_1 operation command reply since hphase =>
      cases h
      exact proceed_change hphase
    · cases h
      exact .still (put_still _)
    · cases h
  | event event =>
    cases h
    cases event with
    | output paneId data => exact .heard paneId data rfl
    | reply reply =>
      refine .still ?_
      unfold route
      dsimp only
      split
      · exact ⟨rfl, rfl, rfl⟩
      · split
        · exact ⟨rfl, rfl, rfl⟩
        · exact ⟨rfl, rfl, rfl⟩

/-- Whatever the steps: the record is in order, and holds no more than the bound. -/
structure Bounded (t : Terminal) : Prop where
  bound : t.record.liveLength ≤ liveRetainMaxBytes
  holds : ∃ stream, t.record.Holds stream

lemma step_bounded (h : t.Bounded) (hstep : t.step name label = some t') : t'.Bounded := by
  obtain ⟨hbound, stream, hholds⟩ := h
  obtain ⟨hlength, dropped, hdropped, hbytes⟩ := hholds
  cases step_change hstep with
  | still hstill =>
    refine ⟨hstill.record ▸ hbound, stream, ?_⟩
    rw [hstill.record]
    exact ⟨hlength, dropped, hdropped, hbytes⟩
  | attached i operation windowId paneId lines since _ _ hstill =>
    refine ⟨?_, snapshot lines ++ dropped ++ t.record.liveChunks.flatten, ?_⟩
    · rw [hstill.record]
      exact hbound
    · rw [hstill.record]
      exact ⟨hlength, dropped, hdropped, rfl⟩
  | removed i heq =>
    rw [heq]
    exact ⟨hbound, _, ⟨hlength, dropped, hdropped, rfl⟩⟩
  | heard paneId data heq =>
    rw [heq]
    unfold route
    dsimp only
    split
    · obtain ⟨happend, hbound'⟩ := PtyRecord.Holds.append ⟨hlength, dropped, hdropped, rfl⟩ data
      exact ⟨hbound' hbound, _, happend⟩
    · exact ⟨hbound, _, ⟨hlength, dropped, hdropped, rfl⟩⟩

lemma attach_kept {windowId paneId : String} {lines : List String} (h : t.Kept)
    (hunbroken : t.record.closed = false → (t.record.attached = false → since = []) ∧
      (t.record.attached = true → t.record.paneId = some paneId ∧ snapshot lines = t.record.replay)) :
    (t.attach windowId paneId lines since).Kept := by
  obtain ⟨hbound, ⟨stream, hholds, hsaid⟩, hfresh, hrouted⟩ := h
  cases hclosed : t.record.closed with
  | true =>
    obtain ⟨hlength, dropped, hdropped, -⟩ := hholds
    refine ⟨hbound, ⟨_, ⟨hlength, dropped, hdropped, rfl⟩, fun _ hopen => ?_⟩, fun hopen => ?_, fun hopen => ?_⟩
    all_goals
      rw [attach] at hopen
      rw [hclosed] at hopen
      cases hopen
  | false =>
    obtain ⟨hfirst, hagain⟩ := hunbroken hclosed
    cases hattached : t.record.attached with
    | false =>
      obtain ⟨hroutes, hchunks, hlength, hdropped⟩ := hfresh hclosed hattached
      have hsince := hfirst hattached
      have hsaid' : (t.attach windowId paneId lines since).said = snapshot lines := by
        unfold attach
        rw [hattached, hsince]
        exact append_nil _
      refine ⟨hbound, ⟨snapshot lines, ⟨?_, [], hdropped.symm, ?_⟩, fun _ _ => hsaid'.symm⟩, nofun,
        fun _ _ => ⟨paneId, rfl, fun pane => ?_⟩⟩
      · exact hlength.trans (by simp [attach, hchunks])
      · simp [attach, hchunks]
      · simp [attach, hroutes]
    | true =>
      obtain ⟨hpane, hreplay⟩ := hagain hattached
      obtain ⟨pane, hpane', hroutes⟩ := hrouted hclosed hattached
      rw [hpane'] at hpane
      cases hpane
      obtain rfl := hsaid hattached hclosed
      obtain ⟨hlength, dropped, hdropped, hbytes⟩ := hholds
      refine ⟨hbound, ⟨t.said, ⟨hlength, dropped, hdropped, ?_⟩, fun _ _ => ?_⟩, nofun,
        fun _ _ => ⟨paneId, rfl, fun pane => ?_⟩⟩
      · exact hbytes.trans (by simp [attach, hreplay])
      · simp [attach, hattached]
      · simp [attach, hroutes]

lemma output_kept (h : t.Kept) (paneId : String) (data : Bytes) : (t.route (.output paneId data)).Kept := by
  obtain ⟨hbound, ⟨stream, hholds, hsaid⟩, hfresh, hrouted⟩ := h
  obtain ⟨happend, hbound'⟩ := hholds.append data
  unfold route
  dsimp only
  by_cases hin : paneId ∈ t.routes
  · rw [if_pos hin]
    refine ⟨hbound' hbound, ⟨stream ++ data, happend, fun hattached hclosed => ?_⟩, fun hclosed hattached => ?_,
      fun hclosed hattached => ?_⟩
    all_goals
      simp only [PtyRecord.append_attached, PtyRecord.append_closed, PtyRecord.append_paneId] at hattached hclosed ⊢
    · obtain ⟨pane, hpane, hroutes⟩ := hrouted hclosed hattached
      obtain rfl := (hroutes paneId).mp hin
      rw [if_pos ⟨hattached, hpane⟩, hsaid hattached hclosed]
    · rw [(hfresh hclosed hattached).1] at hin
      cases hin
    · exact hrouted hclosed hattached
  · rw [if_neg hin]
    refine ⟨hbound, ⟨stream, hholds, fun hattached hclosed => ?_⟩, hfresh, hrouted⟩
    obtain ⟨pane, hpane, hroutes⟩ := hrouted hclosed hattached
    have hother : ¬(t.record.attached = true ∧ t.record.paneId = some paneId) := by
      rintro ⟨-, hsame⟩
      rw [hpane] at hsame
      cases hsame
      exact hin ((hroutes paneId).mpr rfl)
    rw [if_neg hother]
    exact hsaid hattached hclosed

theorem step_kept (h : t.Kept) (hunbroken : t.Unbroken label) (hstep : t.step name label = some t') : t'.Kept := by
  cases step_change hstep with
  | still hstill => exact hstill.kept h
  | attached i operation windowId paneId lines since hlabel hphase hstill =>
    rw [hlabel] at hunbroken
    exact hstill.kept (attach_kept h (hunbroken operation windowId paneId lines since hphase))
  | removed i heq =>
    obtain ⟨hbound, ⟨stream, hholds, -⟩, -, -⟩ := h
    rw [heq]
    exact ⟨hbound, ⟨stream, ⟨hholds.length, hholds.bytes⟩, nofun⟩, nofun, nofun⟩
  | heard paneId data heq =>
    rw [heq]
    exact output_kept h paneId data

theorem step_said (h : t.record.attached = true) (hstep : t.step name label = some t') :
    t'.record.attached = true ∧ t.said <+: t'.said := by
  cases step_change hstep with
  | still hstill =>
    rw [hstill.record, hstill.said]
    exact ⟨h, prefix_rfl⟩
  | attached i operation windowId paneId lines since _ _ hstill =>
    rw [hstill.record, hstill.said]
    refine ⟨rfl, ?_⟩
    unfold attach
    rw [h]
    exact prefix_rfl
  | removed i heq =>
    rw [heq]
    exact ⟨h, prefix_rfl⟩
  | heard paneId data heq =>
    rw [heq]
    unfold route
    dsimp only
    constructor
    · split
      · simpa using h
      · exact h
    · split
      · exact prefix_append _ _
      · exact prefix_rfl

def Runs (name : String) (trace : List (Terminal × Label)) (t : Terminal) : Prop :=
  Transition.Run (fun t label t' => t.step name label = some t') {} trace t

lemma start_kept : Kept {} where
  bound := Nat.zero_le _
  holds := ⟨[], ⟨rfl, [], rfl, rfl⟩, nofun⟩
  fresh := fun _ _ => ⟨rfl, rfl, rfl, rfl⟩
  routed := nofun

/-- Over every run no more than the bound is kept; and where no step breaks the stream the cursors read what the
terminal said, which is only added to. -/
theorem seamless_runs (name : String) (trace : List (Terminal × Label)) (t : Terminal) (h : Runs name trace t) :
    t.record.liveChunks.flatten.length ≤ liveRetainMaxBytes ∧
      ((∀ e ∈ trace, e.1.Unbroken e.2) →
        t.Seamless ∧ ∀ e ∈ trace, e.1.record.attached = true → e.1.said <+: t.said) := by
  constructor
  · have hstart : Bounded {} := ⟨Nat.zero_le _, [], rfl, [], rfl, rfl⟩
    have hbounded : t.Bounded := h.preserves hstart fun a label b ha hstep => step_bounded ha hstep
    obtain ⟨hbound, stream, hholds⟩ := hbounded
    exact hholds.length ▸ hbound
  · intro hunbroken
    have hkept : t.Kept := (Transition.Run.restrict_iff.mpr ⟨h, hunbroken⟩).preserves start_kept
      fun a label b ha hstep => step_kept ha hstep.2 hstep.1
    refine ⟨hkept.seamless, fun e he hattached => ?_⟩
    obtain ⟨rest, hrest⟩ := h.since he
    have hsaid := hrest.preserves (P := fun u => u.record.attached = true ∧ e.1.said <+: u.said)
      ⟨hattached, prefix_rfl⟩ fun a label b ha hstep => by
        obtain ⟨hattached', hgrows⟩ := step_said ha.1 hstep
        exact ⟨hattached', ha.2.trans hgrows⟩
    exact hsaid.2

/-- The reply to `list-panes`: one window with one pane. -/
def onePane : Label := .event (.reply (.ok ["@1 %1"]))

def attachedOnce : List Label :=
  [.begin 0 .open, onePane, .resume 0, .event (.reply (.ok [])), .resume 0, .event (.reply (.ok [])), .resume 0,
    .event (.output "%1" [65])]

/-- A step of a run in which the terminal is attached once, with nothing heard since the capture. -/
def calm (t : Terminal) : Label → Bool
  | .resume i =>
    match t.ops i with
    | .replied _ (.capturePane ..) _ since => !t.record.attached && since = []
    | _ => true
  | _ => true

lemma calm_unbroken (h : t.calm label = true) : t.Unbroken label := by
  cases label with
  | resume i =>
    intro operation windowId paneId lines since hphase _
    unfold calm at h
    dsimp only at h
    rw [hphase] at h
    simp only [Bool.and_eq_true, Bool.not_eq_true', decide_eq_true_eq] at h
    refine ⟨fun _ => h.2, fun hattached => ?_⟩
    rw [h.1] at hattached
    cases hattached
  | _ => trivial

theorem seamless_runs_once : ∃ trace t, Runs "s" trace t ∧ t.Seamless ∧ t.said = [65] := by
  let calmStep (t : Terminal) (label : Label) : Option Terminal :=
    if t.calm label then step t "s" label else none
  have hfold : attachedOnce.foldlM calmStep {} = some _ := rfl
  obtain ⟨trace, -, hcalm⟩ := Transition.Run.ofLabels hfold
  have hstep : ∀ t label u, calmStep t label = some u → step t "s" label = some u ∧ t.calm label = true := by
    intro t label u h
    by_cases hcalm : t.calm label = true
    · exact ⟨(if_pos hcalm).symm.trans h, hcalm⟩
    · have hnone : calmStep t label = none := if_neg hcalm
      rw [hnone] at h
      cases h
  have hrun : Runs "s" trace _ := hcalm.mono fun t label u h => (hstep t label u h).1
  have hunbroken : ∀ e ∈ trace, e.1.Unbroken e.2 := by
    intro e he
    obtain ⟨u, hu⟩ := hcalm.steps e he
    exact calm_unbroken (hstep e.1 e.2 u hu).2
  exact ⟨trace, _, hrun, ((seamless_runs "s" trace _ hrun).2 hunbroken).1, rfl⟩

/-- A second attach, under way when the first ended, brings the byte again in its replay. -/
theorem attached_twice_repeats : ¬ ∀ name trace t, Runs name trace t → t.Seamless := by
  intro hall
  let labels : List Label :=
    [.begin 0 .open, .begin 1 .open, onePane, onePane, .resume 0, .resume 1, .event (.reply (.ok [])),
      .event (.reply (.ok [])), .resume 0, .resume 1, .event (.reply (.ok [])), .resume 0,
      .event (.output "%1" [65]), .event (.reply (.ok ["A"])), .resume 1]
  have hfold : labels.foldlM (fun t label => step t "s" label) {} = some _ := rfl
  obtain ⟨trace, -, hrun⟩ := Transition.Run.ofLabels hfold
  have hread := (hall "s" trace _ hrun rfl rfl 0 (Nat.zero_le _)).cursor
  have hsnapshot : (snapshot ["A"]).length = 2 := by decide +kernel
  -- the cursor counts the replay and the byte, of which the terminal said only the byte
  have hends : (snapshot ["A"]).length + 0 + 1 = 1 := Cursor.minted.inj hread
  omega

end Terminal

end Pty

end OpenOmni
