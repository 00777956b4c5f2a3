import OpenOmni.Session.ActivationFence
import OpenOmni.Session.RequestFold

/-! The catalog's hint of armed alarms, kept by the separate steps of concurrent `commitIn` calls. -/
namespace OpenOmni
open List

open Transition PlainValue

section
variable [PlainCoding]

def armedDeltas (actions : List Append) : List ArmedAlarmDelta := actions.filterMap armedAlarmDelta

def ArmedAlarmDelta.isUpsert : ArmedAlarmDelta → Bool
  | .upsert .. => true
  | _ => false

def markArming (catalog : Catalog) (input : Commit) : Except CatalogRefusal Catalog :=
  if (armedDeltas input.actions).any (·.isUpsert) then catalog.markArmed input.sessionId true
  else .ok catalog

def markRequesting (catalog : Catalog) (input : Commit) : Except CatalogRefusal Catalog :=
  if input.actions.any (·.kind = .request) then catalog.markRequests input.sessionId else .ok catalog

/-- What `commitIn` marks in the catalog before it commits. -/
def markBatch (catalog : Catalog) (input : Commit) : Except CatalogRefusal Catalog :=
  (markArming catalog input).bind (markRequesting · input)

/-- How far a call of `commitIn` has come. -/
inductive HintStage where
  | marked
  | committed
  | counted (count : ℕ)
deriving DecidableEq

structure HintCall where
  input : Commit
  stage : HintStage
deriving DecidableEq

structure HintSystem where
  catalog : Catalog := {}
  file : Db := {}
  calls : List HintCall := []

inductive HintEvent where
  | mark (input : Commit)
  | commit (call : HintCall)
  | refuse (call : HintCall)
  | count (call : HintCall)
  | clear (call : HintCall)
  | crash (call : HintCall)

def HintSystem.leave (s : HintSystem) (call : HintCall) : HintSystem :=
  { s with calls := s.calls.erase call }

def HintSystem.advance (s : HintSystem) (call : HintCall) (stage : HintStage) : HintSystem :=
  { s with calls := { call with stage } :: s.calls.erase call }

/-- One step of one call, or its end by a crash. A call whose batch touches no alarm does not count. -/
inductive HintSystem.Step (cap : ℕ) (sessionId : String) (s : HintSystem) :
    HintEvent → HintSystem → Prop where
  | mark (input : Commit) (catalog : Catalog) (hsession : input.sessionId = sessionId)
      (hmarked : markBatch s.catalog input = .ok catalog) :
      Step cap sessionId s (.mark input)
        { s with catalog, calls := ⟨input, .marked⟩ :: s.calls }
  | commit (call : HintCall) (hmem : call ∈ s.calls) (hstage : call.stage = .marked)
      (hcommitted : refused (write cap (.commit call.input) s.file).1 = false) :
      Step cap sessionId s (.commit call)
        { s.advance call .committed with file := (write cap (.commit call.input) s.file).2 }
  | refuse (call : HintCall) (hmem : call ∈ s.calls) (hstage : call.stage = .marked)
      (hrefused : refused (write cap (.commit call.input) s.file).1 = true) :
      Step cap sessionId s (.refuse call) (s.leave call)
  | count (call : HintCall) (hmem : call ∈ s.calls) (hstage : call.stage = .committed)
      (htouched : armedDeltas call.input.actions ≠ []) :
      Step cap sessionId s (.count call) (s.advance call (.counted s.file.armed.length))
  | clear (call : HintCall) (catalog : Catalog) (hmem : call ∈ s.calls)
      (hstage : call.stage = .counted 0)
      (hcleared : s.catalog.markArmed sessionId false = .ok catalog) :
      Step cap sessionId s (.clear call) { s.leave call with catalog }
  | crash (call : HintCall) (hmem : call ∈ s.calls) : Step cap sessionId s (.crash call) (s.leave call)

def HintKept (sessionId : String) (s : HintSystem) : Prop :=
  s.file.armed ≠ [] → s.catalog.armedHint sessionId = true

def leavesNothingArmed (actions : List Append) : Prop := actions.foldlM applyDelta [] = .ok []

/-- What keeps the hint, step by step: no clear of another call comes between a mark and its commit,
and no arming commit between a count and its clear. -/
def HintEvent.Unraced (sessionId : String) (s : HintSystem) : HintEvent → Prop
  | .commit call => s.catalog.armedHint sessionId = true ∨ leavesNothingArmed call.input.actions
  | .clear _ => s.file.armed = []
  | _ => True

end

namespace Catalog

variable {catalog catalog' : Catalog} {id : String}

lemma armedHint_update {set : SessionIndexRow → SessionIndexRow} (hset : ∀ row, (set row).id = row.id)
    (harmed : ∀ row, (set row).hasArmed = row.hasArmed) (other : String) :
    (catalog.update id set).armedHint other = catalog.armedHint other := by
  rw [armedHint, sessionIndex_update hset, armedHint]
  cases catalog.sessionIndex other with
  | none => rfl
  | some row =>
    by_cases hid : row.id = id
    · simp [hid, harmed]
    · simp [hid]

lemma markRequests_armedHint (h : catalog.markRequests id = .ok catalog') (other : String) :
    catalog'.armedHint other = catalog.armedHint other := by
  unfold markRequests at h
  cases hnewer : catalog.refuseNewerSchema .markRequests with
  | error refusal => simp [hnewer, bind, Except.bind] at h
  | ok u =>
    simp only [hnewer, bind, Except.bind, pure, Except.pure, Except.ok.injEq] at h
    obtain rfl := h
    have hset : ∀ row : SessionIndexRow, { row with hasRequests := true }.id = row.id := fun _ => rfl
    exact armedHint_update hset (fun _ => rfl) other

theorem markArmed_armedHint {armed : Bool} (h : catalog.markArmed id armed = .ok catalog') :
    catalog'.armedHint id = ((catalog.sessionIndex id).isSome && armed) := by
  unfold markArmed at h
  cases hnewer : catalog.refuseNewerSchema .markArmed with
  | error refusal => simp [hnewer, bind, Except.bind] at h
  | ok u =>
    simp only [hnewer, bind, Except.bind, pure, Except.pure, Except.ok.injEq] at h
    obtain rfl := h
    have hset : ∀ row : SessionIndexRow, { row with hasArmed := armed }.id = row.id := fun _ => rfl
    rw [armedHint, sessionIndex_update hset]
    cases hindex : catalog.sessionIndex id with
    | none => rfl
    | some row => simp [sessionIndex_id hindex]

end Catalog

lemma Catalog.armedHint_indexed {catalog : Catalog} {id : String} (h : catalog.armedHint id = true) :
    (catalog.sessionIndex id).isSome = true := by
  rw [armedHint] at h
  cases hindex : catalog.sessionIndex id with
  | none => simp [hindex] at h
  | some row => rfl

theorem markBatch_armedHint {catalog catalog' : Catalog} {input : Commit}
    (h : markBatch catalog input = .ok catalog')
    (hhint : catalog.armedHint input.sessionId = true) :
    catalog'.armedHint input.sessionId = true := by
  unfold markBatch at h
  cases hmarked : markArming catalog input with
  | error refusal => simp [hmarked, Except.bind] at h
  | ok marked =>
    have hset : marked.armedHint input.sessionId = true := by
      unfold markArming at hmarked
      split at hmarked
      · rw [Catalog.markArmed_armedHint hmarked, Catalog.armedHint_indexed hhint]
        rfl
      · cases hmarked
        exact hhint
    simp only [hmarked, Except.bind] at h
    unfold markRequesting at h
    split at h
    · rw [Catalog.markRequests_armedHint h]
      exact hset
    · cases h
      exact hset

section
variable [PlainCoding] {cap : ℕ} {sessionId : String} {s t : HintSystem} {event : HintEvent}

theorem HintSystem.Step.hintKept_iff (hstep : HintSystem.Step cap sessionId s event t)
    (hkept : HintKept sessionId s) : event.Unraced sessionId s ↔ HintKept sessionId t := by
  cases hstep with
  | mark input catalog hsession hmarked =>
    subst hsession
    exact iff_of_true trivial fun harmed => markBatch_armedHint hmarked (hkept harmed)
  | commit call hmem hstage hcommitted =>
    have hwrote := (write_commit_wrote hcommitted).armed
    constructor
    · rintro (hhint | hnothing) harmed
      · exact hhint
      · by_cases hbefore : s.file.armed = []
        · rw [hbefore] at hwrote
          have hsame := hnothing.symm.trans hwrote
          exact absurd (Except.ok.inj hsame).symm harmed
        · exact hkept hbefore
    · intro hafter
      by_cases hhint : s.catalog.armedHint sessionId = true
      · exact .inl hhint
      · right
        have hbefore : s.file.armed = [] := by
          by_contra hne
          exact hhint (hkept hne)
        have hempty : (write cap (.commit call.input) s.file).2.armed = [] := by
          by_contra hne
          exact hhint (hafter hne)
        rw [hbefore, hempty] at hwrote
        exact hwrote
  | refuse call hmem hstage hrefused | count call hmem hstage htouched | crash call hmem => exact iff_of_true trivial hkept
  | clear call catalog hmem hstage hcleared =>
    have hfalse : catalog.armedHint sessionId = false := by
      rw [Catalog.markArmed_armedHint hcleared, Bool.and_false]
    constructor
    · intro hempty harmed
      exact absurd hempty harmed
    · intro hafter
      by_contra hne
      have htrue : catalog.armedHint sessionId = true := hafter hne
      rw [hfalse] at htrue
      contradiction

/-- Along a run of commits from any state that keeps it, the hint is kept exactly when no step is
raced. -/
theorem armed_hint_kept (cap : ℕ) (sessionId : String) (start : HintSystem)
    (hstart : HintKept sessionId start) (trace : List (HintSystem × HintEvent)) (s : HintSystem)
    (h : Run (HintSystem.Step cap sessionId) start trace s) :
    (∀ e ∈ trace, HintEvent.Unraced sessionId e.1 e.2) ↔
      (∀ e ∈ trace, HintKept sessionId e.1) ∧ HintKept sessionId s :=
  h.forall_iff hstart fun _ _ _ hkept hstep => hstep.hintKept_iff hkept

end

namespace HintSample

attribute [local instance] textCoding

/-- A batch of one arm of the alarm `x`, which `none` retires. -/
def batch (armSeq revision : ℕ) (due : Option ℚ) : Commit where
  sessionId := "s"
  owner := "a"
  fence := 1
  now := 0
  expectedRevision := revision
  actions := [armAction {
    parentId := none, sessionId := "s", purpose := "retry", «at» := due, supersedes := none,
    alarmId := "x", sourceKey := "x", payload := .null, armSeq, ts := 0 }]
  state := .idle

def start : HintSystem where
  catalog := { rows := [{ id := "s" }] }
  file := FenceSample.activated.file

def armed : HintSystem where
  catalog := { rows := [{ id := "s", hasArmed := true }] }
  file := (write 1000000 (.commit (batch 1 1 (some 5))) FenceSample.activated.file).2
  calls := [⟨batch 1 1 (some 5), .committed⟩]

lemma armed_run : ∃ trace, Run (HintSystem.Step 1000000 "s") start trace armed ∧
    ∀ e ∈ trace, HintEvent.Unraced "s" e.1 e.2 := by
  have hmarked : Run (HintSystem.Step 1000000 "s") start _
      { start with
        catalog := { rows := [{ id := "s", hasArmed := true }] }
        calls := [⟨batch 1 1 (some 5), .marked⟩] } :=
    Run.nil.snoc (.mark (batch 1 1 (some 5)) _ rfl (by decide))
  have hrun : Run (HintSystem.Step 1000000 "s") start _ armed :=
    hmarked.snoc (.commit ⟨batch 1 1 (some 5), .marked⟩ mem_cons_self rfl (by decide))
  refine ⟨_, hrun, ?_⟩
  simp only [nil_append, mem_append, mem_cons, not_mem_nil, or_false, or_imp, forall_and,
    forall_eq]
  exact ⟨trivial, .inl rfl⟩

theorem armed_hint_kept_armed : HintKept "s" armed := by
  obtain ⟨trace, hrun, hunraced⟩ := armed_run
  exact ((armed_hint_kept 1000000 "s" start (fun h => absurd (by decide) h) trace armed
    hrun).mp hunraced).2

/-- One batch retires and counts, another marks and arms, and the first clears the mark. -/
theorem clear_races_arm : ∃ trace s, Run (HintSystem.Step 1000000 "s") start trace s ∧
    HintKept "s" start ∧ ¬ HintKept "s" s := by
  have hretiring : Run (HintSystem.Step 1000000 "s") start _ _ :=
    Run.nil.snoc (.mark (batch 1 1 none) { rows := [{ id := "s" }] } rfl (by decide))
  have hretired := hretiring.snoc
    (.commit ⟨batch 1 1 none, .marked⟩ mem_cons_self rfl (by decide))
  have hcounted := hretired.snoc
    (.count ⟨batch 1 1 none, .committed⟩ mem_cons_self rfl (by decide))
  have hmarked := hcounted.snoc (.mark (batch 2 2 (some 5)) { rows := [{ id := "s", hasArmed := true }] } rfl
    (by decide))
  have hcommitted := hmarked.snoc
    (.commit ⟨batch 2 2 (some 5), .marked⟩ mem_cons_self rfl (by decide))
  have hcleared := hcommitted.snoc (.clear ⟨batch 1 1 none, .counted 0⟩ { rows := [{ id := "s" }] }
    (by decide) rfl (by decide))
  refine ⟨_, _, hcleared, fun h => absurd (by decide) h, fun hkept => ?_⟩
  have hhint := hkept (by decide)
  contradiction

end HintSample

end OpenOmni
