import Mathlib
import OpenOmni.Ports.Alarm

/-! A watch: an alarm chain that wakes its session at each hit, and a companion chain that times it
out. Each handler is the tree of the commits and reads it waits for. -/
namespace OpenOmni
namespace Watch
open List

/-- The two alarm ids of a watch: `watchId` and `<watchId>:timeout`. -/
inductive Chain where
  | main | timeout
  deriving DecidableEq

/-- `Alarm.WatchSpec`, as far as the chains read it. -/
structure Spec where
  notificationLimit : ℕ
  positive : 0 < notificationLimit
  timeoutMs : Option ℕ

structure Hit where
  content : String
  terminal : Bool
  detail : String

inductive Reason where
  | fired | exhausted | timeout | install | create | sendRefused
  deriving DecidableEq

/-- An arm's payload: the spec with the budget spent, the watch of a companion, or why a chain is retired. -/
inductive Payload where
  | budget (notifications : ℕ)
  | watchId
  | reason (reason : Reason)
  deriving DecidableEq

/-- The input of an `ArmVerb`; without a time the arm retires the chain. -/
structure ArmInput where
  chain : Chain
  «at» : Option ℚ
  supersedes : Option ℕ
  payload : Payload

/-- A committed arm row. Its number in the session's journal is what its occurrence is minted from. -/
structure ArmRow where
  chain : Chain
  armSeq : ℕ
  «at» : Option ℚ
  payload : Payload

structure Armed where
  armSeq : ℕ
  fireAt : ℚ
  payload : Payload
  strikes : ℕ := 0
  deriving DecidableEq

/-- An occurrence as it is delivered: its arm's payload, and the hit a native source put beside it. -/
structure Occurrence where
  chain : Chain
  armSeq : ℕ
  payload : Payload
  hit : Option Hit := none

inductive Note where
  | hit (content detail : String)
  | timeout
  deriving DecidableEq

structure Wake where
  chain : Chain
  armSeq : ℕ
  note : Note

/-- What a handler still waits for, with its way on from each answer. -/
inductive Task (ρ : Type) where
  | done (result : ρ)
  | prompt (wake : Wake) (committed refused : Task ρ)
  | arm (input : ArmInput) (committed : ℕ → Task ρ) (refused : Task ρ)
  | latestArm (chain : Chain) (next : Option Armed → Task ρ)
  | install (installed refused : Task ρ)

/-- A refused arm or prompt fails the wake, which the core folds to `stale`. -/
def armOrStale (input : ArmInput) (next : Task FiredOutcome) : Task FiredOutcome :=
  .arm input (fun _ => next) (.done .stale)

def retire (supersedes : ℕ) (reason : Reason) (next : Task FiredOutcome) : Task FiredOutcome :=
  armOrStale ⟨.main, none, some supersedes, .reason reason⟩ next

def retireTimeoutCompanion (next : Task FiredOutcome) : Task FiredOutcome :=
  .latestArm .timeout fun companion =>
    match companion with
    | none => next
    | some companion => armOrStale ⟨.timeout, none, some companion.armSeq, .watchId⟩ next

/-- `monitorHit`: wake, then retire on a terminal hit, exhaust, or arm again with the budget spent. -/
def monitorHit (spec : Spec) (fired : Occurrence) (now : ℚ) : Task FiredOutcome :=
  match fired.payload, fired.hit with
  | .budget notifications, some hit =>
    .prompt ⟨.main, fired.armSeq, .hit hit.content hit.detail⟩
      (if hit.terminal then retire fired.armSeq .fired (retireTimeoutCompanion (.done .delivered))
      else if spec.notificationLimit ≤ notifications + 1 then
        retire fired.armSeq .exhausted (retireTimeoutCompanion (.done .exhausted))
      else armOrStale ⟨.main, some now, some fired.armSeq, .budget (notifications + 1)⟩ (.done .delivered))
      (.done .stale)
  | _, _ => .done .stale

/-- `monitorTimeout`: a settled main chain gets no prompt and no arm. -/
def monitorTimeout (fired : Occurrence) : Task FiredOutcome :=
  match fired.payload with
  | .watchId => .latestArm .main fun latest =>
    match latest with
    | none => .done .exhausted
    | some latest =>
      .prompt ⟨.timeout, fired.armSeq, .timeout⟩ (retire latest.armSeq .timeout (.done .delivered)) (.done .stale)
  | _ => .done .stale

inductive VerbResult where
  | created | refused
  deriving DecidableEq

/-- `retireCommitted` of the companion: its refusal is logged. -/
def compensateTimeout : Option ℕ → Task VerbResult
  | none => .done .refused
  | some timeout => .arm ⟨.timeout, none, some timeout, .watchId⟩ (fun _ => .done .refused) (.done .refused)

def compensate (main : ℕ) (timeout : Option ℕ) (reason : Reason) : Task VerbResult :=
  .arm ⟨.main, none, some main, .reason reason⟩ (fun _ => compensateTimeout timeout) (compensateTimeout timeout)

def installSource (main : ℕ) (timeout : Option ℕ) : Task VerbResult :=
  .install (.done .created) (compensate main timeout .install)

/-- `createWatchVerb` of a spec that parses. -/
def createWatchVerb (spec : Spec) (now : ℚ) : Task VerbResult :=
  .arm ⟨.main, some now, none, .budget 0⟩
    (fun main => match spec.timeoutMs with
      | none => installSource main none
      | some ms => .arm ⟨.timeout, some (now + ms), none, .watchId⟩
          (fun timeout => installSource main (some timeout)) (compensate main none .create))
    (.done .refused)

structure File where
  revision : ℕ := 0
  arms : List ArmRow := []
  armed : Chain → Option Armed := fun _ => none
  wakes : List Wake := []
  fired : List (Chain × ℕ × FiredOutcome) := []

namespace File

def commitArm (f : File) (input : ArmInput) : File := { f with
  revision := f.revision + 1
  arms := f.arms ++ [⟨input.chain, f.revision + 1, input.at, input.payload⟩]
  armed := Function.update f.armed input.chain
    (input.at.map fun fireAt => { armSeq := f.revision + 1, fireAt, payload := input.payload }) }

/-- `appendReceived` under the occurrence's message id: a prompt already there is that one or a conflict. -/
def prompt (f : File) (wake : Wake) (accepted : Bool) : Option File :=
  match f.wakes.find? fun known => known.chain = wake.chain && known.armSeq = wake.armSeq with
  | some known => if known.note = wake.note then some f else none
  | none => if accepted then some { f with revision := f.revision + 1, wakes := f.wakes ++ [wake] } else none

def without (armed : Chain → Option Armed) (chain : Chain) (armSeq : ℕ) : Chain → Option Armed :=
  Function.update armed chain ((armed chain).filter (·.armSeq ≠ armSeq))

/-- `appendFiredAlarm`: one row per occurrence and outcome. -/
def appendFired (f : File) (o : Occurrence) (outcome : FiredOutcome) : File :=
  if (o.chain, o.armSeq, outcome) ∈ f.fired then f
  else { f with
    revision := f.revision + 1
    fired := f.fired ++ [(o.chain, o.armSeq, outcome)]
    armed := without f.armed o.chain o.armSeq }

def settledOccurrence (f : File) (o : Occurrence) : Bool :=
  (o.chain, o.armSeq, .delivered) ∈ f.fired || (o.chain, o.armSeq, .exhausted) ∈ f.fired

/-- `alarmDisposition`: whether the occurrence runs. -/
def runs (f : File) (o : Occurrence) : Bool :=
  f.arms.any (fun row => row.chain = o.chain && row.armSeq = o.armSeq) &&
    ((f.armed o.chain).any fun row => row.armSeq = o.armSeq) && !f.settledOccurrence o

/-- `strikeArmedAlarm`. -/
def strike (f : File) (chain : Chain) : File := { f with
  armed := Function.update f.armed chain ((f.armed chain).map fun row => { row with strikes := row.strikes + 1 }) }

end File

/-- One step of a handler: its commit is accepted, or refused and nothing is written. -/
def Task.advance {ρ : Type} (f : File) (accepted : Bool) : Task ρ → File × Task ρ
  | .done result => (f, .done result)
  | .prompt wake committed refused => ((f.prompt wake accepted).map (·, committed)).getD (f, refused)
  | .arm input committed refused =>
    if accepted then (f.commitArm input, committed (f.revision + 1)) else (f, refused)
  | .latestArm chain next => (f, next (f.armed chain))
  | .install installed refused => (f, if accepted then installed else refused)

inductive Serving where
  | idle
  | alarm (o : Occurrence) (task : Task FiredOutcome)
  | verb (task : Task VerbResult)

structure System where
  file : File := {}
  serving : Serving := .idle
  created : Option VerbResult := none

inductive Event where
  | create (now : ℚ)
  | deliver (o : Occurrence) (capable : Bool) (now : ℚ)
  | advance (accepted : Bool)
  | crash
  | sendRefused (chain : Chain)
  | other

/-- The payload beside a hit is the one its occurrence was armed with. -/
def File.carries (f : File) (o : Occurrence) : Bool :=
  f.arms.all fun row => !(row.chain = o.chain && row.armSeq = o.armSeq) || row.payload = o.payload

/-- `capabilityWake`, of a capability that has the purpose or has not. -/
def wake (spec : Spec) (o : Occurrence) (capable : Bool) (now : ℚ) : Task FiredOutcome :=
  if capable then
    match o.chain with
    | .main => monitorHit spec o now
    | .timeout => monitorTimeout o
  else .done .stale

/-- `alarmOccurrence`: the guard, the strike, and the wake. -/
def alarmOccurrence (spec : Spec) (f : File) (o : Occurrence) (capable : Bool) (now : ℚ) : File × Task FiredOutcome :=
  if f.runs o then
    let struck := f.strike o.chain
    if (struck.armed o.chain).any fun row => maxOccurrenceStrikes ≤ row.strikes then (struck, .done .exhausted)
    else (struck, wake spec o capable now)
  else (f, .done .stale)

def System.step (spec : Spec) (s : System) : Event → Option System
  | .create now =>
    match s.serving with
    | .idle => if s.file.arms = [] then some { s with serving := .verb (createWatchVerb spec now) } else none
    | _ => none
  | .deliver o capable now =>
    match s.serving with
    | .idle =>
      if s.file.carries o then
        let begun := alarmOccurrence spec s.file o capable now
        some { s with file := begun.1, serving := .alarm o begun.2 }
      else none
    | _ => none
  | .advance accepted =>
    match s.serving with
    | .idle => none
    | .alarm o (.done outcome) => some { s with file := s.file.appendFired o outcome, serving := .idle }
    | .alarm o task =>
      let next := task.advance s.file accepted
      some { s with file := next.1, serving := .alarm o next.2 }
    | .verb (.done result) => some { s with serving := .idle, created := some result }
    | .verb task =>
      let next := task.advance s.file accepted
      some { s with file := next.1, serving := .verb next.2 }
  | .crash => some { s with serving := .idle }
  -- the forwarder retires what cannot be sent, in a fiber of its own
  | .sendRefused chain =>
    (s.file.armed chain).map fun row =>
      { s with file := s.file.commitArm ⟨chain, none, some row.armSeq, .reason .sendRefused⟩ }
  | .other => some { s with file := { s.file with revision := s.file.revision + 1 } }

def System.Step (spec : Spec) (s : System) (event : Event) (t : System) : Prop := s.step spec event = some t

def ArmRow.mints (row : ArmRow) : Bool := row.chain = .main && row.at.isSome

def mints (f : File) : List ArmRow := f.arms.filter ArmRow.mints

def timedArms (f : File) : List ArmRow := f.arms.filter fun row => row.at.isSome

def hitWakes (f : File) : List Wake := f.wakes.filter fun wake => wake.chain = .main

/-- The chain was settled: a handler or the verb's compensation retired it. -/
def Settled (f : File) : Prop :=
  ∃ row ∈ f.arms, row.chain = .main ∧ row.at = none ∧ row.payload ≠ .reason .sendRefused

/-- The books: the budgets count the arms, the wakes are those of the arms but at most the last, and
what is armed is the last arm. -/
structure Books (limit : ℕ) (f : File) : Prop where
  budgets : ∀ (i : ℕ) (row : ArmRow), (mints f)[i]? = some row → row.payload = .budget i
  ordered : (mints f).Pairwise fun a b => a.armSeq < b.armSeq
  bounded : ∀ row ∈ f.arms, row.armSeq ≤ f.revision
  short : (mints f).length ≤ limit
  wakes : ∃ m, m ≤ (mints f).length ∧ (mints f).length ≤ m + 1 ∧
    (hitWakes f).map (·.armSeq) = ((mints f).map (·.armSeq)).take m
  armed : ∀ row, f.armed .main = some row →
    ∃ last, (mints f).getLast? = some last ∧ row.armSeq = last.armSeq ∧ row.payload = last.payload

lemma Books.empty (limit : ℕ) : Books limit {} where
  budgets := nofun
  ordered := List.Pairwise.nil
  bounded := nofun
  short := Nat.zero_le limit
  wakes := ⟨0, le_rfl, Nat.zero_le 1, rfl⟩
  armed := nofun

variable {limit : ℕ} {f : File}

variable {f' : File} {input : ArmInput} {wake : Wake} {accepted : Bool} {front : List ArmRow} {last : ArmRow}

lemma Books.of_same (h : Books limit f) (hmints : mints f' = mints f) (hwakes : hitWakes f' = hitWakes f)
    (hbounded : ∀ row ∈ f'.arms, row.armSeq ≤ f'.revision)
    (harmed : ∀ row, f'.armed .main = some row →
      ∃ known, f.armed .main = some known ∧ row.armSeq = known.armSeq ∧ row.payload = known.payload) :
    Books limit f' where
  budgets := by rw [hmints]; exact h.budgets
  ordered := by rw [hmints]; exact h.ordered
  bounded := hbounded
  short := by rw [hmints]; exact h.short
  wakes := by rw [hmints, hwakes]; exact h.wakes
  armed := by
    intro row hrow
    obtain ⟨known, hknown, hseq, hpayload⟩ := harmed row hrow
    obtain ⟨last, hlast, hseq', hpayload'⟩ := h.armed known hknown
    rw [hmints]
    exact ⟨last, hlast, hseq.trans hseq', hpayload.trans hpayload'⟩

lemma mints_commitArm (f : File) (input : ArmInput) :
    mints (f.commitArm input) = mints f ++
      (if input.chain = .main ∧ input.at.isSome = true then [⟨input.chain, f.revision + 1, input.at, input.payload⟩] else []) := by
  unfold mints File.commitArm
  dsimp only
  rw [filter_append]
  congr 1
  by_cases hmint : input.chain = .main ∧ input.at.isSome = true
  · rw [if_pos hmint, filter_cons_of_pos]
    · rfl
    · simp [ArmRow.mints, hmint]
  · rw [if_neg hmint, filter_cons_of_neg]
    · rfl
    · simpa [ArmRow.mints] using hmint

lemma bounded_commitArm (h : Books limit f) (input : ArmInput) :
    ∀ row ∈ (f.commitArm input).arms, row.armSeq ≤ (f.commitArm input).revision := by
  intro row hrow
  rcases mem_append.mp hrow with hrow | hrow
  · exact (h.bounded row hrow).trans (Nat.le_succ _)
  · rw [mem_singleton.mp hrow]
    exact le_rfl

lemma Books.commit_aside (h : Books limit f) (haside : input.chain = .main → input.at = none) :
    Books limit (f.commitArm input) := by
  have hmints : mints (f.commitArm input) = mints f := by
    rw [mints_commitArm, if_neg, append_nil]
    rintro ⟨hmain, htimed⟩
    rw [haside hmain] at htimed
    cases htimed
  refine h.of_same hmints rfl (bounded_commitArm h input) fun row hrow => ?_
  cases hchain : input.chain with
  | main =>
    have hnone : (f.commitArm input).armed .main = none := by
      simp [File.commitArm, hchain, haside hchain]
    rw [hnone] at hrow
    cases hrow
  | timeout =>
    have hsame : (f.commitArm input).armed .main = f.armed .main := by
      simp [File.commitArm, hchain]
    exact ⟨row, hsame ▸ hrow, rfl, rfl⟩

lemma armed_without {armed : Chain → Option Armed} {chain : Chain} {armSeq : ℕ} {row : Armed}
    (h : File.without armed chain armSeq .main = some row) : armed .main = some row := by
  unfold File.without at h
  cases chain with
  | main =>
    rw [Function.update_self] at h
    exact (Option.filter_eq_some_iff.mp h).1
  | timeout => rwa [Function.update_of_ne (by decide)] at h

lemma Books.appendFired (h : Books limit f) (o : Occurrence) (outcome : FiredOutcome) :
    Books limit (f.appendFired o outcome) := by
  unfold File.appendFired
  split
  · exact h
  · exact h.of_same rfl rfl (fun row hrow => (h.bounded row hrow).trans (Nat.le_succ _))
      fun row hrow => ⟨row, armed_without hrow, rfl, rfl⟩

lemma Books.strike (h : Books limit f) (chain : Chain) : Books limit (f.strike chain) := by
  refine h.of_same rfl rfl h.bounded fun row hrow => ?_
  cases chain with
  | main =>
    simp only [File.strike, Function.update_self] at hrow
    obtain ⟨known, hknown, rfl⟩ := Option.map_eq_some_iff.mp hrow
    exact ⟨known, hknown, rfl, rfl⟩
  | timeout =>
    simp only [File.strike, Function.update_of_ne (show Chain.main ≠ .timeout by decide)] at hrow
    exact ⟨row, hrow, rfl, rfl⟩

lemma Books.other (h : Books limit f) : Books limit { f with revision := f.revision + 1 } :=
  h.of_same rfl rfl (fun row hrow => (h.bounded row hrow).trans (Nat.le_succ _)) fun row hrow => ⟨row, hrow, rfl, rfl⟩

lemma prompt_cases {f : File} (h : f.prompt wake accepted = some f') :
    f' = f ∧ (∃ known ∈ f.wakes, known.chain = wake.chain ∧ known.armSeq = wake.armSeq) ∨
      (∀ known ∈ f.wakes, known.chain = wake.chain → known.armSeq ≠ wake.armSeq) ∧
        f' = { f with revision := f.revision + 1, wakes := f.wakes ++ [wake] } := by
  unfold File.prompt at h
  cases hfind : f.wakes.find? fun known => known.chain = wake.chain && known.armSeq = wake.armSeq with
  | some known =>
    rw [hfind] at h
    dsimp only at h
    split_ifs at h
    have hmatch := find?_some hfind
    simp only [Bool.and_eq_true, decide_eq_true_eq] at hmatch
    exact .inl ⟨(Option.some.inj h).symm, known, mem_of_find?_eq_some hfind, hmatch⟩
  | none =>
    rw [hfind] at h
    dsimp only at h
    split_ifs at h
    refine .inr ⟨fun known hknown hchain hseq => ?_, (Option.some.inj h).symm⟩
    have hnone := find?_eq_none.mp hfind known hknown
    simp [hchain, hseq] at hnone

section
variable (h : Books limit f)
include h

lemma Books.prompt_timeout (hchain : wake.chain = .timeout)
    (hprompt : f.prompt wake accepted = some f') : Books limit f' := by
  rcases prompt_cases hprompt with ⟨rfl, -⟩ | ⟨-, rfl⟩
  · exact h
  · refine h.of_same rfl ?_ (fun row hrow => (h.bounded row hrow).trans (Nat.le_succ _)) fun row hrow => ⟨row, hrow, rfl, rfl⟩
    unfold hitWakes
    rw [filter_append, filter_cons_of_neg (by simp [hchain]), filter_nil, append_nil]

lemma Books.last_fresh (hmints : mints f = front ++ [last]) :
    last.armSeq ∉ front.map (·.armSeq) := by
  intro hmem
  obtain ⟨row, hrow, hseq⟩ := mem_map.mp hmem
  have hordered := h.ordered
  rw [hmints, pairwise_append] at hordered
  have hlt := hordered.2.2 row hrow last (mem_singleton.mpr rfl)
  omega

lemma Books.wakes_cases (hmints : mints f = front ++ [last]) :
    (hitWakes f).map (·.armSeq) = front.map (·.armSeq) ∨
      (hitWakes f).map (·.armSeq) = (mints f).map (·.armSeq) := by
  obtain ⟨m, hle, hge, hwakes⟩ := h.wakes
  rw [hmints, length_append, length_singleton] at hle hge
  rcases Nat.lt_or_ge m (front.length + 1) with hlt | hfull
  · have hm : m = (front.map (·.armSeq)).length := by rw [length_map]; omega
    refine .inl ?_
    rw [hwakes, hmints, map_append, hm, take_left]
  · refine .inr ?_
    rw [hwakes, take_of_length_le]
    rw [length_map, hmints, length_append, length_singleton]
    omega

lemma Books.prompt_main (hlast : (mints f).getLast? = some last) (hchain : wake.chain = .main)
    (hseq : wake.armSeq = last.armSeq) (hprompt : f.prompt wake accepted = some f') :
    Books limit f' ∧ mints f' = mints f ∧ (hitWakes f').map (·.armSeq) = (mints f').map (·.armSeq) := by
  obtain ⟨front, hmints⟩ := getLast?_eq_some_iff.mp hlast
  rcases prompt_cases hprompt with ⟨rfl, known, hknown, hknownChain, hknownSeq⟩ | ⟨hnone, rfl⟩
  · refine ⟨h, rfl, (h.wakes_cases hmints).resolve_left fun hfront => h.last_fresh hmints ?_⟩
    rw [← hfront, ← hseq, ← hknownSeq]
    exact mem_map_of_mem (mem_filter.mpr ⟨hknown, by simp [hknownChain, hchain]⟩)
  · have hnew : hitWakes { f with revision := f.revision + 1, wakes := f.wakes ++ [wake] } = hitWakes f ++ [wake] := by
      unfold hitWakes
      rw [filter_append, filter_cons_of_pos (by simp [hchain]), filter_nil]
    have hall : (hitWakes { f with revision := f.revision + 1, wakes := f.wakes ++ [wake] }).map (·.armSeq) =
        (mints f).map (·.armSeq) := by
      have hfront := (h.wakes_cases hmints).resolve_right fun hfull => by
        have hmem : last.armSeq ∈ (hitWakes f).map (·.armSeq) := by
          rw [hfull, hmints]
          simp
        obtain ⟨known, hknown, hknownSeq⟩ := mem_map.mp hmem
        obtain ⟨hin, hmain⟩ := mem_filter.mp hknown
        exact hnone known hin ((of_decide_eq_true hmain).trans hchain.symm) (hknownSeq.trans hseq.symm)
      rw [hnew, map_append, hfront, hmints, map_append, map_singleton, map_singleton, hseq]
    refine ⟨⟨h.budgets, h.ordered, fun row hrow => (h.bounded row hrow).trans (Nat.le_succ _), h.short,
      ⟨(mints f).length, le_rfl, Nat.le_succ _, ?_⟩, h.armed⟩, rfl, hall⟩
    rw [hall]
    exact (take_of_length_le (by rw [length_map])).symm

lemma Books.mint (hchain : input.chain = .main) (htimed : input.at.isSome = true)
    (hpayload : input.payload = .budget (mints f).length) (hshort : (mints f).length < limit)
    (hwakes : (hitWakes f).map (·.armSeq) = (mints f).map (·.armSeq)) : Books limit (f.commitArm input) := by
  have hmints : mints (f.commitArm input) = mints f ++ [⟨input.chain, f.revision + 1, input.at, input.payload⟩] := by
    rw [mints_commitArm, if_pos ⟨hchain, htimed⟩]
  have hlength : (mints (f.commitArm input)).length = (mints f).length + 1 := by
    rw [hmints, length_append, length_singleton]
  refine ⟨?_, ?_, bounded_commitArm h input, by omega, ⟨(mints f).length, by omega, by omega, ?_⟩, ?_⟩
  · intro i row hrow
    rw [hmints] at hrow
    rcases Nat.lt_or_ge i (mints f).length with hlt | hge
    · rw [getElem?_append_left hlt] at hrow
      exact h.budgets i row hrow
    · rw [getElem?_append_right hge] at hrow
      have hi : i - (mints f).length < 1 := by
        obtain ⟨hlt, -⟩ := List.getElem?_eq_some_iff.mp hrow
        simpa using hlt
      obtain rfl : i = (mints f).length := by omega
      rw [Nat.sub_self] at hrow
      cases hrow
      exact hpayload
  · rw [hmints, pairwise_append]
    refine ⟨h.ordered, pairwise_singleton _ _, fun a ha b hb => ?_⟩
    rw [mem_singleton.mp hb]
    exact Nat.lt_succ_of_le (h.bounded a (mem_filter.mp ha).1)
  · have hsame : hitWakes (f.commitArm input) = hitWakes f := rfl
    rw [hsame, hwakes, hmints, map_append]
    have hlen : (mints f).length = ((mints f).map (·.armSeq)).length := (length_map _).symm
    rw [hlen, take_left]
  · intro row hrow
    refine ⟨_, by rw [hmints]; exact getLast?_concat, ?_⟩
    simp only [File.commitArm, hchain, Function.update_self] at hrow
    obtain ⟨fireAt, -, rfl⟩ := Option.map_eq_some_iff.mp hrow
    exact ⟨rfl, rfl⟩

end

end Watch
end OpenOmni
