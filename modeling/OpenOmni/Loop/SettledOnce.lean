import Mathlib
import OpenOmni.Loop.RecoveryRun

/-! Recovery over any number of lost processes: every open operation is settled once, unless one is hidden. -/
namespace OpenOmni
open List

open PlainValue Cutoff

/-- What keeps recovery from an operation: a policy decision under it passes for its result, or an attempt
of it was interrupted. -/
def Hidden (rows : List Node) (c : Node) : Prop :=
  (∃ r ∈ rows, r.kind = .policyDecision ∧ r.parentId = some c.id) ∨
    c.kind = .llm ∧ ∃ b ∈ rows, attemptOf c b ∧
      ∃ r ∈ operationResults rows b, extractIs r.effect "terminal" "interrupted"

instance (rows : List Node) (c : Node) : Decidable (Hidden rows c) :=
  inferInstanceAs (Decidable (_ ∨ _ ∧ _))

lemma Hidden.concat {rows : List Node} {c n : Node} (h : Hidden rows c) : Hidden (rows ++ [n]) c := by
  rcases h with ⟨r, hr, hdecision⟩ | ⟨hllm, b, hb, hattempt, r, hr, hinterrupted⟩
  · exact Or.inl ⟨r, mem_append_left _ hr, hdecision⟩
  · refine Or.inr ⟨hllm, b, mem_append_left _ hb, hattempt, r, ?_, hinterrupted⟩
    rw [operationResults_concat]
    exact mem_append_left _ hr

def longIds (rows : List Node) (m : ℕ) : String :=
  String.ofList (List.replicate ((rows.map (·.id.length)).sum + m + 1) 'x')

variable [PlainCoding]

section
variable {turnId : String} {rows : List Node} {c : Node}

end

section
variable {turnId : String} {rows rows' rows'' : List Node} {c : Node}

section
variable (h : Settling turnId rows rows')
include h

lemma Settling.trans (h' : Settling turnId rows' rows'') :
    Settling turnId rows rows'' := by
  induction h' with
  | nil => exact h
  | snoc _ hstep ih => exact .snoc ih hstep

lemma Settling.leaves (hrows : Leaves turnId rows) : Leaves turnId rows' := by
  induction h with
  | nil => exact hrows
  | snoc _ hstep ih => exact hstep.leaves ih

lemma Settling.mem (hc : c ∈ rows) : c ∈ rows' := by
  induction h with
  | nil => exact hc
  | snoc _ _ ih => exact mem_append_left _ ih

lemma Settling.turnOperation_eq (c : Node) :
    turnOperation rows' turnId c = turnOperation rows turnId c := by
  induction h with
  | nil => rfl
  | snoc _ hstep ih => rw [hstep.turnOperation_eq, ih]

lemma Settling.inGuardedWave_eq (c : Node) :
    inGuardedWave rows' c = inGuardedWave rows c := by
  induction h with
  | nil => rfl
  | snoc _ hstep ih => rw [hstep.inGuardedWave_eq, ih]

lemma Settling.clear (hrows : Leaves turnId rows) (hclear : Clear turnId rows) :
    Clear turnId rows' := by
  induction h with
  | nil => exact hclear
  | snoc hbefore hstep ih => exact hstep.clear (hbefore.leaves hrows).written.ledger ih

theorem Settling.attempts (hrows : Leaves turnId rows) (hc : c ∈ rows)
    (hop : turnOperation rows turnId c) (hllm : c.kind = .llm) (hnone : operationResults rows c = [])
    (hsome : operationResults rows' c ≠ []) : ∀ b ∈ rows', attemptOf c b → AttemptDone rows' b := by
  induction h with
  | nil => exact absurd hnone hsome
  | @snoc mid row hbefore hstep ih =>
    have hleaves := hbefore.leaves hrows
    have hledger := hleaves.written.ledger
    have hmem := hbefore.mem hc
    intro b hb hattempt
    have hbmem := hstep.mem_of_intent hb hattempt.2.2
    refine hstep.attemptDone hledger hbmem ?_
    by_cases hdone : operationResults mid c = []
    · -- this commit is the operation's own result
      obtain ⟨p, hp, hsubject, -⟩ := hstep.result
      rw [hp.operationResults_eq hledger.ids hmem, hdone, nil_append] at hsome
      have heq : c = p := by
        by_contra hne
        simp [hne] at hsome
      subst heq
      cases hsubject with
      | operation _ hattempts => exact hattempts hllm b hbmem hattempt
      | attempt q hq _ hkind hunder =>
        have hop' := hbefore.turnOperation_eq c ▸ hop
        rw [hleaves.not_operation hmem ⟨hunder.2.1, hunder.2.2, q, hq, hunder.1, hkind⟩] at hop'
        cases hop'
    · exact ih hdone b hbmem hattempt

lemma Settling.honest {r : Node} (hr : r ∈ rows') (hnew : r ∉ rows)
    (hexecuted : extractIs r.effect "terminal" "executed") : HasBoundary rows' r.parentId := by
  induction h with
  | nil => exact absurd hr hnew
  | snoc _ hstep ih =>
    have hgrown : ∀ {parentId : Option String} {mid : List Node} {n : Node}, HasBoundary mid parentId →
        HasBoundary (mid ++ [n]) parentId := by
      rintro parentId mid n ⟨id, hid, b, hb, hrow⟩
      exact ⟨id, hid, b, mem_append_left _ hb, hrow⟩
    rcases mem_append.mp hr with hr | hr
    · exact hgrown (ih hr)
    · obtain rfl := mem_singleton.mp hr
      exact hgrown (hstep.honest hexecuted)

end

/-- A turn is recovered by a run that comes back, after any number that are cut off. -/
inductive Recovered (turnId : String) : List Node → List Node → Prop where
  | done {scope : RecoveryScope} {log log' : Log} (hturn : scope.turnId = turnId)
      (hrun : recover scope log = .ok ((), log')) : Recovered turnId log.rows log'.rows
  | cut {scope : RecoveryScope} {log log' : Log} {rows : List Node} (hturn : scope.turnId = turnId)
      (hrun : recover scope log = .error log') (hnext : Recovered turnId log'.rows rows) :
      Recovered turnId log.rows rows

lemma Recovered.settling (h : Recovered turnId rows rows') (hrows : Leaves turnId rows) :
    Settling turnId rows rows' ∧ ∀ c ∈ rows', ¬ openOperation rows' turnId c := by
  induction h with
  | done hturn hrun =>
    subst hturn
    obtain ⟨hkeeping, hclosed⟩ := (recover_meets hrows fun hcalm : False => hcalm.elim).of_ok hrun
    exact ⟨hkeeping.settling, hclosed⟩
  | cut hturn hrun _ ih =>
    subst hturn
    have hcut := (recover_meets hrows fun hcalm : False => hcalm.elim).of_error hrun
    obtain ⟨hsettling, hclosed⟩ := ih (hcut.settling.leaves hrows)
    exact ⟨hcut.settling.trans hsettling, hclosed⟩

end

end OpenOmni

namespace OpenOmni.RecoverySample

open PlainValue

def opRow (id : String) (parentId : Option String) (kind : Kind) (phase effect : String)
    (terminal : Option String) : Append where
  id := id
  parentId := parentId
  sessionId := "s"
  kind := kind
  intent := record [("phase", some (.str phase)), ("op", some (.str "op"))]
  effect := record [("phase", some (.str effect)), ("terminal", terminal.map .str)]
  ts := 0

def turnRow : Append := opRow "turn" none .turn "intent" "pending" none

def callRow : Append := opRow "call" (some "turn") .tool "intent" "pending" none

def modelRow : Append := opRow "model" (some "turn") .llm "intent" "pending" none

def firstRow : Append := opRow "first" (some "model") .llm "intent" "pending" none

def ledger (rows : List Append) : List Node :=
  rows.foldl (fun nodes a => nodes ++ [⟨a, nodes.length + 1⟩]) []

def scope : RecoveryScope := ⟨"s", "turn", longIds [], fun _ => 0⟩

attribute [local instance] textCoding

end OpenOmni.RecoverySample
