import OpenOmni.Loop.TurnRows

/-! What a recovery commits, wherever it is cut off, and what it has settled when it comes back. -/
namespace OpenOmni
open List

open PlainValue

variable [PlainCoding]

/-- What a recovery may settle: an operation that is listed as open, a model operation only behind its
attempts, or an attempt of a listed one. -/
inductive Subject (turnId : String) (rows : List Node) (p : Node) : Prop where
  | operation (hopen : openOperation rows turnId p)
      (hattempts : p.kind = .llm → ∀ b ∈ rows, attemptOf p b → AttemptDone rows b)
  | attempt (a : Node) (hmem : a ∈ rows) (hopen : openOperation rows turnId a) (hkind : a.kind = .llm)
      (hattempt : attemptOf a p)

def HasBoundary (rows : List Node) (parentId : Option String) : Prop :=
  ∃ id, parentId = some id ∧ ∃ b ∈ rows, b.id = id ++ ":boundary" ∧ extractIs b.effect "phase" "boundary"

structure SettleStep (turnId : String) (rows : List Node) (a : Append) : Prop where
  fresh : ∀ r ∈ rows, r.id ≠ a.id
  result : ∃ p, IsResult rows a p ∧ Subject turnId rows p ∧
    (isAttempt rows p → extractIs a.effect "terminal" "outcome_unknown")
  wave : a.intent.get? "waveId" = none
  honest : extractIs a.effect "terminal" "executed" → HasBoundary rows a.parentId

inductive Settling (turnId : String) (rows : List Node) : List Node → Prop where
  | nil : Settling turnId rows rows
  | snoc {rows' : List Node} {a : Append} : Settling turnId rows rows' → SettleStep turnId rows' a →
      Settling turnId rows (rows' ++ [⟨a, rows'.length + 1⟩])

/-- No open operation of the turn is hidden behind a policy decision or has an attempt that was
interrupted. -/
def Clear (turnId : String) (rows : List Node) : Prop :=
  ∀ a ∈ rows, turnOperation rows turnId a → ¬ inGuardedWave rows a → operationResults rows a = [] →
    (∀ r ∈ rows, r.kind = .policyDecision → r.parentId ≠ some a.id) ∧
      (a.kind = .llm → ∀ b ∈ rows, attemptOf a b →
        ∀ r ∈ operationResults rows b, ¬ extractIs r.effect "terminal" "interrupted")

instance (turnId : String) (rows : List Node) : Decidable (Clear turnId rows) :=
  inferInstanceAs (Decidable (∀ a ∈ rows, _ → _ → _ → _ ∧ _))

section
variable {turnId : String} {rows rows' : List Node} {a : Append}

section
variable (h : SettleStep turnId rows a)
include h

lemma SettleStep.written (hrows : Written rows) :
    Written (rows ++ [⟨a, rows.length + 1⟩]) := by
  obtain ⟨p, hp, -⟩ := h.result
  exact .snoc hrows h.fresh hp.write

lemma SettleStep.mem_of_intent {c : Node}
    (hc : c ∈ rows ++ [⟨a, rows.length + 1⟩]) (hintent : isIntent c) : c ∈ rows := by
  rcases mem_append.mp hc with hc | hc
  · exact hc
  · obtain rfl := mem_singleton.mp hc
    obtain ⟨p, hp, -⟩ := h.result
    exact absurd hintent (hp.not_intent _)

lemma SettleStep.turnOperation_eq (c : Node) :
    turnOperation (rows ++ [⟨a, rows.length + 1⟩]) turnId c = turnOperation rows turnId c := by
  obtain ⟨p, hp, -⟩ := h.result
  have hkind : a.kind ≠ .turn := by
    intro heq
    have hop := hp.operationKind
    rw [heq] at hop
    exact absurd hop (by decide)
  simp [turnOperation, any_append, hkind]

lemma SettleStep.inGuardedWave_eq (c : Node) :
    inGuardedWave (rows ++ [⟨a, rows.length + 1⟩]) c = inGuardedWave rows c := by
  have hwave : jsonExtract a.intent ["waveId"] = none := by simp [jsonExtract, h.wave]
  simp [inGuardedWave, any_append, hwave]

lemma SettleStep.hasResult_eq (id : String) :
    hasResult (rows ++ [⟨a, rows.length + 1⟩]) id = (hasResult rows id || a.parentId = some id) := by
  obtain ⟨p, hp, -⟩ := h.result
  have hkind : a.kind ≠ .foldCheckpoint := by
    intro heq
    have hop := hp.operationKind
    rw [heq] at hop
    exact absurd hop (by decide)
  simp [hasResult, any_append, hkind, hp.effect]

lemma SettleStep.clear (hledger : TurnLedger rows) (hclear : Clear turnId rows) :
    Clear turnId (rows ++ [⟨a, rows.length + 1⟩]) := by
  obtain ⟨p, hp, -, hunknown⟩ := h.result
  intro c hc hop hguarded hnone
  rw [h.turnOperation_eq] at hop
  rw [h.inGuardedWave_eq] at hguarded
  have hcmem := h.mem_of_intent hc (isIntent_of_turnOperation hop)
  rw [hp.operationResults_eq hledger.ids hcmem, append_eq_nil_iff] at hnone
  obtain ⟨hdecisions, hattempts⟩ := hclear c hcmem hop hguarded hnone.1
  constructor
  · intro r hr hpolicy
    rcases mem_append.mp hr with hr | hr
    · exact hdecisions r hr hpolicy
    · obtain rfl := mem_singleton.mp hr
      exact absurd hp.operationKind (not_operation_of_decision hpolicy)
  · intro hkind b hb hattempt r hr
    have hbmem := h.mem_of_intent hb hattempt.2.2
    rw [hp.operationResults_eq hledger.ids hbmem] at hr
    rcases mem_append.mp hr with hr | hr
    · exact hattempts hkind b hbmem hattempt r hr
    · split at hr
      · rename_i heq
        obtain rfl := mem_singleton.mp hr
        have hunknown := hunknown (heq ▸ ⟨hattempt.2.1, hattempt.2.2, c, hcmem, hattempt.1, hkind⟩)
        intro hinterrupted
        exact absurd (extractIs_inj hunknown hinterrupted) (by decide)
      · simp at hr

theorem SettleStep.attemptDone (hledger : TurnLedger rows) {b : Node}
    (hb : b ∈ rows) (hdone : AttemptDone rows b) : AttemptDone (rows ++ [⟨a, rows.length + 1⟩]) b := by
  obtain ⟨p, hp, -⟩ := h.result
  have hne : b ≠ p := by
    rintro rfl
    exact hdone.1 hp.first
  have hsame := hp.operationResults_eq hledger.ids hb
  rw [if_neg hne, append_nil] at hsame
  rw [AttemptDone, hsame]
  exact hdone

theorem SettleStep.openOperation_eq {c : Node} (hparent : a.parentId ≠ some c.id) :
    openOperation (rows ++ [⟨a, rows.length + 1⟩]) turnId c = openOperation rows turnId c := by
  simp [openOperation, h.turnOperation_eq, h.inGuardedWave_eq, h.hasResult_eq, hparent]

end

end

end OpenOmni
