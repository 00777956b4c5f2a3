import Mathlib
import OpenOmni.Lib.Paired
import OpenOmni.Loop.BudgetReplay
import OpenOmni.Loop.SettledOnce

/-! Runs of the budget: what the fold counts of a step's rows, and when that is what the run has charged. -/
namespace OpenOmni
namespace Budget
open List

open PlainValue FoldCheckpoint

variable {b b' : FoldCheckpoint.BudgetState} {rows before new : List Node} {n : Node}

variable {row : Append} {batch : Batch} {batches : List Batch} {s t : LoopState} {event : LoopEvent}

lemma isToolIntent_iff :
    isToolIntent row = true ↔ row.kind = .tool ∧ extractIs row.intent "phase" "intent" = true := by
  simp [isToolIntent]

lemma isToolResult_iff :
    isToolResult row = true ↔ row.kind = .tool ∧ extractIs row.intent "phase" "result" = true := by
  simp [isToolResult]

def Opened (b : FoldCheckpoint.BudgetState) (id : String) : Prop := ∃ startedAt, (id, startedAt) ∈ b.openTools

lemma chargeModel_counts (b : FoldCheckpoint.BudgetState) (n : Node) :
    (chargeModel b n).toolCalls = b.toolCalls ∧ (chargeModel b n).openTools = b.openTools := by
  unfold chargeModel
  split
  · split <;> exact ⟨rfl, rfl⟩
  · split <;> exact ⟨rfl, rfl⟩

lemma chargeModel_turns (b : FoldCheckpoint.BudgetState) (hkind : n.kind = .llm) :
    (chargeModel b n).turns = b.turns + if isModelIntent n.toAppend then 1 else 0 := by
  unfold chargeModel
  by_cases hphase : extractIs n.intent "phase" "intent" = true
  · rw [if_pos hphase]
    by_cases hattempt : ((n.intent.get? "attempt").bind asNum).isNone = true
    · simp [isModelIntent, hkind, hphase, hattempt]
    · simp [isModelIntent, hattempt]
  · have hrow : isModelIntent n.toAppend = false := by simp [isModelIntent, hphase]
    rw [if_neg hphase, hrow]
    split <;> rfl

lemma chargeTool_turns (b : FoldCheckpoint.BudgetState) (n : Node) : (chargeTool b n).turns = b.turns := by
  unfold chargeTool
  split
  · rfl
  · split
    · split <;> rfl
    · rfl

theorem chargeBudget_within (b : FoldCheckpoint.BudgetState) (hturn : WithinTurn n.toAppend) :
    chargeBudget (some b) n =
      let charged := { b with chargedAt := max b.chargedAt n.ts }
      some (if n.kind = .tool then chargeTool charged n else if n.kind = .llm then chargeModel charged n else charged) := by
  have hintent : ¬ (n.kind = .turn ∧ extractIs n.intent "phase" "intent" = true) := fun h => (hturn h.1).1 h.2
  have hterminal : turnTerminal n = none := by
    by_cases hkind : n.kind = .turn
    · exact (hturn hkind).2 n.ordinal
    · rw [turnTerminal, if_neg hkind]
  unfold chargeBudget
  rw [if_neg hintent, hterminal]
  dsimp only
  by_cases htool : n.kind = .tool
  · simp [htool]
  · by_cases hllm : n.kind = .llm
    · simp [hllm]
    · simp [htool, hllm]

lemma chargeTool_result (hphase : extractIs n.intent "phase" "result" = true) {id : String}
    (hparent : n.parentId = some id) (hopen : Opened b id) :
    (chargeTool b n).toolCalls = b.toolCalls + 1 ∧ ∀ id', Opened b id' → id' ≠ id → Opened (chargeTool b n) id' := by
  have hintent : ¬ extractIs n.intent "phase" "intent" = true := fun h => absurd (extractIs_inj hphase h) (by decide)
  unfold chargeTool
  rw [if_neg hintent, if_pos hphase]
  split
  · rename_i hnone
    obtain ⟨startedAt, hmem⟩ := hopen
    have hfalse := find?_eq_none.mp hnone _ hmem
    simp [hparent] at hfalse
  · refine ⟨rfl, fun id' hopen' hne => ?_⟩
    obtain ⟨startedAt, hmem⟩ := hopen'
    refine ⟨startedAt, ?_⟩
    have hkept : ¬ (fun tool : String × ℚ => decide (some tool.1 = n.parentId)) (id', startedAt) = true := by
      simp [hparent, hne]
    exact (mem_eraseP_of_neg (p := fun tool : String × ℚ => decide (some tool.1 = n.parentId)) hkept).mpr hmem

lemma chargeTool_intent (hphase : extractIs n.intent "phase" "intent" = true) :
    (chargeTool b n).toolCalls = b.toolCalls ∧ (∀ id, Opened b id → Opened (chargeTool b n) id) ∧
      Opened (chargeTool b n) n.id := by
  unfold chargeTool
  rw [if_pos hphase]
  refine ⟨rfl, ?_, n.ts, by simp⟩
  rintro id ⟨startedAt, hmem⟩
  exact ⟨startedAt, mem_append_left _ hmem⟩

theorem chargeBudget_counts (b : FoldCheckpoint.BudgetState) (hturn : WithinTurn n.toAppend)
    (hopen : isToolResult n.toAppend = true → ∃ id, n.parentId = some id ∧ Opened b id) :
    ∃ b', chargeBudget (some b) n = some b' ∧ b'.turns = b.turns + (if isModelIntent n.toAppend then 1 else 0) ∧
      b'.toolCalls = b.toolCalls + (if isToolResult n.toAppend then 1 else 0) ∧
      (∀ id, Opened b id → (isToolResult n.toAppend = true → n.parentId ≠ some id) → Opened b' id) ∧
      (isToolIntent n.toAppend = true → Opened b' n.id) := by
  rw [chargeBudget_within b hturn]
  dsimp only
  have hopened : ∀ id, Opened { b with chargedAt := max b.chargedAt n.ts } id ↔ Opened b id := fun _ => Iff.rfl
  refine ⟨_, rfl, ?_⟩
  by_cases htool : n.kind = .tool
  · have hmodel : isModelIntent n.toAppend = false := by simp [isModelIntent, htool]
    rw [if_pos htool, hmodel, chargeTool_turns]
    refine ⟨rfl, ?_⟩
    by_cases hresult : extractIs n.intent "phase" "result" = true
    · have hrow : isToolResult n.toAppend = true := isToolResult_iff.mpr ⟨htool, hresult⟩
      have hnot : ¬ isToolIntent n.toAppend = true := fun h =>
        absurd (extractIs_inj hresult (isToolIntent_iff.mp h).2) (by decide)
      obtain ⟨id, hparent, hid⟩ := hopen hrow
      obtain ⟨hcalls, hkept⟩ := chargeTool_result hresult hparent ((hopened id).mpr hid)
      refine ⟨by rw [hcalls, hrow]; rfl, fun id' hid' hne => hkept id' hid' ?_, fun h => absurd h hnot⟩
      rintro rfl
      exact hne hrow hparent
    · have hrow : isToolResult n.toAppend = false := by simp [isToolResult, hresult]
      rw [hrow]
      by_cases hintent : extractIs n.intent "phase" "intent" = true
      · obtain ⟨hcalls, hkept, hnew⟩ := chargeTool_intent (b := { b with chargedAt := max b.chargedAt n.ts }) hintent
        exact ⟨hcalls, fun id' hid' _ => hkept id' hid', fun _ => hnew⟩
      · have hnot : ¬ isToolIntent n.toAppend = true := fun h => hintent (isToolIntent_iff.mp h).2
        have hsame : ∀ c, chargeTool c n = c := fun c => by rw [chargeTool, if_neg hintent, if_neg hresult]
        rw [hsame]
        exact ⟨rfl, fun id' hid' _ => hid', fun h => absurd h hnot⟩
  · have hresult : isToolResult n.toAppend = false := by simp [isToolResult, htool]
    have hintent : ¬ isToolIntent n.toAppend = true := fun h => htool (isToolIntent_iff.mp h).1
    rw [if_neg htool, hresult]
    by_cases hllm : n.kind = .llm
    · rw [if_pos hllm]
      obtain ⟨hcalls, htools⟩ := chargeModel_counts { b with chargedAt := max b.chargedAt n.ts } n
      refine ⟨chargeModel_turns _ hllm, hcalls, fun id' hid' _ => ?_, fun h => absurd h hintent⟩
      rw [Opened, htools]
      exact hid'
    · have hmodel : isModelIntent n.toAppend = false := by simp [isModelIntent, hllm]
      rw [if_neg hllm, hmodel]
      exact ⟨rfl, rfl, fun id' hid' _ => hid', fun h => absurd h hintent⟩

lemma replay_concat (rows : List Node) (n : Node) :
    replay (rows ++ [n]) = if n.kind = .foldCheckpoint then replay rows else chargeBudget (replay rows) n := by
  unfold replay
  rw [filter_append, foldl_append]
  by_cases hkind : n.kind = .foldCheckpoint
  · simp [hkind]
  · simp [hkind]

lemma written_last (h : Written (rows ++ [n])) :
    Written rows ∧ (∀ r ∈ rows, r.id ≠ n.id) ∧ Write rows n.toAppend := by
  generalize hall : rows ++ [n] = all at h
  cases h with
  | nil => simp at hall
  | snoc hwritten hfresh hwrite =>
    obtain ⟨rfl, hlast⟩ := append_inj' hall rfl
    obtain rfl := singleton_inj.mp hlast
    exact ⟨hwritten, hfresh, hwrite⟩

/-- The fold counts one turn for each model intent and one call for each tool result, where a result's intent is one of
the step's own. -/
theorem replay_counts (hb : replay before = some b) (hwritten : Written (before ++ new))
    (hturn : ∀ n ∈ new, WithinTurn n.toAppend)
    (hown : ∀ n ∈ new, isToolResult n.toAppend = true → ∀ r ∈ before, n.parentId ≠ some r.id) :
    ∃ b', replay (before ++ new) = some b' ∧ b'.turns = b.turns + new.countP (fun n => isModelIntent n.toAppend) ∧
      b'.toolCalls = b.toolCalls + new.countP (fun n => isToolResult n.toAppend) ∧
      ∀ a ∈ new, isToolIntent a.toAppend = true → operationResults (before ++ new) a = [] → Opened b' a.id := by
  induction new using List.reverseRecOn with
  | nil => exact ⟨b, by simpa using hb, rfl, rfl, fun _ ha => nomatch ha⟩
  | append_singleton new n ih =>
    rw [← append_assoc] at hwritten ⊢
    obtain ⟨hwritten', hfresh, hwrite⟩ := written_last hwritten
    obtain ⟨c, hc, hturns, hcalls, hopened⟩ := ih hwritten' (fun m hm => hturn m (mem_append_left _ hm))
      (fun m hm => hown m (mem_append_left _ hm))
    have hlast : n ∈ new ++ [n] := mem_append_right _ mem_cons_self
    rw [replay_concat, hc]
    by_cases hcheckpoint : n.kind = .foldCheckpoint
    · have hmodel : isModelIntent n.toAppend = false := by simp [isModelIntent, hcheckpoint]
      have hresult : isToolResult n.toAppend = false := by simp [isToolResult, hcheckpoint]
      have hintent : ¬ isToolIntent n.toAppend = true := by simp [isToolIntent, hcheckpoint]
      rw [if_pos hcheckpoint]
      refine ⟨c, rfl, by simpa [hmodel] using hturns, by simpa [hresult] using hcalls, ?_⟩
      intro a ha htool hnil
      rw [operationResults_concat, append_eq_nil_iff] at hnil
      rcases mem_append.mp ha with ha | ha
      · exact hopened a ha htool hnil.1
      · obtain rfl := mem_singleton.mp ha
        exact absurd htool hintent
    · rw [if_neg hcheckpoint]
      have hopen : isToolResult n.toAppend = true → ∃ id, n.parentId = some id ∧ Opened c id := by
        intro hrow
        obtain ⟨hkind, hphase⟩ := isToolResult_iff.mp hrow
        obtain ⟨r, hr⟩ := hwrite.isResult_of_phase (by rw [hkind]; decide) hphase
        refine ⟨r.id, hr.parent, ?_⟩
        rcases mem_append.mp hr.mem with hbefore | hnew
        · exact absurd hr.parent (hown n hlast hrow r hbefore)
        · have hintent := hr.intent
          simp only [isIntent, Bool.and_eq_true] at hintent
          exact hopened r hnew (isToolIntent_iff.mpr ⟨hr.kind.symm.trans hkind, hintent.2⟩) hr.first
      obtain ⟨c', hc', hturns', hcalls', hkept, hadded⟩ := chargeBudget_counts c (hturn n hlast) hopen
      refine ⟨c', hc', ?_, ?_, ?_⟩
      · rw [hturns', hturns, countP_append, countP_singleton]
        omega
      · rw [hcalls', hcalls, countP_append, countP_singleton]
        omega
      · intro a ha htool hnil
        rw [operationResults_concat, append_eq_nil_iff] at hnil
        rcases mem_append.mp ha with ha | ha
        · refine hkept a.id (hopened a ha htool hnil.1) fun hrow hparent => ?_
          obtain ⟨hkind, hphase⟩ := isToolResult_iff.mp hrow
          have hsame : n.kind = a.kind := hkind.trans (isToolIntent_iff.mp htool).1.symm
          rw [if_pos ⟨hparent, hsame, hphase⟩] at hnil
          exact absurd hnil.2 (cons_ne_nil _ _)
        · obtain rfl := mem_singleton.mp ha
          exact hadded htool

lemma extractIs_ne {v : PlainValue} {key text other : String} (h : extractIs v key text = true) (hne : text ≠ other) :
    extractIs v key other = false := by
  rw [← Bool.not_eq_true]
  exact fun hother => hne (extractIs_inj h hother)

section
variable {ids : ℕ → String} {kind : Kind} {w : WaveRow} {row : Append}

lemma Journals.kind_eq (h : Journals ids kind w row) : row.kind = kind := by
  cases h <;> assumption

lemma Journals.isToolResult_eq (h : Journals ids kind w row) :
    isToolResult row = (decide (kind = .tool) && w.isResult) := by
  unfold isToolResult
  rw [h.kind_eq]
  cases h with
  | intent _ _ hphase | application _ hphase | boundary _ hphase => rw [extractIs_ne hphase (by decide)]; rfl
  | result _ _ hphase => rw [hphase]; rfl

lemma Journals.isModelIntent_eq (h : Journals ids kind w row) :
    isModelIntent row = (decide (kind = .llm) && w.isIntent) := by
  unfold isModelIntent
  rw [h.kind_eq]
  cases h with
  | intent _ _ hphase hattempt => rw [hphase, hattempt]; simp [WaveRow.isIntent]
  | application _ hphase | boundary _ hphase | result _ _ hphase => rw [extractIs_ne hphase (by decide)]; simp [WaveRow.isIntent]

lemma countP_journals {ws : List WaveRow} {rows : List Append} (h : List.Forall₂ (Journals ids kind) ws rows)
    {p : Append → Bool} {q : WaveRow → Bool} {own : Kind}
    (hp : ∀ {w row}, Journals ids kind w row → p row = (decide (kind = own) && q w)) :
    rows.countP p = if kind = own then ws.countP q else 0 := by
  induction h with
  | nil => simp
  | cons hrow _ ih =>
    rw [countP_cons, countP_cons, ih, hp hrow]
    split
    · rename_i hkind
      simp [hkind]
    · rename_i hkind
      simp [hkind]

end

lemma Batch.Rows.counts {rows : List Append} (h : batch.Rows rows) :
    rows.countP isToolResult = (if batch.kind = .tool then batch.admitted else 0) ∧
      rows.countP isModelIntent = if batch.kind = .llm then batch.admitted else 0 := by
  obtain ⟨ids, hrows⟩ := h
  obtain ⟨trace, run⟩ := batch.run
  obtain ⟨hintents, hresults⟩ := Wave.rows_counted run batch.fresh batch.done
  rw [countP_journals hrows Journals.isToolResult_eq, countP_journals hrows Journals.isModelIntent_eq, hintents, hresults]
  exact ⟨rfl, rfl⟩

lemma admittedOf_cons (kind : Kind) (batch : Batch) (batches : List Batch) :
    admittedOf kind (batch :: batches) = (if batch.kind = kind then batch.admitted else 0) + admittedOf kind batches := by
  unfold admittedOf
  rw [filter_cons]
  by_cases hkind : batch.kind = kind
  · simp [hkind]
  · simp [hkind]

lemma counts_flatten {parts : List (List Append)} (h : List.Forall₂ Batch.Rows batches parts) :
    parts.flatten.countP isToolResult = admittedOf .tool batches ∧
      parts.flatten.countP isModelIntent = admittedOf .llm batches := by
  induction h with
  | nil => exact ⟨rfl, rfl⟩
  | cons hrows _ ih =>
    obtain ⟨hresults, hintents⟩ := hrows.counts
    rw [flatten_cons, countP_append, countP_append, ih.1, ih.2, hresults, hintents, admittedOf_cons,
      admittedOf_cons]
    exact ⟨rfl, rfl⟩

theorem Batch.Rows.paired {rows : List Append} (h : batch.Rows rows) (hmem : row ∈ rows)
    (hresult : isToolResult row = true) : ∃ a ∈ rows, row.parentId = some a.id := by
  obtain ⟨ids, hrows⟩ := h
  obtain ⟨trace, run⟩ := batch.run
  obtain ⟨w, hw, hjournals⟩ := List.exists_left_of_forall₂ hrows hmem
  rw [hjournals.isToolResult_eq, Bool.and_eq_true] at hresult
  cases hjournals with
  | result hparent _ _ =>
    have hintent := Wave.intent_of_result run batch.fresh batch.done hw
    obtain ⟨a, ha, hjournals⟩ := List.exists_right_of_forall₂ hrows hintent
    cases hjournals with
    | intent hid _ _ _ => exact ⟨a, ha, by rw [hparent, hid]⟩
  | _ => exact absurd hresult.2 (by simp [WaveRow.isResult])

lemma Batch.Rows.withinTurn {rows : List Append} (h : batch.Rows rows) (hmem : row ∈ rows) : WithinTurn row := by
  obtain ⟨ids, hrows⟩ := h
  obtain ⟨w, -, hjournals⟩ := List.exists_left_of_forall₂ hrows hmem
  exact fun hkind => absurd (hjournals.kind_eq.symm.trans hkind) batch.noTurn

theorem Commits.counts {before after : List Node} (h : Commits batches before after) (hb : replay before = some b) :
    ∃ b', replay after = some b' ∧ b'.turns = b.turns + admittedOf .llm batches ∧
      b'.toolCalls = b.toolCalls + admittedOf .tool batches := by
  obtain ⟨hwritten, new, parts, others, rfl, hperm, hparts, hothers⟩ := h
  have hcount : ∀ p : Append → Bool, (∀ row ∈ others, p row = false) →
      new.countP (fun n => p n.toAppend) = parts.flatten.countP p := by
    intro p hp
    have hzero : others.countP p = 0 := countP_eq_zero.mpr fun row hrow => by simp [hp row hrow]
    have hmapped := hperm.countP_eq p
    rw [countP_map, countP_append, hzero] at hmapped
    exact hmapped
  have hcases : ∀ n ∈ new, n.toAppend ∈ others ∨ ∃ (batch : Batch) (part : List Append),
      batch.Rows part ∧ part ∈ parts ∧ n.toAppend ∈ part := by
    intro n hn
    have hmem := hperm.mem_iff.mp (mem_map_of_mem hn)
    rcases mem_append.mp hmem with hflat | hother
    · obtain ⟨part, hpart, hrow⟩ := mem_flatten.mp hflat
      obtain ⟨batch, -, hrows⟩ := List.exists_left_of_forall₂ hparts hpart
      exact .inr ⟨batch, part, hrows, hpart, hrow⟩
    · exact .inl hother
  have hturn : ∀ n ∈ new, WithinTurn n.toAppend := by
    intro n hn
    rcases hcases n hn with hother | ⟨batch, part, hrows, -, hrow⟩
    · exact (hothers _ hother).turn
    · exact hrows.withinTurn hrow
  have hown : ∀ n ∈ new, isToolResult n.toAppend = true → ∀ r ∈ before, n.parentId ≠ some r.id := by
    intro n hn hresult r hr hparent
    rcases hcases n hn with hother | ⟨batch, part, hrows, hpart, hrow⟩
    · rw [(hothers _ hother).tool.2] at hresult
      cases hresult
    · obtain ⟨a, ha, ha'⟩ := hrows.paired hrow hresult
      have hmem : a ∈ parts.flatten ++ others := mem_append_left _ (mem_flatten.mpr ⟨part, hpart, ha⟩)
      obtain ⟨m, hm, rfl⟩ := mem_map.mp (hperm.mem_iff.mpr hmem)
      -- the intent is one of the new rows, and no two rows share an id
      have hids := hwritten.ledger.ids
      rw [map_append, nodup_append'] at hids
      have hsame : m.id = r.id := Option.mem_unique ha' hparent
      exact hids.2.2 (mem_map_of_mem hr) (hsame ▸ mem_map_of_mem hm)
  obtain ⟨b', hb', hturns, hcalls, -⟩ := replay_counts hb hwritten hturn hown
  obtain ⟨hresults, hintents⟩ := counts_flatten hparts
  refine ⟨b', hb', ?_, ?_⟩
  · rw [hturns, hcount isModelIntent fun row hrow => (hothers row hrow).model, hintents]
  · rw [hcalls, hcount isToolResult fun row hrow => (hothers row hrow).tool.2, hresults]

lemma recordRunTurn_again (state : RunState) : recordRunTurn (recordRunTurn state) = recordRunTurn state := by
  by_cases hcharged : state.chargedTurnIndex = state.turnIndex
  · simp [recordRunTurn, hcharged]
  · simp [recordRunTurn, hcharged]

theorem buildTurns_eq (state : RunState) {attempts : ℕ} (h : 0 < attempts) :
    buildTurns state attempts = recordRunTurn state := by
  induction attempts with
  | zero => cases h
  | succ n ih =>
    cases n with
    | zero => rfl
    | succ n =>
      rw [buildTurns, Function.iterate_succ_apply']
      have hbuilt : recordRunTurn^[n + 1] state = recordRunTurn state := ih (Nat.succ_pos n)
      rw [hbuilt, recordRunTurn_again]

lemma settleModelTools_counts (state : RunState) (elapsedMs : ℚ) (calls : ℕ) :
    (settleModelTools state elapsedMs calls).budgetState.turns = state.budgetState.turns ∧
      (settleModelTools state elapsedMs calls).budgetState.toolCalls = state.budgetState.toolCalls + calls := by
  have hfold : ∀ (l : List ℕ) (budget : LiveBudget),
      (l.foldl (fun budget index => recordToolCall budget (if index = 0 then elapsedMs else 0)) budget).turns = budget.turns ∧
        (l.foldl (fun budget index => recordToolCall budget (if index = 0 then elapsedMs else 0)) budget).toolCalls =
          budget.toolCalls + l.length := by
    intro l
    induction l with
    | nil => exact fun _ => ⟨rfl, rfl⟩
    | cons index l ih =>
      intro budget
      obtain ⟨hturns, hcalls⟩ := ih (recordToolCall budget (if index = 0 then elapsedMs else 0))
      rw [foldl_cons, hturns, hcalls, length_cons]
      refine ⟨rfl, ?_⟩
      change budget.toolCalls + 1 + l.length = _
      omega
  obtain ⟨hturns, hcalls⟩ := hfold (List.range calls) state.budgetState
  rw [length_range] at hcalls
  exact ⟨hturns, hcalls⟩

/-- The turn of a model call that is still to come is not charged yet. -/
structure Charging (s : LoopState) : Prop where
  le : s.run.chargedTurnIndex ≤ s.run.turnIndex
  ahead : s.point = .model → s.run.chargedTurnIndex < s.run.turnIndex

lemma Batch.admitted_add_denied (batch : Batch) : batch.admitted + batch.denied = batch.items.length := by
  obtain ⟨trace, run⟩ := batch.run
  have hbarrier : Wave.Barrier batch.items batch.wave := by
    have hfibers := (Wave.Inv.run run).1.fibers
    unfold Wave.Fibers at hfibers
    rw [batch.done] at hfibers
    exact hfibers.1
  have hsplit := length_eq_countP_add_countP (fun pre : Admitted => decide (pre.verdict = .deny)) (l := batch.wave.pre)
  rw [hbarrier.decided] at hsplit
  rw [hsplit, Batch.admitted, Batch.denied, Nat.add_comm]
  congr 1
  apply countP_congr
  simp

theorem agrees_iff (hs : Agrees s) (hrows : Commits batches s.rows t.rows) {turns calls : ℕ}
    (hturns : t.run.budgetState.turns = s.run.budgetState.turns + turns)
    (hcalls : t.run.budgetState.toolCalls = s.run.budgetState.toolCalls + calls) :
    Agrees t ↔ admittedOf .llm batches = turns ∧ admittedOf .tool batches = calls := by
  obtain ⟨budget, hb, hlive, hlive'⟩ := hs
  obtain ⟨after, hafter, hcount, hcount'⟩ := hrows.counts hb
  have hagrees : Agrees t ↔ after.turns = t.run.budgetState.turns ∧ after.toolCalls = t.run.budgetState.toolCalls := by
    constructor
    · rintro ⟨b', hb', heq⟩
      obtain rfl := Option.mem_unique hafter hb'
      exact heq
    · exact fun heq => ⟨after, hafter, heq⟩
  rw [hagrees, hturns, hcalls, hcount, hcount', ← hlive, ← hlive', Nat.add_left_cancel_iff, Nat.add_left_cancel_iff]

lemma behindModel_budget (outcome : ModelOutcome) (state : RunState) :
    (behindModel outcome state).2.budgetState = state.budgetState := by
  cases outcome <;> rfl

lemma recordRunTurn_charges {state : RunState} (h : state.chargedTurnIndex < state.turnIndex) :
    recordRunTurn state =
      { state with chargedTurnIndex := state.turnIndex, budgetState := recordTurn state.budgetState } := by
  rw [recordRunTurn, if_neg (ne_of_lt h)]

theorem length_reduceOption (calls : List (Option BatchItem)) :
    calls.reduceOption.length + calls.count none = calls.length := by
  induction calls with
  | nil => rfl
  | cons call calls ih =>
    cases call with
    | none =>
      rw [reduceOption_cons_of_none, count_cons_self, length_cons]
      omega
    | some item =>
      have hcount : (some item :: calls).count none = calls.count none := count_cons_of_ne (by simp)
      rw [reduceOption_cons_of_some, hcount, length_cons, length_cons]
      omega

lemma recordRunTurn_index (state : RunState) :
    (recordRunTurn state).turnIndex = state.turnIndex ∧ (recordRunTurn state).chargedTurnIndex = state.turnIndex := by
  unfold recordRunTurn
  split
  · rename_i hcharged
    exact ⟨rfl, hcharged⟩
  · exact ⟨rfl, rfl⟩

lemma Charging.step (h : Charging s) (hstep : Step s event t) : Charging t := by
  cases hstep with
  | @model own inner attempts outcome rows hpoint hkind hsingle hattempts hexecuted hrows =>
    obtain ⟨hturn, hcharged⟩ := recordRunTurn_index s.run
    rw [buildTurns_eq s.run hattempts]
    cases outcome with
    | stop | failed => exact ⟨le_of_eq (hcharged.trans hturn.symm), fun h => nomatch h⟩
    | continues =>
      have hlt : (recordRunTurn s.run).chargedTurnIndex < (recordRunTurn s.run).turnIndex + 1 := by omega
      exact ⟨le_of_lt hlt, fun _ => hlt⟩
  | tools hpoint hkind hitems hrows => exact ⟨h.le, fun h => nomatch h⟩
  | @judge continues hpoint =>
    cases continues with
    | true =>
      have hle := h.le
      have hlt : s.run.chargedTurnIndex < s.run.turnIndex + 1 := by omega
      exact ⟨le_of_lt hlt, fun _ => hlt⟩
    | false => exact ⟨h.le, fun h => nomatch h⟩
  | aside hrows => exact ⟨h.le, h.ahead⟩

theorem Step.agrees_iff (hagrees : Agrees s) (hcharging : Charging s) (hstep : Step s event t) :
    Balanced event ↔ Agrees t := by
  cases hstep with
  | @model own inner attempts outcome rows hpoint hkind hsingle hattempts hexecuted hrows =>
    have hbuilt := (buildTurns_eq s.run hattempts).trans (recordRunTurn_charges (hcharging.ahead hpoint))
    have hbudget : (behindModel outcome (buildTurns s.run attempts)).2.budgetState = recordTurn s.run.budgetState := by
      rw [behindModel_budget, hbuilt]
    have hiff : Agrees ⟨(behindModel outcome (buildTurns s.run attempts)).1,
        (behindModel outcome (buildTurns s.run attempts)).2, rows⟩ ↔
          admittedOf .llm (own :: inner) = 1 ∧ admittedOf .tool (own :: inner) = 0 :=
      Budget.agrees_iff hagrees hrows (by rw [hbudget]; rfl) (by rw [hbudget]; rfl)
    have hone := own.admitted_add_denied
    have hnot : own.kind ≠ .tool := by rw [hkind]; decide
    rw [hiff, Balanced, admittedOf_cons, admittedOf_cons, if_pos hkind, if_neg hnot]
    omega
  | @tools calls own inner elapsedMs rows hpoint hkind hitems hrows =>
    obtain ⟨hturns, hcalls⟩ := settleModelTools_counts s.run elapsedMs calls.length
    have hiff : Agrees ⟨.stop, settleModelTools s.run elapsedMs calls.length, rows⟩ ↔
        admittedOf .llm (own :: inner) = 0 ∧ admittedOf .tool (own :: inner) = calls.length :=
      Budget.agrees_iff hagrees hrows hturns hcalls
    have hsplit := own.admitted_add_denied
    have hnot : own.kind ≠ .llm := by rw [hkind]; decide
    have hlength := length_reduceOption calls
    rw [hiff, Balanced, admittedOf_cons, admittedOf_cons, if_pos hkind, if_neg hnot]
    rw [hitems] at hsplit
    omega
  | @judge continues hpoint =>
    refine iff_of_true trivial ?_
    obtain ⟨budget, hb, hturns, hcalls⟩ := hagrees
    refine ⟨budget, hb, ?_, ?_⟩
    · cases continues <;> exact hturns
    · cases continues <;> exact hcalls
  | @aside inner rows hrows =>
    have hiff : Agrees { s with rows } ↔ admittedOf .llm inner = 0 ∧ admittedOf .tool inner = 0 :=
      Budget.agrees_iff hagrees hrows rfl rfl
    rw [hiff]
    rfl

lemma Started.agrees (h : Started s) : Agrees s ∧ Charging s := by
  obtain ⟨budget, now, hpoint, hreplay, hrun⟩ := h
  refine ⟨⟨budget, hreplay, by rw [hrun]; rfl, by rw [hrun]; rfl⟩, ?_, fun _ => ?_⟩
  · rw [hrun]
    exact (by decide : (-1 : ℤ) ≤ 0)
  · rw [hrun]
    exact (by decide : (-1 : ℤ) < 0)

/-- In every run of the loop, the fold counts at each point the turns and calls that were charged exactly if at every
step the calls that end before their intent are as many as those that are journaled inside others. -/
theorem budget_replay_iff {s t : LoopState} {trace : List (LoopState × LoopEvent)} (hs : Started s)
    (run : Transition.Run Step s trace t) :
    (∀ e ∈ trace, Balanced e.2) ↔ (∀ e ∈ trace, Agrees e.1) ∧ Agrees t := by
  obtain ⟨hagrees, hcharging⟩ := Started.agrees hs
  have hkept : ∀ a event b, Charging a → Step a event b → Charging b := fun _ _ _ ha hstep => ha.step hstep
  have hiff : (∀ e ∈ trace, Balanced e.2) ↔ (∀ e ∈ trace, Agrees e.1 ∧ Charging e.1) ∧ Agrees t ∧ Charging t :=
    run.forall_iff ⟨hagrees, hcharging⟩ fun a event b ha hstep =>
      (hstep.agrees_iff ha.1 ha.2).trans (and_iff_left (hkept a event b ha.2 hstep)).symm
  rw [hiff, and_iff_left (run.preserves hcharging hkept)]
  apply and_congr_left
  intro _
  exact forall₂_congr fun e he => and_iff_left (run.visits hcharging hkept e he)

end Budget

namespace BudgetSample

open Budget RecoverySample

def item (kind : String) : BatchItem := ⟨kind, "op", false, false, false, false, false⟩

def executing : List Wave.Event :=
  [.admitItem WaveSample.allowed, .next, .intend (.ok ()), .next, .ask, .settle 0 (.ok .approve), .next, .next, .begin 0,
    .exit 0 (.ok .null) false, .next, .next, .commit .committed, .next]

def denying : List Wave.Event :=
  [.admitItem (.ok ⟨.deny, none⟩), .next, .intend (.ok ()), .next, .ask, .settle 0 (.ok .approve), .next, .next, .next,
    .next, .commit .committed, .next]

def play (kind : String) (events : List Wave.Event) : Option Wave :=
  events.foldlM (Wave.step WaveSample.options [item kind]) Wave.start

theorem exists_batch (kind : Kind) (name : String) (events : List Wave.Event) (hturn : kind ≠ .turn)
    {pre : List Admitted} {results : List ExecutionResult} {rows : List WaveRow}
    (hplay : (play name events).map (fun w => (w.point, w.pre, w.results, w.rows)) = some (.done, pre, results, rows)) :
    ∃ batch : Batch, batch.kind = kind ∧ batch.items = [item name] ∧ batch.wave.pre = pre ∧
      batch.wave.results = results ∧ batch.wave.rows = rows := by
  obtain ⟨w, hw, hend⟩ := Option.map_eq_some_iff.mp hplay
  simp only [Prod.mk.injEq] at hend
  obtain ⟨hdone, hpre, hresults, hrows⟩ := hend
  obtain ⟨trace, -, run⟩ := Transition.Run.ofLabels hw
  refine ⟨⟨kind, WaveSample.options, [item name], w, ⟨trace, run⟩, hdone, hturn, ?_⟩, rfl, rfl, hpre,
    hresults, hrows⟩
  intro other hother
  rw [List.mem_singleton.mp hother]
  rfl

def modelResult : Append := opRow "model:result" (some "model") .llm "result" "result" (some "executed")

def callResult : Append := opRow "call:result" (some "call") .tool "result" "result" (some "executed")

def opened : List Node := ledger [turnRow]

def modelled : List Node := ledger [turnRow, modelRow, modelResult]

def called : List Node := ledger [turnRow, modelRow, modelResult, callRow, callResult]

lemma written_modelled : Written modelled := by
  have hturn : Written (ledger [turnRow]) := .snoc .nil (by simp) (.other (by decide) (by decide) (.inr (by decide)))
  have hmodel : Written (ledger [turnRow, modelRow]) :=
    .snoc hturn (by decide) (.operation (by decide) (by decide) (by decide) (.inr (by decide)))
  exact .snoc hmodel (by decide) (.result ⟨modelRow, 2⟩ (by decide) (by decide) (by decide) (by decide) (by decide)
    (by decide) (by decide) (by decide))

lemma written_called : Written called := by
  have hcall : Written (ledger [turnRow, modelRow, modelResult, callRow]) :=
    .snoc written_modelled (by decide) (.operation (by decide) (by decide) (by decide) (.inr (by decide)))
  exact .snoc hcall (by decide) (.result ⟨callRow, 4⟩ (by decide) (by decide) (by decide) (by decide) (by decide)
    (by decide) (by decide) (by decide))

theorem commits_pair {batch : Batch} {before : List Node} {a r : Node} {outcome : ExecutionResult}
    (hrows : batch.wave.rows = [.intent 0, .result 0 outcome]) (hwritten : Written (before ++ [a, r]))
    (ha : Journals (fun _ => a.id) batch.kind (.intent 0) a.toAppend)
    (hr : Journals (fun _ => a.id) batch.kind (.result 0 outcome) r.toAppend) :
    Commits [batch] before (before ++ [a, r]) := by
  refine ⟨hwritten, [a, r], [[a.toAppend, r.toAppend]], [], rfl, by simp, ?_, fun _ h => nomatch h⟩
  refine .cons ⟨fun _ => a.id, ?_⟩ .nil
  rw [hrows]
  exact .cons ha (.cons hr .nil)

theorem model_step (run : RunState) : ∃ own, Step ⟨.model, run, opened⟩ (.model own [] 1 .stop)
    ⟨.tools, recordRunTurn run, modelled⟩ ∧ own.denied = 0 := by
  obtain ⟨own, hkind, hitems, hpre, hresults, hrows⟩ := exists_batch .llm "llm" executing (by decide) rfl
  have hcommits : Commits [own] opened modelled :=
    commits_pair (a := ⟨modelRow, 2⟩) (r := ⟨modelResult, 3⟩) hrows written_modelled
      (.intent rfl (hkind ▸ rfl) (by decide) (by decide)) (.result rfl (hkind ▸ rfl) (by decide))
  refine ⟨own, .model rfl hkind (by rw [hitems]; rfl) (by decide) (fun _ => ⟨_, hresults⟩) hcommits, ?_⟩
  rw [Batch.denied, hpre]
  rfl

theorem executed_step (run : RunState) : ∃ own, Step ⟨.tools, run, modelled⟩ (.tools [some (item "tool")] own [] 5)
    ⟨.stop, settleModelTools run 5 1, called⟩ ∧ own.denied = 0 := by
  obtain ⟨own, hkind, hitems, hpre, -, hrows⟩ := exists_batch .tool "tool" executing (by decide) rfl
  have hcommits : Commits [own] modelled called :=
    commits_pair (a := ⟨callRow, 4⟩) (r := ⟨callResult, 5⟩) hrows written_called
      (.intent rfl (hkind ▸ rfl) (by decide) (by decide)) (.result rfl (hkind ▸ rfl) (by decide))
  refine ⟨own, .tools rfl hkind hitems hcommits, ?_⟩
  rw [Batch.denied, hpre]
  rfl

theorem denied_step (run : RunState) : ∃ own, Step ⟨.tools, run, modelled⟩ (.tools [some (item "tool")] own [] 5)
    ⟨.stop, settleModelTools run 5 1, modelled⟩ := by
  obtain ⟨own, hkind, hitems, -, -, hrows⟩ := exists_batch .tool "tool" denying (by decide) rfl
  have hparts : List.Forall₂ Batch.Rows [own] [[]] := .cons ⟨fun _ => "", by rw [hrows]; exact .nil⟩ .nil
  exact ⟨own, .tools rfl hkind hitems
    ⟨written_modelled, [], [[]], [], (List.append_nil _).symm, List.Perm.refl _, hparts, fun _ h => nomatch h⟩⟩

def budget : FoldCheckpoint.BudgetState := ⟨0, 0, 0, 0, 0, 0, 0, 0, []⟩

def started : LoopState := ⟨.model, createRunState budget 0, opened⟩

lemma started_started : Started started := ⟨budget, 0, rfl, by decide, rfl⟩

end BudgetSample

namespace Budget

open BudgetSample

/-- The turn of one call that runs. -/
theorem budget_replay_executed : ∃ trace t, Transition.Run Step started trace t ∧ Agrees t ∧ t.run.budgetState.toolCalls = 1 := by
  obtain ⟨model, hmodel, hadmitted⟩ := model_step (createRunState budget 0)
  obtain ⟨own, htools, hexecuted⟩ := executed_step (recordRunTurn (createRunState budget 0))
  have run := (Transition.Run.nil.snoc hmodel).snoc htools
  have hbalanced : ∀ e ∈ [((started, LoopEvent.model model [] 1 .stop) : LoopState × LoopEvent)] ++
      [(⟨.tools, recordRunTurn (createRunState budget 0), modelled⟩, .tools [some (item "tool")] own [] 5)],
      Balanced e.2 := by
    intro e he
    rcases List.mem_append.mp he with he | he
    · rw [List.mem_singleton.mp he]
      exact ⟨hadmitted, rfl⟩
    · rw [List.mem_singleton.mp he]
      exact ⟨by rw [hexecuted]; rfl, rfl⟩
  exact ⟨_, _, run, ((budget_replay_iff started_started run).mp hbalanced).2, rfl⟩

/-- A call that the policy denies is charged, and the fold does not count it. -/
theorem denied_call_uncounted :
    ¬ ∀ (s t : LoopState) (trace : List (LoopState × LoopEvent)), Started s → Transition.Run Step s trace t → Agrees t := by
  intro h
  obtain ⟨model, hmodel, -⟩ := model_step (createRunState budget 0)
  obtain ⟨own, htools⟩ := denied_step (recordRunTurn (createRunState budget 0))
  obtain ⟨counted, hcounted, -, hcalls⟩ := h started _ _ started_started ((Transition.Run.nil.snoc hmodel).snoc htools)
  have hreplay : (replay modelled).map (·.toolCalls) = some 0 := by decide
  rw [hcounted, Option.map_some, Option.some.injEq] at hreplay
  rw [hreplay] at hcalls
  exact absurd hcalls (by decide)

end Budget
end OpenOmni
