import OpenOmni.Fold.History

/-! A fold goes on from its state as from itself: the order of its maps does not show, and checkpoint rows leave it. -/
namespace OpenOmni
open List

open PlainValue SessionTransition FoldCheckpoint

/-- Two folds under way that differ in the order of their maps at most. -/
structure Folding.Same (f g : Folding) : Prop where
  messages : f.messages = g.messages
  canonicalTurn : f.canonicalTurn = g.canonicalTurn
  compatibility : f.compatibility = g.compatibility
  successorActionId : f.successorActionId = g.successorActionId
  budgetState : f.budgetState = g.budgetState
  parents : Dict.Same f.parents g.parents
  messageTurns : Dict.Same f.messageTurns g.messageTurns

structure Folding.Unique (f : Folding) : Prop where
  parents : f.parents.Unique
  messageTurns : f.messageTurns.Unique

namespace Folding

variable {f g : Folding}

lemma Unique.same (h : f.Unique) : f.Same f :=
  ⟨rfl, rfl, rfl, rfl, rfl, .refl h.parents, .refl h.messageTurns⟩

lemma Same.symm (h : f.Same g) : g.Same f :=
  ⟨h.messages.symm, h.canonicalTurn.symm, h.compatibility.symm, h.successorActionId.symm, h.budgetState.symm,
    h.parents.symm, h.messageTurns.symm⟩

lemma Same.trans {k : Folding} (h : f.Same g) (h' : g.Same k) : f.Same k :=
  ⟨h.messages.trans h'.messages, h.canonicalTurn.trans h'.canonicalTurn, h.compatibility.trans h'.compatibility,
    h.successorActionId.trans h'.successorActionId, h.budgetState.trans h'.budgetState, h.parents.trans h'.parents,
    h.messageTurns.trans h'.messageTurns⟩

section
variable (h : f.Same g)
include h

lemma Same.left : f.Unique := ⟨h.parents.left, h.messageTurns.left⟩

lemma Same.enter (action : Node) : (f.enter action).Same (g.enter action) := by
  refine ⟨h.messages, ?_, h.compatibility, h.successorActionId, ?_, ?_, h.messageTurns⟩
  · simp only [Folding.enter, h.canonicalTurn]
  · simp only [Folding.enter, h.budgetState]
  · unfold Folding.enter
    dsimp only
    split
    · exact h.parents.set _ _
    · exact h.parents

lemma Same.deliver (sessionId : String) (action : Node) :
    (f.deliver sessionId action).Same (g.deliver sessionId action) := by
  unfold Folding.deliver
  split
  · exact h
  · refine ⟨?_, h.canonicalTurn, ?_, h.successorActionId, h.budgetState, h.parents, h.messageTurns⟩
    · simp only [h.messages]
    · simp only [h.compatibility]

lemma Same.snapshot (turnId : Option (Option String)) (message : Option Message.WithParts) :
    (f.snapshot turnId message).Same (g.snapshot turnId message) := by
  unfold Folding.snapshot
  split
  · exact h
  · refine ⟨?_, rfl, h.compatibility, h.successorActionId, h.budgetState, h.parents, h.messageTurns.set _ _⟩
    simp only [h.messages]

lemma Same.compact (action : Node) (projection : Option (List Message.WithParts)) :
    (f.compact action projection).Same (g.compact action projection) := by
  unfold Folding.compact
  split
  · exact h
  · exact ⟨rfl, h.canonicalTurn, h.compatibility, rfl, h.budgetState, h.parents, h.messageTurns⟩

lemma Same.settle (turnId : Option (Option String)) (action : Node) (result : Option Tool.Result) :
    (f.settle turnId action result).Same (g.settle turnId action result) := by
  unfold Folding.settle
  split
  · exact h
  · refine ⟨?_, h.canonicalTurn, h.compatibility, h.successorActionId, h.budgetState, h.parents, h.messageTurns⟩
    simp only [h.messages, h.messageTurns.get?]

lemma Same.say (action : Node) (text : String) : (f.say action text).Same (g.say action text) := by
  unfold Folding.say
  split
  · exact h
  · refine ⟨?_, h.canonicalTurn, ?_, h.successorActionId, h.budgetState, h.parents, h.messageTurns⟩
    · simp only [h.messages, h.canonicalTurn]
    · simp only [h.compatibility]

lemma Same.terminal (action : Node) : (f.terminal action).Same (g.terminal action) := by
  unfold Folding.terminal
  split
  · exact h
  · rename_i terminal _
    have hsaid := h.say action terminal.text
    refine ⟨?_, hsaid.canonicalTurn, hsaid.compatibility, hsaid.successorActionId, hsaid.budgetState,
      hsaid.parents.erase _, hsaid.messageTurns⟩
    simp only [hsaid.messages]

lemma Same.leave (action : Node) : (f.leave action).Same (g.leave action) := by
  unfold Folding.leave
  split
  · exact h
  · split
    · exact ⟨h.messages, h.canonicalTurn, h.compatibility, h.successorActionId, h.budgetState, h.parents.erase _,
        h.messageTurns⟩
    · exact h

lemma Same.prune : f.prune.Same g.prune := by
  refine ⟨h.messages, h.canonicalTurn, h.compatibility, h.successorActionId, h.budgetState, h.parents, ?_⟩
  apply h.messageTurns.filter
  intro e
  simp only [h.messages, h.parents.contains]

theorem Same.toState : f.toState = g.toState := by
  have hsorted : ∀ {d d' : Dict String (Option String)}, Dict.Same d d' →
      KeySort.sorted d.entries = KeySort.sorted d'.entries := by
    intro d d' hd
    have : Std.Total fun a b : String × Option String => a.1 ≤ b.1 := ⟨fun a b => le_total a.1 b.1⟩
    have : IsTrans (String × Option String) fun a b => a.1 ≤ b.1 := ⟨fun _ _ _ => le_trans⟩
    apply KeySort.insertionSort_eq_of_perm hd.perm
    intro a ha b hb hab hba
    exact inj_on_of_nodup_map hd.left ha hb (le_antisymm hab hba)
  unfold Folding.toState
  rw [h.messages, h.canonicalTurn, h.compatibility, h.successorActionId, h.budgetState, hsorted h.parents,
    hsorted h.messageTurns]

end

lemma unique_ofSeed (seed : State) : (Folding.ofSeed seed).Unique :=
  ⟨Dict.unique_ofEntries _, Dict.unique_ofEntries _⟩

theorem Unique.ofSeed_toState (h : f.Unique) : (Folding.ofSeed f.toState).Same f := by
  have hentries : ∀ {d : Dict String (Option String)}, d.Unique →
      Dict.Same (Dict.ofEntries (KeySort.sorted d.entries)) d := by
    intro d hd
    have hperm : (KeySort.sorted d.entries).Perm d.entries := perm_insertionSort _ _
    have hnodup : ((KeySort.sorted d.entries).map Prod.fst).Nodup := (hperm.map Prod.fst).nodup_iff.mpr hd
    apply Dict.Same.of_perm (Dict.unique_ofEntries _)
    rw [Dict.ofEntries_entries hnodup]
    exact hperm
  exact ⟨rfl, rfl, rfl, rfl, rfl, hentries h.parents, hentries h.messageTurns⟩

def Pruned (f : Folding) : Prop :=
  ∀ e ∈ f.messageTurns.entries, (f.messages.any (·.info.id = e.1) || e.2.any fun turnId => f.parents.contains turnId) = true

lemma Pruned.prune (h : f.Pruned) : f.prune = f := by
  have hturns : f.prune.messageTurns = f.messageTurns := by
    have hfilter := filter_eq_self.mpr h
    exact congrArg Dict.mk hfilter
  obtain ⟨messages, canonicalTurn, compatibility, successorActionId, budgetState, parents, messageTurns⟩ := f
  unfold Folding.prune at hturns ⊢
  simp only at hturns ⊢
  rw [hturns]

lemma pruned_prune (f : Folding) : f.prune.Pruned := by
  intro e he
  exact (mem_filter.mp he).2

lemma Same.pruned (h : f.Same g) (hg : g.Pruned) : f.Pruned := by
  intro e he
  have hkeep := hg e (h.messageTurns.perm.mem_iff.mp he)
  simpa only [h.messages, h.parents.contains] using hkeep

end Folding

variable {α β : Type*} {r : α → α → Prop} {a b : Option α}

lemma rel_bind {s : β → β → Prop} (h : Option.Rel r a b) {k l : α → Option β}
    (hkl : ∀ x y, r x y → Option.Rel s (k x) (l y)) : Option.Rel s (a.bind k) (b.bind l) := by
  cases h with
  | none => exact .none
  | some hxy => exact hkl _ _ hxy

lemma rel_map_eq (h : Option.Rel r a b) {k : α → β} (hk : ∀ x y, r x y → k x = k y) : a.map k = b.map k := by
  cases h with
  | none => rfl
  | some hxy => exact congrArg some (hk _ _ hxy)

section
variable [PlainCoding] {sessionId : String} {f g : Folding}

lemma Folding.Same.apply (h : f.Same g) (action : Node) :
    Option.Rel Folding.Same (applyHistoryAction sessionId f action) (applyHistoryAction sessionId g action) := by
  unfold applyHistoryAction
  by_cases hkind : action.kind = .foldCheckpoint
  · rw [if_pos hkind, if_pos hkind]
    exact .some h
  rw [if_neg hkind, if_neg hkind]
  have hturn : f.parents.get? (action.parentId.getD "") = g.parents.get? (action.parentId.getD "") := h.parents.get? _
  dsimp only
  rw [hturn]
  cases assistantSnapshot action with
  | none => exact .none
  | some snapshot =>
    cases compactionProjection action with
    | none => exact .none
    | some projection =>
      cases toolSettlement action with
      | none => exact .none
      | some result =>
        have hentered := (h.enter action).deliver sessionId action
        have hsettled := ((hentered.snapshot (g.parents.get? (action.parentId.getD "")) snapshot).compact action
          projection).settle (g.parents.get? (action.parentId.getD "")) action result
        exact .some ((hsettled.terminal action).leave action)

lemma Folding.Same.step (h : f.Same g) (action : Node) :
    Option.Rel Folding.Same (foldStep sessionId f action) (foldStep sessionId g action) := by
  unfold foldStep
  rw [Option.map_eq_bind, Option.map_eq_bind]
  exact rel_bind (h.apply action) fun _ _ hnext => .some hnext.prune

lemma Folding.Same.steps (h : f.Same g) (actions : List Node) :
    Option.Rel Folding.Same (actions.foldlM (foldStep sessionId) f) (actions.foldlM (foldStep sessionId) g) := by
  induction actions generalizing f g with
  | nil => exact .some h
  | cons action actions ih =>
    rw [foldlM_cons, foldlM_cons]
    exact rel_bind (h.step action) fun _ _ hnext => ih hnext

theorem Folding.Same.fold (h : f.Same g) (actions : List Node) :
    (actions.foldlM (foldStep sessionId) f).map Folding.toState =
      (actions.foldlM (foldStep sessionId) g).map Folding.toState :=
  rel_map_eq (h.steps actions) fun _ _ hlast => hlast.toState

variable {action : Node} {next : Folding} {actions : List Node} {seed state : State}

lemma foldStep_unique (h : f.Unique) (hstep : foldStep sessionId f action = some next) : next.Unique := by
  have hrel : Option.Rel Folding.Same (foldStep sessionId f action) (foldStep sessionId f action) := h.same.step action
  rw [hstep] at hrel
  cases hrel with
  | some hsame => exact hsame.left

lemma foldSteps_unique (h : f.Unique) (hsteps : actions.foldlM (foldStep sessionId) f = some next) : next.Unique := by
  have hrel : Option.Rel Folding.Same (actions.foldlM (foldStep sessionId) f) (actions.foldlM (foldStep sessionId) f) :=
    h.same.steps actions
  rw [hsteps] at hrel
  cases hrel with
  | some hsame => exact hsame.left

theorem foldHistoryState_append (front rest : List Node) (seed : State) :
    foldHistoryState sessionId (front ++ rest) seed =
      (foldHistoryState sessionId front seed).bind (foldHistoryState sessionId rest) := by
  unfold foldHistoryState
  rw [foldlM_append]
  cases hfront : front.foldlM (foldStep sessionId) (Folding.ofSeed seed) with
  | none => rfl
  | some f =>
    have hunique := foldSteps_unique (Folding.unique_ofSeed seed) hfront
    exact (hunique.ofSeed_toState.fold rest).symm

lemma foldStep_checkpoint (h : action.kind = .foldCheckpoint) : foldStep sessionId f action = some f.prune := by
  unfold foldStep applyHistoryAction
  rw [if_pos h]
  rfl

lemma foldStep_pruned (h : foldStep sessionId f action = some next) : next.Pruned := by
  unfold foldStep at h
  obtain ⟨applied, -, rfl⟩ := Option.map_eq_some_iff.mp h
  exact Folding.pruned_prune applied

lemma foldSteps_pruned (h : f.Pruned) (hsteps : actions.foldlM (foldStep sessionId) f = some next) : next.Pruned := by
  induction actions generalizing f with
  | nil =>
    cases hsteps
    exact h
  | cons action actions ih =>
    rw [foldlM_cons] at hsteps
    obtain ⟨mid, hstep, hrest⟩ := Option.bind_eq_some_iff.mp hsteps
    exact ih (foldStep_pruned hstep) hrest

def withoutCheckpoints (actions : List Node) : List Node := actions.filter fun action => action.kind ≠ .foldCheckpoint

theorem foldSteps_withoutCheckpoints (h : f.Pruned) :
    actions.foldlM (foldStep sessionId) f = (withoutCheckpoints actions).foldlM (foldStep sessionId) f := by
  induction actions generalizing f with
  | nil => rfl
  | cons action actions ih =>
    unfold withoutCheckpoints at ih ⊢
    by_cases hkind : action.kind = .foldCheckpoint
    · rw [foldlM_cons, foldStep_checkpoint hkind, h.prune, filter_cons_of_neg (by simp [hkind])]
      exact ih h
    · rw [filter_cons_of_pos (by simp [hkind]), foldlM_cons, foldlM_cons]
      cases hstep : foldStep sessionId f action with
      | none => rfl
      | some next => exact ih (foldStep_pruned hstep)

def FoldCheckpoint.State.Settled (s : State) : Prop := (Folding.ofSeed s).Pruned

omit [PlainCoding] in
lemma emptyState_settled : emptyState.Settled := fun _ h => nomatch h

lemma foldHistoryState_settled (hseed : seed.Settled) (h : foldHistoryState sessionId actions seed = some state) :
    state.Settled := by
  unfold foldHistoryState at h
  obtain ⟨f, hf, rfl⟩ := Option.map_eq_some_iff.mp h
  have hunique := foldSteps_unique (Folding.unique_ofSeed seed) hf
  have hpruned : f.Pruned := foldSteps_pruned hseed hf
  exact hunique.ofSeed_toState.pruned hpruned

theorem foldHistoryState_withoutCheckpoints (hseed : seed.Settled) :
    foldHistoryState sessionId actions seed = foldHistoryState sessionId (withoutCheckpoints actions) seed := by
  unfold foldHistoryState
  rw [foldSteps_withoutCheckpoints hseed]

theorem foldHistoryState_nil (h : foldHistoryState sessionId actions seed = some state) :
    foldHistoryState sessionId [] state = some state := by
  have happend : foldHistoryState sessionId (actions ++ []) seed =
      (foldHistoryState sessionId actions seed).bind (foldHistoryState sessionId []) := foldHistoryState_append actions [] seed
  rw [append_nil, h] at happend
  exact happend.symm

end

section
attribute [local instance] textCoding

end
end OpenOmni
