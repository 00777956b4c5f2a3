import OpenOmni.Fold.Algebra

/-! Rows that bring nothing or one tool result, and the folds they leave apart from the times of the calls. -/
namespace OpenOmni
open List

open PlainValue SessionTransition FoldCheckpoint

def Tool.State.untimed : Tool.State → Tool.State
  | .pending input => .pending input
  | .running input _ => .running input 0
  | .completed input output title metadata _ _ => .completed input output title metadata 0 0
  | .error input reason _ _ => .error input reason 0 0

def Message.Part.untimed : Message.Part → Message.Part
  | .tool base callID name state => .tool base callID name state.untimed
  | part => part

def Message.WithParts.untimed (message : Message.WithParts) : Message.WithParts :=
  { message with parts := message.parts.map Message.Part.untimed }

@[simp] theorem Tool.State.untimed_untimed (s : Tool.State) : s.untimed.untimed = s.untimed := by cases s <;> rfl

@[simp] theorem Tool.State.openInput_untimed (s : Tool.State) : s.untimed.openInput = s.openInput := by cases s <;> rfl

@[simp] theorem Message.WithParts.untimed_info (m : Message.WithParts) : m.untimed.info = m.info := rfl

lemma mapOpenPart_untimed (settle : String → String → PlainObject → Option Tool.State) (p : Message.Part) :
    (mapOpenPart settle p).untimed =
      (mapOpenPart (fun callID name input => (settle callID name input).map Tool.State.untimed) p.untimed).untimed := by
  cases p with
  | tool base callID name state =>
    simp only [mapOpenPart, Message.Part.untimed, Tool.State.openInput_untimed]
    cases state.openInput with
    | none => simp
    | some input =>
      cases hsettle : settle callID name input with
      | none | some settled => simp [hsettle]
  | text | reasoning | stepStart | stepFinish => rfl

lemma mapOpenParts_untimed (settle : String → String → PlainObject → Option Tool.State) (m : Message.WithParts) :
    (mapOpenParts settle m).untimed =
      (mapOpenParts (fun callID name input => (settle callID name input).map Tool.State.untimed) m.untimed).untimed := by
  simp only [mapOpenParts, Message.WithParts.untimed, map_map]
  congr 1
  apply map_congr_left
  intro p _
  exact mapOpenPart_untimed settle p

variable {m m' : Message.WithParts} {row : Node} {id : String}

theorem settleToolParts_untimed (h : m.untimed = m'.untimed) (result : Tool.Result) («at» «at'» : ℚ) :
    (settleToolParts m result «at»).untimed = (settleToolParts m' result «at'»).untimed := by
  unfold settleToolParts
  rw [mapOpenParts_untimed, mapOpenParts_untimed _ m', h]
  congr 2
  funext callID name input
  split
  · simp only [Option.map_some, settledState]
    split <;> rfl
  · rfl

lemma cancelOpenToolParts_untimed (h : m.untimed = m'.untimed) (error : String) («at» : ℚ) :
    (cancelOpenToolParts m error «at»).untimed = (cancelOpenToolParts m' error «at»).untimed := by
  unfold cancelOpenToolParts
  rw [mapOpenParts_untimed, mapOpenParts_untimed _ m', h]

namespace Folding

/-- What of a fold shows in its messages later, without the times of the calls. -/
def untimed (f : Folding) : Folding :=
  { f with messages := f.messages.map Message.WithParts.untimed, compatibility := [], successorActionId := none, budgetState := none }

/-- Two folds whose messages are equal up to timestamps, and stay so under the same rows. -/
def Alike (f g : Folding) : Prop := f.untimed.Same g.untimed

variable {f g : Folding}

lemma Alike.symm (h : f.Alike g) : g.Alike f := Same.symm h

lemma Alike.trans {k : Folding} (h : f.Alike g) (h' : g.Alike k) : f.Alike k := Same.trans h h'

lemma Unique.alike (h : f.Unique) : f.Alike f := ⟨rfl, rfl, rfl, rfl, rfl, .refl h.parents, .refl h.messageTurns⟩

lemma Alike.messages (h : f.Alike g) :
    f.messages.map Message.WithParts.untimed = g.messages.map Message.WithParts.untimed := Same.messages h

lemma Alike.infos (h : f.Alike g) : f.messages.map (·.info) = g.messages.map (·.info) := by
  have hinfos := congrArg (List.map fun m : Message.WithParts => m.info) h.messages
  simpa [map_map, Function.comp_def] using hinfos

lemma Alike.mk (hmessages : f.messages.map Message.WithParts.untimed = g.messages.map Message.WithParts.untimed)
    (hcanonical : f.canonicalTurn = g.canonicalTurn) (hparents : Dict.Same f.parents g.parents)
    (hturns : Dict.Same f.messageTurns g.messageTurns) : f.Alike g :=
  ⟨hmessages, hcanonical, rfl, rfl, rfl, hparents, hturns⟩

lemma Alike.canonicalTurn (h : f.Alike g) : f.canonicalTurn = g.canonicalTurn := by
  unfold Alike at h
  exact h.canonicalTurn

lemma Alike.parents (h : f.Alike g) : Dict.Same f.parents g.parents := by
  unfold Alike at h
  exact h.parents

lemma Alike.messageTurns (h : f.Alike g) : Dict.Same f.messageTurns g.messageTurns := by
  unfold Alike at h
  exact h.messageTurns

lemma Alike.enter (h : f.Alike g) (action : Node) : (f.enter action).Alike (g.enter action) := by
  refine Alike.mk h.messages ?_ ?_ h.messageTurns
  · simp only [Folding.enter, h.canonicalTurn]
  · unfold Folding.enter
    dsimp only
    split
    · exact h.parents.set _ _
    · exact h.parents

lemma Alike.deliver (h : f.Alike g) (sessionId : String) (action : Node) :
    (f.deliver sessionId action).Alike (g.deliver sessionId action) := by
  unfold Folding.deliver
  split
  · exact h
  · refine Alike.mk ?_ h.canonicalTurn h.parents h.messageTurns
    simp only [map_append, h.messages]

variable {messages messages' : List Message.WithParts}

lemma upsertMessage_untimed (h : messages.map Message.WithParts.untimed = messages'.map Message.WithParts.untimed)
    (message : Message.WithParts) : (upsertMessage messages message).map Message.WithParts.untimed =
      (upsertMessage messages' message).map Message.WithParts.untimed := by
  have hindex : ∀ ms : List Message.WithParts, ms.findIdx? (·.info.id = message.info.id) =
      (ms.map Message.WithParts.untimed).findIdx? (·.info.id = message.info.id) := by
    intro ms
    rw [findIdx?_map]
    rfl
  unfold upsertMessage
  rw [hindex, hindex messages', h]
  split
  · simp only [map_append, h]
  · simp only [map_set, h]

lemma Alike.snapshot (h : f.Alike g) (turnId : Option (Option String)) (message : Option Message.WithParts) :
    (f.snapshot turnId message).Alike (g.snapshot turnId message) := by
  unfold Folding.snapshot
  split
  · exact h
  · exact Alike.mk (upsertMessage_untimed h.messages _) rfl h.parents (h.messageTurns.set _ _)

lemma Alike.compact (h : f.Alike g) (action : Node) (projection : Option (List Message.WithParts)) :
    (f.compact action projection).Alike (g.compact action projection) := by
  unfold Folding.compact
  split
  · exact h
  · exact Alike.mk rfl h.canonicalTurn h.parents h.messageTurns

theorem map_untimed (h : messages.map Message.WithParts.untimed = messages'.map Message.WithParts.untimed)
    {change change' : Message.WithParts → Message.WithParts}
    (hchange : ∀ m m', m.untimed = m'.untimed → (change m).untimed = (change' m').untimed) :
    (messages.map change).map Message.WithParts.untimed = (messages'.map change').map Message.WithParts.untimed := by
  induction messages generalizing messages' with
  | nil =>
    obtain rfl := map_eq_nil_iff.mp h.symm
    rfl
  | cons m messages ih =>
    cases messages' with
    | nil => cases h
    | cons m' messages' =>
      obtain ⟨hm, hrest⟩ := List.cons.inj h
      simp only [map_cons]
      rw [hchange m m' hm, ih hrest]

lemma Alike.settle (h : f.Alike g) (turnId : Option (Option String)) (action : Node) (result : Option Tool.Result) :
    (f.settle turnId action result).Alike (g.settle turnId action result) := by
  unfold Folding.settle
  split
  · exact h
  · refine Alike.mk ?_ h.canonicalTurn h.parents h.messageTurns
    apply map_untimed h.messages
    intro m m' hm
    have hinfo : m.info = m'.info := congrArg (·.info) hm
    rw [hinfo, h.messageTurns.get?]
    split
    · exact settleToolParts_untimed hm _ _ _
    · exact hm

lemma Alike.say (h : f.Alike g) (action : Node) (text : String) : (f.say action text).Alike (g.say action text) := by
  have hlast : f.messages.getLast?.map (·.info.id) = g.messages.getLast?.map (·.info.id) := by
    have hinfos := congrArg List.getLast? h.infos
    rw [getLast?_map, getLast?_map] at hinfos
    have hids := congrArg (Option.map Message.Info.id) hinfos
    simpa [Option.map_map, Function.comp_def] using hids
  unfold Folding.say
  split
  · exact h
  · refine Alike.mk ?_ h.canonicalTurn h.parents h.messageTurns
    dsimp only
    rw [h.canonicalTurn, hlast]
    split
    · exact h.messages
    · simp only [map_append, h.messages]

lemma Alike.terminal (h : f.Alike g) (action : Node) : (f.terminal action).Alike (g.terminal action) := by
  unfold Folding.terminal
  split
  · exact h
  · rename_i terminal _
    have hsaid := h.say action terminal.text
    refine Alike.mk ?_ hsaid.canonicalTurn (hsaid.parents.erase _) hsaid.messageTurns
    dsimp only
    split
    · exact map_untimed hsaid.messages fun m m' hm => cancelOpenToolParts_untimed hm _ _
    · exact hsaid.messages

lemma Alike.leave (h : f.Alike g) (action : Node) : (f.leave action).Alike (g.leave action) := by
  unfold Folding.leave
  split
  · exact h
  · split
    · exact Alike.mk h.messages h.canonicalTurn (h.parents.erase _) h.messageTurns
    · exact h

lemma any_eq_of_infos (h : messages.map (·.info) = messages'.map (·.info)) (id : String) :
    messages.any (·.info.id = id) = messages'.any (·.info.id = id) := by
  have hany := congrArg (fun infos : List Message.Info => infos.any (·.id = id)) h
  simpa [any_map, Function.comp_def] using hany

lemma Alike.prune (h : f.Alike g) : f.prune.Alike g.prune := by
  refine Alike.mk h.messages h.canonicalTurn h.parents ?_
  apply h.messageTurns.filter
  intro e
  simp only [any_eq_of_infos h.infos, h.parents.contains]

end Folding

section
variable [PlainCoding] {sessionId : String} {f g : Folding}

lemma Folding.Alike.apply (h : f.Alike g) (action : Node) :
    Option.Rel Folding.Alike (applyHistoryAction sessionId f action) (applyHistoryAction sessionId g action) := by
  unfold applyHistoryAction
  by_cases hkind : action.kind = .foldCheckpoint
  · rw [if_pos hkind, if_pos hkind]
    exact .some h
  rw [if_neg hkind, if_neg hkind]
  dsimp only
  rw [h.parents.get?]
  cases assistantSnapshot action with
  | none => exact .none
  | some snapshot =>
    cases compactionProjection action with
    | none => exact .none
    | some projection =>
      cases toolSettlement action with
      | none => exact .none
      | some result =>
        have hentered := (h.enter action).deliver sessionId action
        have hsettled := ((hentered.snapshot (g.parents.get? (action.parentId.getD "")) snapshot).compact action
          projection).settle (g.parents.get? (action.parentId.getD "")) action result
        exact .some ((hsettled.terminal action).leave action)

lemma Folding.Alike.step (h : f.Alike g) (action : Node) :
    Option.Rel Folding.Alike (foldStep sessionId f action) (foldStep sessionId g action) := by
  unfold foldStep
  rw [Option.map_eq_bind, Option.map_eq_bind]
  exact rel_bind (h.apply action) fun _ _ hnext => .some hnext.prune

lemma Folding.Alike.steps (h : f.Alike g) (actions : List Node) :
    Option.Rel Folding.Alike (actions.foldlM (foldStep sessionId) f) (actions.foldlM (foldStep sessionId) g) := by
  induction actions generalizing f g with
  | nil => exact .some h
  | cons action actions ih =>
    rw [foldlM_cons, foldlM_cons]
    exact rel_bind (h.step action) fun _ _ hnext => ih hnext

end

def resultOf [PlainCoding] (row : Node) : Option Tool.Result := (toolSettlement row).join

/-- A row that brings no message, no projection and no end of a turn. -/
structure Passing [PlainCoding] (sessionId : String) (row : Node) : Prop where
  notCheckpoint : row.kind ≠ .foldCheckpoint
  noPrompt : deliveredPrompt row sessionId = none
  noSnapshot : assistantSnapshot row = some none
  noProjection : compactionProjection row = some none
  parses : toolSettlement row ≠ none
  noTerminal : turnTerminal row = none

lemma Passing.of_tool [PlainCoding] {sessionId : String} (hkind : row.kind = .tool)
    (hparses : toolSettlement row ≠ none) : Passing sessionId row := by
  have hdelivery : deliveryOf row = none := by simp [deliveryOf, hkind, inputRowKinds]
  refine ⟨?_, ?_, ?_, ?_, hparses, ?_⟩
  · simp [hkind]
  · simp [deliveredPrompt, hdelivery]
  · simp [assistantSnapshot, hkind]
  · simp [compactionProjection, hkind]
  · simp [turnTerminal, hkind]

def opensScope (row : Node) : Bool := extractIs row.intent "phase" "intent"

def closesScope (row : Node) : Bool := extractIs row.effect "phase" "result"

def touches (row : Node) : List String :=
  (if opensScope row then [row.id] else []) ++ (if closesScope row then row.parentId.toList else [])

def scopes (parents : Dict String (Option String)) (row : Node) : Dict String (Option String) :=
  let opened := if opensScope row then parents.set row.id row.parentId else parents
  match row.parentId with
  | none => opened
  | some parentId => if closesScope row then opened.erase parentId else opened

section
variable {parents : Dict String (Option String)}

lemma scopes_get?_of_notMem (h : id ∉ touches row) :
    (scopes parents row).get? id = parents.get? id := by
  unfold touches at h
  have hopened : (if opensScope row then parents.set row.id row.parentId else parents).get? id = parents.get? id := by
    split
    · rename_i hopens
      apply Dict.get?_set_of_ne
      rintro rfl
      simp [hopens] at h
    · rfl
  unfold scopes
  dsimp only
  split
  · exact hopened
  · rename_i parentId hparent
    split
    · rename_i hcloses
      have hne : id ≠ parentId := by
        rintro rfl
        simp [hcloses, hparent] at h
      rw [Dict.get?_erase, if_neg hne, hopened]
    · exact hopened

theorem scopes_get?_of_mem (parents' : Dict String (Option String))
    (h : id ∈ touches row) : (scopes parents row).get? id = (scopes parents' row).get? id := by
  by_cases hclosed : closesScope row ∧ row.parentId = some id
  · obtain ⟨hcloses, hparent⟩ := hclosed
    simp [scopes, hcloses, hparent, Dict.get?_erase]
  · have hopened : opensScope row = true ∧ id = row.id := by
      unfold touches at h
      rcases mem_append.mp h with h | h
      · split at h
        · rename_i hopens
          exact ⟨hopens, mem_singleton.mp h⟩
        · cases h
      · split at h
        · rename_i hcloses
          exact absurd ⟨hcloses, Option.mem_toList.mp h⟩ hclosed
        · cases h
    obtain ⟨hopens, rfl⟩ := hopened
    unfold scopes
    dsimp only
    rw [if_pos hopens, if_pos hopens]
    split
    · rw [Dict.get?_set_self, Dict.get?_set_self]
    · rename_i parentId hparent
      split
      · rename_i hcloses
        have hne : row.id ≠ parentId := by
          rintro rfl
          exact hclosed ⟨hcloses, hparent⟩
        rw [Dict.get?_erase, Dict.get?_erase, if_neg hne, if_neg hne, Dict.get?_set_self, Dict.get?_set_self]
      · rw [Dict.get?_set_self, Dict.get?_set_self]

lemma scopes_unique (h : parents.Unique) (row : Node) :
    (scopes parents row).Unique := by
  have hopened : (if opensScope row then parents.set row.id row.parentId else parents).Unique := by
    split
    · exact h.set _ _
    · exact h
  unfold scopes
  dsimp only
  split
  · exact hopened
  · split
    · exact hopened.erase _
    · exact hopened

end

theorem scopes_comm (parents : Dict String (Option String)) {a b : Node} (h : List.Disjoint (touches a) (touches b))
    (id : String) : (scopes (scopes parents a) b).get? id = (scopes (scopes parents b) a).get? id := by
  by_cases ha : id ∈ touches a
  · rw [scopes_get?_of_notMem (h ha)]
    exact scopes_get?_of_mem _ ha
  · rw [scopes_get?_of_notMem ha]
    by_cases hb : id ∈ touches b
    · exact scopes_get?_of_mem _ hb
    · rw [scopes_get?_of_notMem hb, scopes_get?_of_notMem hb, scopes_get?_of_notMem ha]

namespace Folding

variable {f g : Folding}

def settleIn (f : Folding) (turnId : Option (Option String)) (result : Option Tool.Result) («at» : ℚ)
    (message : Message.WithParts) : Message.WithParts :=
  match result with
  | none => message
  | some result => if f.messageTurns.get? message.info.id = turnId then settleToolParts message result «at» else message

@[simp] theorem settleIn_info (f : Folding) (turnId : Option (Option String)) (result : Option Tool.Result) («at» : ℚ)
    (message : Message.WithParts) : (f.settleIn turnId result «at» message).info = message.info := by
  unfold settleIn
  split
  · rfl
  · split <;> rfl

def turnOf (f : Folding) (row : Node) : Option (Option String) := f.parents.get? (row.parentId.getD "")

def pass [PlainCoding] (f : Folding) (row : Node) : Folding :=
  (((f.enter row).settle (f.turnOf row) row (resultOf row)).leave row).prune

section
variable [PlainCoding] {sessionId : String}

lemma foldStep_pass {row : Node} (h : Passing sessionId row) : foldStep sessionId f row = some (f.pass row) := by
  have hresult : toolSettlement row = some (resultOf row) := by
    unfold resultOf
    cases hsettles : toolSettlement row with
    | none => exact absurd hsettles h.parses
    | some result => rfl
  have hterminal : ∀ k : Folding, k.terminal row = k := by
    intro k
    unfold Folding.terminal
    rw [h.noTerminal]
  have hdeliver : (f.enter row).deliver sessionId row = f.enter row := by
    unfold Folding.deliver
    rw [h.noPrompt]
  unfold foldStep applyHistoryAction
  rw [if_neg h.notCheckpoint]
  dsimp only
  rw [h.noSnapshot, h.noProjection, hresult, hdeliver]
  simp only [Option.bind_eq_bind, Option.bind_some, hterminal]
  rfl

lemma foldSteps_pass {rows : List Node} (h : ∀ row ∈ rows, Passing sessionId row) :
    rows.foldlM (foldStep sessionId) f = some (rows.foldl pass f) := by
  induction rows generalizing f with
  | nil => rfl
  | cons row rows ih =>
    rw [foldlM_cons, foldStep_pass (h row mem_cons_self), foldl_cons]
    exact ih fun next hnext => h next (mem_cons_of_mem row hnext)

omit [PlainCoding] in
lemma settle_eq (f : Folding) (turnId : Option (Option String)) (row : Node) (result : Option Tool.Result) :
    f.settle turnId row result = { f with messages := f.messages.map (f.settleIn turnId result row.ts) } := by
  cases result with
  | none =>
    have hmap : f.messages.map (f.settleIn turnId none row.ts) = f.messages := map_id'' (fun _ => rfl) _
    rw [hmap]
    rfl
  | some result => rfl

lemma pass_messages (f : Folding) (row : Node) :
    (f.pass row).messages = f.messages.map (f.settleIn (f.turnOf row) (resultOf row) row.ts) := by
  unfold pass
  rw [settle_eq]
  unfold leave prune
  split
  · rfl
  · split <;> rfl

lemma pass_parents (f : Folding) (row : Node) : (f.pass row).parents = scopes f.parents row := by
  unfold pass scopes
  rw [settle_eq]
  unfold leave prune enter opensScope closesScope
  split
  · rename_i hparent
    rw [hparent]
  · rename_i parentId hparent
    rw [hparent]
    dsimp only
    split <;> rfl

lemma pass_canonicalTurn (f : Folding) (row : Node) :
    (f.pass row).canonicalTurn = if opensTurn row then false else f.canonicalTurn := by
  unfold pass
  rw [settle_eq]
  unfold leave prune enter
  split
  · rfl
  · split <;> rfl

def keeps (f : Folding) (e : String × Option String) : Bool :=
  f.messages.any (·.info.id = e.1) || e.2.any fun turnId => f.parents.contains turnId

lemma pass_messageTurns (f : Folding) (row : Node) :
    (f.pass row).messageTurns = f.messageTurns.filter (f.pass row).keeps := by
  unfold pass
  rw [settle_eq]
  unfold leave
  split
  · rfl
  · split <;> rfl

lemma pass_infos (f : Folding) (row : Node) : (f.pass row).messages.map (·.info) = f.messages.map (·.info) := by
  rw [pass_messages, map_map]
  apply map_congr_left
  intro m _
  exact settleIn_info _ _ _ _ m

lemma Unique.pass (h : f.Unique) (row : Node) : (f.pass row).Unique := by
  constructor
  · rw [pass_parents]
    exact scopes_unique h.parents row
  · rw [pass_messageTurns]
    exact h.messageTurns.filter _

lemma pruned_pass (f : Folding) (row : Node) : (f.pass row).Pruned := pruned_prune _

end
end Folding

end OpenOmni
