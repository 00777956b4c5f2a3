import Mathlib.Data.List.Induction
import OpenOmni.Gate.Message
import OpenOmni.Journal.Delivery
import OpenOmni.Journal.TurnActions
import OpenOmni.Store.TurnReads

/-! Whose authority a turn acts under: the newest external speaker among the inputs it consumed. -/
namespace OpenOmni
namespace OwnerOrigin
open PlainValue SessionTurn SessionTransition List

def actionById (rows : List Node) (id : String) : Option Node := rows.find? (·.id = id)

/-- `TurnDeliveries.safeParse`. -/
def turnDeliveries (turn : PlainValue) : Option (List String) := field turn "deliveryIds" (asList readId)

/-- `ExternalKind.safeParse`. -/
def isExternal (origin : PlainValue) : Bool := (origin.get? "kind").any (· = .str "external")

inductive Treatment where
  | fullAccess | evidenceOnly
deriving DecidableEq

def Treatment.text : Treatment → String
  | .fullAccess => "full_access"
  | .evidenceOnly => "evidence_only"

/-- `OwnerOrigin`. -/
structure Origin where
  actorId : Option String
  inboundTreatment : Option Treatment

/-- `OwnerOrigin.safeParse`. -/
def Origin.ofPlain (origin : PlainValue) : Option Origin := do
  guard (isExternal origin)
  let actorId ← optional asStr (origin.get? "actorId")
  let inboundTreatment ← optional (readEnum [.fullAccess, .evidenceOnly] Treatment.text)
    (origin.get? "inboundTreatment")
  return ⟨actorId, inboundTreatment⟩

section
variable (tier : String → Option TrustTier) (rows : List Node)

/-- What the newest external row decides; `tier` is what the actor registry holds. -/
def decides (origin : PlainValue) : Bool :=
  match Origin.ofPlain origin with
  | none => false
  | some origin =>
    if origin.inboundTreatment = some .evidenceOnly then false
    else match origin.actorId with
      | none => false
      | some actorId => actorId ≠ "" && tier actorId = some .owner

/-- The loop of `ownerOriginTurn`, over the ids from the newest on. -/
def newestDecides : List String → Bool
  | [] => false
  | id :: ids =>
    match (actionById rows id).map (·.intent) with
    | none => newestDecides ids
    | some origin => if isExternal origin then decides tier origin else newestDecides ids

/-- `ownerOriginTurn`; a read of the open turn that throws answers nothing. -/
def ownerOriginTurn : Bool :=
  match latestOpenTurnIn rows with
  | some (some «open») =>
    match ((actionById rows open.turnId).map (·.intent)).bind turnDeliveries with
    | none => false
    | some deliveryIds => newestDecides tier rows deliveryIds.reverse
  | _ => false

/-- `ownerOrigin` of `prepareMessage`, for a send to an actor as the owner. -/
def prepared (asOwner : Bool) : Bool := asOwner && ownerOriginTurn tier rows

end

inductive HistoryEvent where
  /-- Rows of no turn: received inputs, deliveries, the rows of a run, fold checkpoints. -/
  | rows (actions : List Append)
  | started (id : String) (parentId : Option String) (sessionId : String) («at» : ℚ) (intent : Intent)
  | resumed (id : String) (parentId : Option String) (sessionId : String) («at» : ℚ) (resume : Resume)
  | drained (id : String) (parentId : Option String) (sessionId : String) («at» : ℚ)
      (checkpoint : Checkpoint) (deliveryIds consumedStale : List String)
  | stopped (id : String) (parentId : Option String) (sessionId : String) («at» : ℚ) (generation : ℕ)
      (verdict state : PlainValue)
  | sealed (id : String) (parentId : Option String) (sessionId : String) («at» : ℚ) (terminal : Terminal)

def turnStopAction (id : String) (parentId : Option String) (sessionId : String) («at» : ℚ)
    (generation : ℕ) (verdict state : PlainValue) : Append where
  id := id
  parentId := parentId
  sessionId := sessionId
  kind := .turn
  intent := record [("phase", some (.str "stop")), ("generation", some (.num generation))]
  effect := record [("phase", some (.str "stop")), ("verdict", some verdict), ("state", some state)]
  ts := «at»

/-- The rows of an event. A turn's intent and its resume are pinned to a context by the fold writer. -/
def HistoryEvent.actions : HistoryEvent → List Append
  | .rows actions => actions
  | .started id parentId sessionId ts intent => [turnEnvelopeAction id parentId sessionId ts intent.toPlain]
  | .resumed id parentId sessionId ts resume => [turnEnvelopeAction id parentId sessionId ts resume.toPlain]
  | .drained id parentId sessionId ts checkpoint deliveryIds stale =>
    [turnCheckpointAction id parentId sessionId checkpoint deliveryIds stale ts]
  | .stopped id parentId sessionId ts generation verdict state =>
    [turnStopAction id parentId sessionId ts generation verdict state]
  | .sealed id parentId sessionId ts terminal => [turnTerminalAction id parentId sessionId terminal ts]

section
variable (rows : List Node)

def openTurnId : Option String := ((latestOpenTurnIn rows).bind id).map (·.turnId)

def known (ids : List String) : Bool := ids.all fun id => (actionById rows id).isSome

/-- When an event is committed: a turn starts where none is open, the rows of a turn are of the open one,
and every input consumed was received. -/
def HistoryEvent.admitted : HistoryEvent → Bool
  | .rows actions => actions.all fun action => action.kind ≠ .turn
  | .started _ _ _ _ intent => openTurnId rows = none && intent.valid && known rows intent.deliveryIds
  | .resumed _ _ _ _ resume => openTurnId rows = some resume.turnId
  | .drained _ _ _ _ checkpoint deliveryIds _ =>
    openTurnId rows = some checkpoint.turnId && known rows deliveryIds
  | .stopped .. => true
  | .sealed _ _ _ _ terminal => openTurnId rows = some terminal.turnId

def numbered (start : ℕ) : List Append → List Node
  | [] => []
  | action :: actions => ⟨action, start + 1⟩ :: numbered (start + 1) actions

def step (event : HistoryEvent) : Option (List Node) :=
  let rows' := rows ++ numbered rows.length event.actions
  if event.admitted rows && decide ((rows'.map (·.id)).Nodup) then some rows' else none

end

section
variable (tier : String → Option TrustTier) (rows : List Node)

def consumedIds (value : PlainValue) : List String := (field value "deliveryIds" (asList asStr)).getD []

def isBoundaryOf (turnId : String) (action : Node) : Bool :=
  action.kind = .turn && extractIs action.intent "phase" "checkpoint" &&
    extractIs action.intent "turnId" turnId

def startIds (turnId : String) : List String :=
  ((actionById rows turnId).map fun action => consumedIds action.intent).getD []

/-- The inputs a turn has consumed so far, at its start and then at each boundary. -/
def consumedBy (turnId : String) : List String :=
  startIds rows turnId ++
    (rows.filter (isBoundaryOf turnId)).flatMap fun action => consumedIds action.intent

def newestExternal (ids : List String) : Option PlainValue :=
  (ids.filterMap fun id => ((actionById rows id).map (·.intent)).filter isExternal).getLast?

/-- The input came from an identity of owner tier, with full access. -/
def OwnerSpoke (origin : PlainValue) : Prop :=
  (∃ actorId, origin.get? "actorId" = some (.str actorId) ∧ tier actorId = some .owner) ∧
    origin.get? "inboundTreatment" = some (.str "full_access")

/-- Owner authority follows the newest speaker: what a call of the open turn is prepared with. -/
def FollowsSpeaker : Prop :=
  ∀ asOwner, prepared tier rows asOwner = true → ∃ turnId origin, openTurnId rows = some turnId ∧
    newestExternal rows (consumedBy rows turnId) = some origin ∧ OwnerSpoke tier origin

end

variable {rows new : List Node} {id turnId : String} {ids : List String} {node : Node}

lemma actionById_append (h : (actionById rows id).isSome) :
    actionById (rows ++ new) id = actionById rows id := by
  unfold actionById at h ⊢
  rw [find?_append, Option.or_of_isSome h]

lemma known_append (h : known rows ids = true) : known (rows ++ new) ids = true := by
  unfold known at h ⊢
  rw [all_eq_true] at h ⊢
  intro id hid
  rw [actionById_append (h id hid)]
  exact h id hid

lemma newestExternal_append (h : known rows ids = true) :
    newestExternal (rows ++ new) ids = newestExternal rows ids := by
  unfold newestExternal
  rw [filterMap_congr fun id hid => ?_]
  rw [actionById_append (all_eq_true.mp h id hid)]

lemma newestExternal_concat (later : List String) :
    newestExternal rows (ids ++ later) = (newestExternal rows later).or (newestExternal rows ids) := by
  unfold newestExternal
  rw [filterMap_append, getLast?_append]

lemma mem_known (hnode : node ∈ rows) : (actionById rows node.id).isSome := by
  unfold actionById
  rw [find?_isSome]
  exact ⟨node, hnode, by simp⟩

lemma actionById_node (hdistinct : (rows.map (·.id)).Nodup) (hnode : node ∈ rows) :
    actionById rows node.id = some node := by
  unfold actionById
  induction rows with
  | nil => cases hnode
  | cons first rows ih =>
    rw [map_cons, nodup_cons] at hdistinct
    cases mem_cons.mp hnode with
    | inl heq => rw [heq, find?_cons_of_pos (by simp)]
    | inr hrest =>
      have hne : first.id ≠ node.id := fun heq => hdistinct.1 (heq ▸ mem_map_of_mem hrest)
      rw [find?_cons_of_neg (by simpa using hne), ih hdistinct.2 hrest]

lemma actionById_fresh (hdistinct : ((rows ++ [node]).map (·.id)).Nodup) :
    actionById rows node.id = none := by
  rw [map_append, nodup_append'] at hdistinct
  unfold actionById
  rw [find?_eq_none]
  intro other hother hid
  have heq : other.id = node.id := of_decide_eq_true hid
  exact hdistinct.2.2 (mem_map_of_mem hother) (heq ▸ mem_singleton_self node.id)

theorem newestDecides_reverse (tier : String → Option TrustTier) (ids : List String) :
    newestDecides tier rows ids.reverse = (newestExternal rows ids).elim false (decides tier) := by
  induction ids using List.reverseRecOn with
  | nil => rfl
  | append_singleton ids id ih =>
    rw [reverse_append, reverse_singleton, singleton_append, newestExternal_concat]
    unfold newestDecides
    cases horigin : (actionById rows id).map (·.intent) with
    | none =>
      have hnone : newestExternal rows [id] = none := by
        unfold newestExternal
        simp [horigin]
      rw [hnone, Option.none_or]
      exact ih
    | some origin =>
      dsimp only
      by_cases hexternal : isExternal origin = true
      · have hsome : newestExternal rows [id] = some origin := by
          unfold newestExternal
          simp [horigin, hexternal]
        rw [if_pos hexternal, hsome]
        rfl
      · have hnone : newestExternal rows [id] = none := by
          unfold newestExternal
          simp [horigin, hexternal]
        rw [if_neg hexternal, hnone, Option.none_or]
        exact ih

def opens (rows : List Node) (action : Node) : Bool :=
  action.kind = .turn && extractIs action.intent "phase" "intent" && 0 < action.ordinal &&
    !rows.any (isTerminalOf action.id)

structure HistoryKept (rows : List Node) : Prop where
  positive : ∀ node ∈ rows, 0 < node.ordinal
  distinct : (rows.map (·.id)).Nodup
  oneOpen : (rows.filter (opens rows)).length ≤ 1
  intents : ∀ node ∈ rows, node.kind = .turn → extractIs node.intent "phase" "intent" = true →
    (∃ intent, turnIntent node = some intent ∧ known rows intent.deliveryIds = true) ∧
      ∀ turnId, extractIs node.intent "turnId" turnId = false ∧ extractIs node.effect "turnId" turnId = false
  boundaries : ∀ node ∈ rows, ∀ turnId, isBoundaryOf turnId node = true →
    known rows (consumedIds node.intent) = true ∧ (actionById rows turnId).isSome
  terminals : ∀ node ∈ rows, ∀ turnId, isTerminalOf turnId node = true → (actionById rows turnId).isSome

lemma turnIntent_phase {intent : Intent} (h : turnIntent node = some intent) :
    node.kind = .turn ∧ extractIs node.intent "phase" "intent" = true := by
  unfold turnIntent at h
  split at h
  · case isTrue hkind =>
    refine ⟨hkind, ?_⟩
    simp [extractIs, (Intent.ofPlain_strict h).2]
  · cases h

theorem openTurns_update {intent : Intent} {update : Node} (h : turnIntent node = some intent)
    (hupdate : turnIntent update = none)
    (hterminal : ∀ terminal, turnTerminal update = some terminal → terminal.turnId ≠ node.id) :
    ∃ turn, openTurns [node, update] = [turn] ∧ turn.turnId = node.id := by
  let opened : OpenTurn :=
    ⟨node.id, intent.resultId, intent.resumeCount, intent.boundaryActionId, intent.pinned, node⟩
  have hopened : openTurnsStep Dict.empty node = Dict.empty.set node.id opened := by
    unfold openTurnsStep
    rw [h]
  have hget : ∀ key, (Dict.empty.set node.id opened).get? key =
      if key = node.id then some opened else none := by
    intro key
    rw [Dict.get?_set, Dict.get?_empty]
  -- only the open turn's own key is ever set again
  have hset : ∀ turn : OpenTurn, turn.turnId = node.id →
      ∃ last, (((Dict.empty.set node.id opened).set node.id turn).values) = [last] ∧
        last.turnId = node.id := by
    intro turn hturn
    exact ⟨turn, by simp [Dict.set, Dict.empty, Dict.contains, Dict.values], hturn⟩
  have hstays : ∃ last, (Dict.empty.set node.id opened).values = [last] ∧ last.turnId = node.id :=
    ⟨opened, by simp [Dict.set, Dict.empty, Dict.contains, Dict.values], rfl⟩
  unfold openTurns
  rw [foldl_cons, foldl_cons, foldl_nil, hopened]
  unfold openTurnsStep
  rw [hupdate]
  dsimp only
  cases turnResume update with
  | some resume =>
    dsimp only
    rw [hget]
    by_cases hkey : resume.turnId = node.id
    · rw [if_pos hkey, hkey]
      exact hset _ rfl
    · rw [if_neg hkey]
      exact hstays
  | none =>
    dsimp only
    cases turnCheckpoint update with
    | some checkpoint =>
      dsimp only
      rw [hget]
      by_cases hkey : checkpoint.turnId = node.id
      · rw [if_pos hkey, hkey]
        exact hset _ rfl
      · rw [if_neg hkey]
        exact hstays
    | none =>
      dsimp only
      cases hclosed : turnTerminal update with
      | none => exact hstays
      | some terminal =>
        have hne := hterminal terminal hclosed
        refine ⟨opened, ?_, rfl⟩
        simp [Dict.set, Dict.empty, Dict.contains, Dict.values, Dict.erase, hne.symm]

lemma openTurns_intent {intent : Intent} (h : turnIntent node = some intent) :
    ∃ turn, openTurns [node] = [turn] ∧ turn.turnId = node.id := by
  refine ⟨⟨node.id, intent.resultId, intent.resumeCount, intent.boundaryActionId, intent.pinned, node⟩,
    ?_, rfl⟩
  unfold openTurns
  rw [foldl_cons, foldl_nil]
  unfold openTurnsStep
  rw [h]
  simp [Dict.set, Dict.empty, Dict.contains, Dict.values]

theorem openTurn_of_intent (h : HistoryKept rows) (hnode : node ∈ rows.filter (opens rows)) :
    ∃ turn, (match latestTurnUpdate rows node.id with
      | none => openTurns [node]
      | some update => openTurns [node, update]) = [turn] ∧ turn.turnId = node.id := by
  obtain ⟨hmem, hopens⟩ := mem_filter.mp hnode
  simp only [opens, Bool.and_eq_true, decide_eq_true_eq, Bool.not_eq_true'] at hopens
  obtain ⟨⟨⟨hkind, hphase⟩, -⟩, hopen⟩ := hopens
  obtain ⟨⟨intent, hintent, -⟩, -⟩ := h.intents node hmem hkind hphase
  cases hupdate : latestTurnUpdate rows node.id with
  | none => exact openTurns_intent hintent
  | some update =>
    have hin := latestTurnUpdate_mem hupdate
    have hmatch := (mem_filter.mp (mem_of_getLast? hupdate)).2
    simp only [Bool.and_eq_true, decide_eq_true_eq, Bool.or_eq_true] at hmatch
    refine openTurns_update hintent ?_ fun terminal hterminal heq => ?_
    · -- an intent names no other turn
      by_contra hsome
      obtain ⟨other, hother⟩ := Option.ne_none_iff_exists'.mp hsome
      obtain ⟨hkind', hphase'⟩ := turnIntent_phase hother
      obtain ⟨hno, hno'⟩ := (h.intents update hin hkind' hphase').2 node.id
      rw [hno, hno'] at hmatch
      simp at hmatch
    · obtain ⟨hkind', hphase', hturn⟩ := turnTerminal_some hterminal
      have hclosed : rows.any (isTerminalOf node.id) = true := by
        rw [any_eq_true]
        exact ⟨update, hin, by simp [isTerminalOf, hkind', hphase', ← heq, hturn]⟩
      rw [hopen] at hclosed
      cases hclosed

lemma openIntentsPage_eq (h : HistoryKept rows) :
    openIntentsPage rows 0 = rows.filter (opens rows) := by
  unfold openIntentsPage
  have hle : (rows.filter (opens rows)).length ≤ turnPage := h.oneOpen.trans (by decide)
  exact take_of_length_le hle

theorem openTurnId_eq (h : HistoryKept rows) :
    openTurnId rows = (rows.filter (opens rows)).head?.map (·.id) := by
  have hpage := openIntentsPage_eq h
  cases hopens : rows.filter (opens rows) with
  | nil =>
    have hnil : openTurnsPageIn rows 0 = [] := by
      unfold openTurnsPageIn
      rw [hpage, hopens]
      rfl
    unfold openTurnId
    rw [(latestOpenTurnIn_eq_nothing rows).mpr hnil]
    rfl
  | cons node others =>
    have hone := h.oneOpen
    rw [hopens, length_cons] at hone
    have hothers : others = [] := length_eq_zero_iff.mp (by omega)
    subst hothers
    obtain ⟨turn, hturn, hid⟩ := openTurn_of_intent h (hopens ▸ mem_singleton_self node)
    have hone : openTurnsPageIn rows 0 = [turn] := by
      unfold openTurnsPageIn
      rw [hpage, hopens, flatMap_singleton]
      exact hturn
    have hlatest : latestOpenTurnIn rows = some (some turn) := by
      unfold latestOpenTurnIn latestOpenTurnLoop
      rw [hone]
      rfl
    unfold openTurnId
    rw [hlatest]
    exact congrArg some hid

end OwnerOrigin

end OpenOmni
