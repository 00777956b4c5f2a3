import OpenOmni.Session.OwnerOrigin

/-! What each event of a session's history does to its open turn, and to what the turn has consumed. -/
namespace OpenOmni
open List
open Option (bind_eq_some_iff bind_some)

open PlainValue SessionTurn SessionTransition

namespace OwnerOrigin

variable {rows rows' new : List Node} {id turnId : String} {ids : List String} {node : Node}

def Quiet (new : List Node) : Prop :=
  ∀ node ∈ new, node.kind = .turn →
    extractIs node.intent "phase" "intent" = false ∧ ∀ turnId, isTerminalOf turnId node = false

lemma isTerminalOf_kind (h : isTerminalOf turnId node = true) : node.kind = .turn := by
  simp only [isTerminalOf, Bool.and_eq_true, decide_eq_true_eq] at h
  exact h.1.1

lemma any_terminal_quiet (h : Quiet new) (turnId : String) :
    (rows ++ new).any (isTerminalOf turnId) = rows.any (isTerminalOf turnId) := by
  have hnone : new.any (isTerminalOf turnId) = false := by
    rw [any_eq_false]
    intro node hnode hterminal
    rw [(h node hnode (isTerminalOf_kind hterminal)).2 turnId] at hterminal
    cases hterminal
  rw [any_append, hnone, Bool.or_false]

theorem opens_quiet (h : Quiet new) :
    (rows ++ new).filter (opens (rows ++ new)) = rows.filter (opens rows) := by
  have hsame : ∀ node, opens (rows ++ new) node = opens rows node := by
    intro node
    unfold opens
    rw [any_terminal_quiet h]
  have hnew : new.filter (opens rows) = [] := by
    rw [filter_eq_nil_iff]
    intro node hnode hopens
    simp only [opens, Bool.and_eq_true, decide_eq_true_eq] at hopens
    have hphase := (h node hnode hopens.1.1.1).1
    rw [hopens.1.1.2] at hphase
    cases hphase
  rw [filter_congr fun node _ => hsame node, filter_append, hnew, append_nil]

lemma consumedIds_record {value : PlainValue} (h : value.get? "deliveryIds" = some (.arr (ids.map .str))) :
    consumedIds value = ids := by
  unfold consumedIds field
  rw [h, bind_some, asList_str]
  rfl

lemma numbered_pos (start : ℕ) (actions : List Append) :
    ∀ node ∈ numbered start actions, 0 < node.ordinal := by
  induction actions generalizing start with
  | nil => nofun
  | cons action actions ih =>
    intro node hnode
    cases mem_cons.mp hnode with
    | inl heq => rw [heq]; exact Nat.succ_pos start
    | inr hrest => exact ih (start + 1) node hrest

lemma numbered_append (start : ℕ) (actions : List Append) :
    ∀ node ∈ numbered start actions, node.toAppend ∈ actions := by
  induction actions generalizing start with
  | nil => nofun
  | cons action actions ih =>
    intro node hnode
    cases mem_cons.mp hnode with
    | inl heq => rw [heq]; exact mem_cons_self
    | inr hrest => exact mem_cons_of_mem _ (ih (start + 1) node hrest)

lemma step_some {event : HistoryEvent} (h : step rows event = some rows') :
    event.admitted rows = true ∧ (rows'.map (·.id)).Nodup ∧
      rows' = rows ++ numbered rows.length event.actions := by
  unfold step at h
  dsimp only at h
  split at h
  · case isTrue hadmitted =>
    simp only [Bool.and_eq_true, decide_eq_true_eq] at hadmitted
    cases h
    exact ⟨hadmitted.1, hadmitted.2, rfl⟩
  · cases h

section
variable (h : HistoryKept rows) (hpositive : ∀ node ∈ new, 0 < node.ordinal)
  (hdistinct : ((rows ++ new).map (·.id)).Nodup)
include h hpositive hdistinct

theorem HistoryKept.append (honeOpen : ((rows ++ new).filter (opens (rows ++ new))).length ≤ 1)
    (hintents : ∀ node ∈ new, node.kind = .turn → extractIs node.intent "phase" "intent" = true →
      (∃ intent, turnIntent node = some intent ∧ known rows intent.deliveryIds = true) ∧
        ∀ turnId, extractIs node.intent "turnId" turnId = false ∧
          extractIs node.effect "turnId" turnId = false)
    (hboundaries : ∀ node ∈ new, ∀ turnId, isBoundaryOf turnId node = true →
      known rows (consumedIds node.intent) = true ∧ (actionById rows turnId).isSome)
    (hterminals : ∀ node ∈ new, ∀ turnId, isTerminalOf turnId node = true →
      (actionById rows turnId).isSome) :
    HistoryKept (rows ++ new) := by
  refine ⟨fun node hnode => ?_, hdistinct, honeOpen, fun node hnode hkind hphase => ?_,
    fun node hnode turnId hboundary => ?_, fun node hnode turnId hterminal => ?_⟩
  · cases mem_append.mp hnode with
    | inl hold => exact h.positive node hold
    | inr hnew => exact hpositive node hnew
  · have hfound : (∃ intent, turnIntent node = some intent ∧ known rows intent.deliveryIds = true) ∧
        ∀ turnId, extractIs node.intent "turnId" turnId = false ∧
          extractIs node.effect "turnId" turnId = false := by
      cases mem_append.mp hnode with
      | inl hold => exact h.intents node hold hkind hphase
      | inr hnew => exact hintents node hnew hkind hphase
    obtain ⟨⟨intent, hintent, hknown⟩, hno⟩ := hfound
    exact ⟨⟨intent, hintent, known_append hknown⟩, hno⟩
  · have hfound : known rows (consumedIds node.intent) = true ∧ (actionById rows turnId).isSome := by
      cases mem_append.mp hnode with
      | inl hold => exact h.boundaries node hold turnId hboundary
      | inr hnew => exact hboundaries node hnew turnId hboundary
    refine ⟨known_append hfound.1, ?_⟩
    rw [actionById_append hfound.2]
    exact hfound.2
  · have hfound : (actionById rows turnId).isSome := by
      cases mem_append.mp hnode with
      | inl hold => exact h.terminals node hold turnId hterminal
      | inr hnew => exact hterminals node hnew turnId hterminal
    rw [actionById_append hfound]
    exact hfound

lemma HistoryKept.quiet (hquiet : Quiet new)
    (hboundaries : ∀ node ∈ new, ∀ turnId, isBoundaryOf turnId node = true →
      known rows (consumedIds node.intent) = true ∧ (actionById rows turnId).isSome) :
    HistoryKept (rows ++ new) := by
  refine h.append hpositive hdistinct ?_ (fun node hnode hkind hphase => ?_) hboundaries
    fun node hnode turnId hterminal => ?_
  · rw [opens_quiet hquiet]
    exact h.oneOpen
  · rw [(hquiet node hnode hkind).1] at hphase
    cases hphase
  · rw [(hquiet node hnode (isTerminalOf_kind hterminal)).2 turnId] at hterminal
    cases hterminal

end

theorem openTurn_intent (h : HistoryKept rows) (hopen : openTurnId rows = some turnId) :
    ∃ node ∈ rows, node.id = turnId ∧ rows.filter (opens rows) = [node] := by
  rw [openTurnId_eq h] at hopen
  cases hopens : rows.filter (opens rows) with
  | nil =>
    rw [hopens] at hopen
    cases hopen
  | cons node others =>
    have hone := h.oneOpen
    rw [hopens, length_cons] at hone
    have hothers : others = [] := length_eq_zero_iff.mp (by omega)
    rw [hopens] at hopen
    refine ⟨node, ?_, Option.some.inj hopen, by rw [hothers]⟩
    have hmem : node ∈ rows.filter (opens rows) := hopens ▸ mem_cons_self
    exact mem_of_mem_filter hmem

lemma asList_readId_asStr {value : PlainValue} (h : asList readId value = some ids) :
    asList asStr value = some ids := by
  unfold asList at h ⊢
  obtain ⟨items, hitems, hread⟩ := bind_eq_some_iff.mp h
  rw [hitems, bind_some]
  clear hitems h
  induction items generalizing ids with
  | nil => exact hread
  | cons item items ih =>
    rw [mapM_cons] at hread ⊢
    obtain ⟨first, hfirst, hread⟩ := bind_eq_some_iff.mp hread
    obtain ⟨others, hothers, hids⟩ := bind_eq_some_iff.mp hread
    have hstr : item.asStr = some first := (Option.filter_eq_some_iff.mp hfirst).1
    rw [hstr, ih hothers]
    exact hids

lemma turnDeliveries_intent {intent : Intent} (h : turnIntent node = some intent) :
    turnDeliveries node.intent = some intent.deliveryIds ∧
      consumedIds node.intent = intent.deliveryIds := by
  unfold turnIntent at h
  split at h
  · unfold Intent.ofPlain at h
    simp only [Option.bind_eq_bind, bind_eq_some_iff] at h
    obtain ⟨-, -, _, -, deliveryIds, hids, _, -, _, -, _, -, _, -, _, -, _, -, h⟩ := h
    cases h
    refine ⟨hids, ?_⟩
    obtain ⟨value, hvalue, hread⟩ := bind_eq_some_iff.mp hids
    unfold consumedIds field
    rw [hvalue, bind_some, asList_readId_asStr hread]
    rfl
  · cases h

theorem startIds_known (h : HistoryKept rows) (hopen : openTurnId rows = some turnId) :
    known rows (startIds rows turnId) = true ∧
      ((actionById rows turnId).map (·.intent)).bind turnDeliveries = some (startIds rows turnId) := by
  obtain ⟨node, hnode, rfl, hopens⟩ := openTurn_intent h hopen
  have hopened : opens rows node = true := by
    have hmem : node ∈ rows.filter (opens rows) := hopens ▸ mem_singleton_self node
    exact (mem_filter.mp hmem).2
  simp only [opens, Bool.and_eq_true, decide_eq_true_eq] at hopened
  obtain ⟨⟨intent, hintent, hknown⟩, -⟩ := h.intents node hnode hopened.1.1.1 hopened.1.1.2
  obtain ⟨hdeliveries, hconsumed⟩ := turnDeliveries_intent hintent
  have haction := actionById_node h.distinct hnode
  unfold startIds
  rw [haction]
  simp only [Option.map_some, Option.getD_some, bind_some, hconsumed]
  exact ⟨hknown, hdeliveries⟩

lemma consumedBy_known (h : HistoryKept rows) (hopen : openTurnId rows = some turnId) :
    known rows (consumedBy rows turnId) = true := by
  unfold consumedBy known
  rw [all_append, Bool.and_eq_true]
  refine ⟨(startIds_known h hopen).1, ?_⟩
  rw [all_eq_true]
  intro id hid
  obtain ⟨node, hnode, hid⟩ := mem_flatMap.mp hid
  obtain ⟨hmem, hboundary⟩ := mem_filter.mp hnode
  exact all_eq_true.mp (h.boundaries node hmem turnId hboundary).1 id hid

theorem ownerOriginTurn_eq (tier : String → Option TrustTier) (h : HistoryKept rows) :
    ownerOriginTurn tier rows = ((openTurnId rows).bind fun turnId =>
      newestExternal rows (startIds rows turnId)).elim false (decides tier) := by
  unfold ownerOriginTurn
  cases hlatest : latestOpenTurnIn rows with
  | none =>
    have hnone : openTurnId rows = none := by
      unfold openTurnId
      rw [hlatest]
      rfl
    rw [hnone]
    rfl
  | some found =>
    cases found with
    | none =>
      have hnone : openTurnId rows = none := by
        unfold openTurnId
        rw [hlatest]
        rfl
      rw [hnone]
      rfl
    | some turn =>
      have hopen : openTurnId rows = some turn.turnId := by
        unfold openTurnId
        rw [hlatest]
        rfl
      dsimp only
      rw [hopen, (startIds_known h hopen).2]
      exact newestDecides_reverse tier (startIds rows turn.turnId)

lemma followsSpeaker_iff (tier : String → Option TrustTier) (h : HistoryKept rows) :
    FollowsSpeaker tier rows ↔ ∀ turnId, openTurnId rows = some turnId →
      ∀ origin, newestExternal rows (startIds rows turnId) = some origin → decides tier origin = true →
        ∃ newest, newestExternal rows (consumedBy rows turnId) = some newest ∧
          OwnerSpoke tier newest := by
  unfold FollowsSpeaker prepared
  rw [ownerOriginTurn_eq tier h]
  constructor
  · intro hfollows turnId hopen origin hnewest hdecides
    obtain ⟨other, newest, hother, hspoke⟩ := hfollows true (by
      rw [hopen, bind_some, hnewest]
      exact hdecides)
    rw [hopen] at hother
    cases hother
    exact ⟨newest, hspoke⟩
  · intro hall asOwner hprepared
    have hauthority := (Bool.and_eq_true_iff.mp hprepared).2
    cases hopen : openTurnId rows with
    | none =>
      rw [hopen] at hauthority
      cases hauthority
    | some turnId =>
      rw [hopen, bind_some] at hauthority
      cases hnewest : newestExternal rows (startIds rows turnId) with
      | none =>
        rw [hnewest] at hauthority
        cases hauthority
      | some origin =>
        rw [hnewest] at hauthority
        obtain ⟨newest, hspoke⟩ := hall turnId hopen origin hnewest hauthority
        exact ⟨turnId, newest, rfl, hspoke⟩

end OwnerOrigin

end OpenOmni
