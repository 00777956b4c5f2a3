import OpenOmni.Lib.Run
import OpenOmni.Session.OwnerSteps

/-! Owner authority over the histories of a session: it follows the newest speaker exactly while no boundary
brings a stranger behind the owner's start. -/
namespace OpenOmni
open List

open PlainValue SessionTurn SessionTransition

namespace OwnerOrigin

variable {tier : String → Option TrustTier} {rows rows' new : List Node} {turnId : String}

lemma actorId_of_ofPlain {origin : PlainValue} {read : Origin} {actorId : String}
    (h : Origin.ofPlain origin = some read) (hactor : read.actorId = some actorId) :
    origin.get? "actorId" = some (.str actorId) := by
  unfold Origin.ofPlain at h
  simp only [Option.bind_eq_bind, Option.bind_eq_some_iff] at h
  obtain ⟨-, -, found, hfound, treatment, -, h⟩ := h
  cases h
  cases hget : origin.get? "actorId" with
  | none =>
    rw [hget] at hfound
    cases hfound
    cases hactor
  | some value =>
    rw [hget] at hfound
    cases hactor
    obtain ⟨text, htext, heq⟩ := Option.map_eq_some_iff.mp hfound
    cases heq
    cases value with
    | str s =>
      cases htext
      rfl
    | _ => cases htext

theorem ownerSpoke_iff {origin : PlainValue} (h : decides tier origin = true) :
    OwnerSpoke tier origin ↔ origin.get? "inboundTreatment" = some (.str "full_access") := by
  unfold decides at h
  cases hread : Origin.ofPlain origin with
  | none =>
    rw [hread] at h
    cases h
  | some read =>
    rw [hread] at h
    dsimp only at h
    split at h
    · cases h
    · cases hactor : read.actorId with
      | none =>
        rw [hactor] at h
        cases h
      | some actorId =>
        rw [hactor] at h
        simp only [ne_eq, decide_not, Bool.and_eq_true, Bool.not_eq_true', decide_eq_false_iff_not,
          decide_eq_true_eq] at h
        have hfield := actorId_of_ofPlain hread hactor
        exact ⟨And.right, fun hfull => ⟨⟨actorId, hfield, h.2⟩, hfull⟩⟩

theorem openTurnId_quiet (h : HistoryKept rows) (h' : HistoryKept (rows ++ new)) (hquiet : Quiet new) :
    openTurnId (rows ++ new) = openTurnId rows := by
  rw [openTurnId_eq h, openTurnId_eq h', opens_quiet hquiet]

lemma startIds_append (hknown : (actionById rows turnId).isSome) :
    startIds (rows ++ new) turnId = startIds rows turnId := by
  unfold startIds
  rw [actionById_append hknown]

lemma consumedBy_append (hknown : (actionById rows turnId).isSome) :
    consumedBy (rows ++ new) turnId = consumedBy rows turnId ++
      (new.filter (isBoundaryOf turnId)).flatMap fun action => consumedIds action.intent := by
  unfold consumedBy
  rw [startIds_append hknown, filter_append, flatMap_append, append_assoc]

lemma openTurn_known (h : HistoryKept rows) (hopen : openTurnId rows = some turnId) :
    (actionById rows turnId).isSome := by
  obtain ⟨node, hnode, rfl, -⟩ := openTurn_intent h hopen
  exact mem_known hnode

theorem followsSpeaker_quiet (h : HistoryKept rows) (h' : HistoryKept (rows ++ new))
    (hquiet : Quiet new) (ids : String → List String)
    (hids : ∀ turnId, (new.filter (isBoundaryOf turnId)).flatMap
      (fun action => consumedIds action.intent) = ids turnId) :
    FollowsSpeaker tier (rows ++ new) ↔ ∀ turnId, openTurnId rows = some turnId →
      ∀ origin, newestExternal rows (startIds rows turnId) = some origin → decides tier origin = true →
        ∃ newest, newestExternal (rows ++ new) (consumedBy rows turnId ++ ids turnId) = some newest ∧
          OwnerSpoke tier newest := by
  rw [followsSpeaker_iff tier h', openTurnId_quiet h h' hquiet]
  refine forall₂_congr fun turnId hopen => ?_
  have hknown := openTurn_known h hopen
  rw [startIds_append hknown, newestExternal_append (startIds_known h hopen).1,
    consumedBy_append hknown, hids]

theorem followsSpeaker_still (h : HistoryKept rows) (h' : HistoryKept (rows ++ new)) (hquiet : Quiet new)
    (hnone : ∀ node ∈ new, ∀ turnId, isBoundaryOf turnId node = false) :
    FollowsSpeaker tier (rows ++ new) ↔ FollowsSpeaker tier rows := by
  have hids : ∀ turnId, (new.filter (isBoundaryOf turnId)).flatMap
      (fun action => consumedIds action.intent) = [] := by
    intro turnId
    rw [filter_eq_nil_iff.mpr fun node hnode => by simp [hnone node hnode turnId]]
    rfl
  rw [followsSpeaker_quiet h h' hquiet (fun _ => []) hids, followsSpeaker_iff tier h]
  refine forall₂_congr fun turnId hopen => ?_
  rw [append_nil, newestExternal_append (consumedBy_known h hopen)]

/-- A step keeps the owner's authority with the newest speaker: a start declares full access where it
decides for the owner, and no boundary brings another speaker behind it. -/
def SpeakerKept (tier : String → Option TrustTier) (rows : List Node) : HistoryEvent → Prop
  | .started _ _ _ _ intent => ∀ origin, newestExternal rows intent.deliveryIds = some origin →
    decides tier origin = true → origin.get? "inboundTreatment" = some (.str "full_access")
  | .drained _ _ _ _ checkpoint deliveryIds _ =>
    ∀ origin, newestExternal rows (startIds rows checkpoint.turnId) = some origin →
      decides tier origin = true →
      ∀ drained, newestExternal rows deliveryIds = some drained → OwnerSpoke tier drained
  | _ => True

lemma numbered_one (start : ℕ) (action : Append) : numbered start [action] = [⟨action, start + 1⟩] :=
  rfl

section Events
variable {id sessionId : String} {parentId : Option String} {ts : ℚ}

theorem rows_kept {actions : List Append} (h : HistoryKept rows)
    (hstep : step rows (.rows actions) = some rows') :
    HistoryKept rows' ∧ (FollowsSpeaker tier rows' ↔ FollowsSpeaker tier rows) := by
  obtain ⟨hadmitted, hdistinct, heq⟩ := step_some hstep
  have hkind : ∀ node ∈ numbered rows.length actions, node.kind ≠ .turn := by
    intro node hnode
    have hall := all_eq_true.mp hadmitted node.toAppend (numbered_append _ _ node hnode)
    simpa using hall
  have hquiet : Quiet (numbered rows.length actions) := fun node hnode hturn =>
    absurd hturn (hkind node hnode)
  have hnone : ∀ node ∈ numbered rows.length actions, ∀ turnId, isBoundaryOf turnId node = false := by
    intro node hnode turnId
    simp [isBoundaryOf, hkind node hnode]
  rw [heq] at hdistinct ⊢
  have hkept : HistoryKept (rows ++ numbered rows.length actions) := by
    refine h.quiet (numbered_pos _ _) hdistinct hquiet fun node hnode turnId hboundary => ?_
    rw [hnone node hnode turnId] at hboundary
    cases hboundary
  exact ⟨hkept, followsSpeaker_still h hkept hquiet hnone⟩

lemma quiet_one {node : Node} (hphase : extractIs node.intent "phase" "intent" = false)
    (hterminal : extractIs node.effect "phase" "terminal" = false) : Quiet [node] := by
  intro other hother _
  obtain rfl := mem_singleton.mp hother
  exact ⟨hphase, fun turnId => by simp [isTerminalOf, hterminal]⟩

theorem still_kept {event : HistoryEvent} {action : Append} (h : HistoryKept rows)
    (hactions : event.actions = [action]) (hintent : extractIs action.intent "phase" "intent" = false)
    (hcheckpoint : extractIs action.intent "phase" "checkpoint" = false)
    (hterminal : extractIs action.effect "phase" "terminal" = false)
    (hstep : step rows event = some rows') :
    HistoryKept rows' ∧ (FollowsSpeaker tier rows' ↔ FollowsSpeaker tier rows) := by
  obtain ⟨-, hdistinct, heq⟩ := step_some hstep
  rw [hactions, numbered_one] at heq
  have hquiet : Quiet [(⟨action, rows.length + 1⟩ : Node)] := quiet_one hintent hterminal
  have hnone : ∀ other ∈ [(⟨action, rows.length + 1⟩ : Node)], ∀ turnId,
      isBoundaryOf turnId other = false := by
    intro other hother turnId
    obtain rfl := mem_singleton.mp hother
    simp [isBoundaryOf, hcheckpoint]
  rw [heq] at hdistinct ⊢
  have hkept : HistoryKept (rows ++ [⟨action, rows.length + 1⟩]) := by
    refine h.quiet (by simp) hdistinct hquiet fun other hother turnId hboundary => ?_
    rw [hnone other hother turnId] at hboundary
    cases hboundary
  exact ⟨hkept, followsSpeaker_still h hkept hquiet hnone⟩

lemma turnPending_phase : turnPending.get? "phase" = some (.str "pending") := rfl

lemma resumed_kept {resume : Resume} (h : HistoryKept rows)
    (hstep : step rows (.resumed id parentId sessionId ts resume) = some rows') :
    HistoryKept rows' ∧ (FollowsSpeaker tier rows' ↔ FollowsSpeaker tier rows) := by
  have hphase : resume.toPlain.get? "phase" = some (.str "resume") := by
    simp [Resume.get?_toPlain, Resume.slots]
  refine still_kept h rfl ?_ ?_ ?_ hstep
  · simp [turnEnvelopeAction, extractIs, hphase]
  · simp [turnEnvelopeAction, extractIs, hphase]
  · simp [turnEnvelopeAction, extractIs, turnPending_phase]

lemma stopped_kept {generation : ℕ} {verdict state : PlainValue} (h : HistoryKept rows)
    (hstep : step rows (.stopped id parentId sessionId ts generation verdict state) = some rows') :
    HistoryKept rows' ∧ (FollowsSpeaker tier rows' ↔ FollowsSpeaker tier rows) := by
  refine still_kept h rfl ?_ ?_ ?_ hstep
  · simp [turnStopAction, extractIs, get?_record]
  · simp [turnStopAction, extractIs, get?_record]
  · simp [turnStopAction, extractIs, get?_record]

theorem drained_kept {checkpoint : Checkpoint} {deliveryIds stale : List String} (h : HistoryKept rows)
    (hstep : step rows (.drained id parentId sessionId ts checkpoint deliveryIds stale) = some rows') :
    HistoryKept rows' ∧ (FollowsSpeaker tier rows → (FollowsSpeaker tier rows' ↔
      SpeakerKept tier rows (.drained id parentId sessionId ts checkpoint deliveryIds stale))) := by
  obtain ⟨hadmitted, hdistinct, heq⟩ := step_some hstep
  simp only [HistoryEvent.admitted, Bool.and_eq_true, decide_eq_true_eq] at hadmitted
  obtain ⟨hopen, hknown⟩ := hadmitted
  let node : Node :=
    ⟨turnCheckpointAction id parentId sessionId checkpoint deliveryIds stale ts, rows.length + 1⟩
  have hnew : numbered rows.length
      (HistoryEvent.drained id parentId sessionId ts checkpoint deliveryIds stale).actions = [node] := rfl
  rw [hnew] at heq
  have hphase : node.intent.get? "phase" = some (.str "checkpoint") := by
    simp [node, turnCheckpointAction, get?_record]
  have hturn : node.intent.get? "turnId" = some (.str checkpoint.turnId) := by
    simp [node, turnCheckpointAction, get?_record, List.lookup]
  have hconsumed : consumedIds node.intent = deliveryIds := by
    refine consumedIds_record ?_
    simp [node, turnCheckpointAction, get?_record, List.lookup]
  have heffect : node.effect.get? "phase" = some (.str "checkpoint") := by
    simp [node, turnCheckpointAction, Checkpoint.get?_toPlain, Checkpoint.slots]
  have hquiet : Quiet [node] := by
    refine quiet_one ?_ ?_
    · simp [extractIs, hphase]
    · simp [extractIs, heffect]
  have hboundary : ∀ turnId, isBoundaryOf turnId node = true ↔ checkpoint.turnId = turnId := by
    intro turnId
    have hkind : node.kind = .turn := rfl
    simp [isBoundaryOf, hkind, extractIs, hphase, hturn]
  rw [heq] at hdistinct ⊢
  have hkept : HistoryKept (rows ++ [node]) := by
    refine h.quiet (by simp [node]) hdistinct hquiet fun other hother turnId hof => ?_
    obtain rfl := mem_singleton.mp hother
    rw [hboundary] at hof
    rw [hconsumed, ← hof]
    exact ⟨hknown, openTurn_known h hopen⟩
  refine ⟨hkept, fun hfollows => ?_⟩
  have hids : ∀ turnId, ([node].filter (isBoundaryOf turnId)).flatMap
      (fun action => consumedIds action.intent) = if checkpoint.turnId = turnId then deliveryIds else [] := by
    intro turnId
    by_cases hof : checkpoint.turnId = turnId
    · rw [filter_cons_of_pos ((hboundary turnId).mpr hof), if_pos hof]
      simp [hconsumed]
    · rw [filter_cons_of_neg (fun hb => hof ((hboundary turnId).mp hb)), if_neg hof]
      rfl
  rw [followsSpeaker_quiet h hkept hquiet _ hids]
  rw [followsSpeaker_iff tier h] at hfollows
  rw [hopen]
  constructor
  · intro hall origin hnewest hdecides drained hdrained
    obtain ⟨newest, hfound, hspoke⟩ := hall checkpoint.turnId rfl origin hnewest hdecides
    rw [if_pos rfl, newestExternal_concat, newestExternal_append hknown, hdrained, Option.some_or] at hfound
    cases hfound
    exact hspoke
  · intro hcond turnId hturnId origin hnewest hdecides
    cases hturnId
    rw [if_pos rfl, newestExternal_concat, newestExternal_append hknown,
      newestExternal_append (consumedBy_known h hopen)]
    cases hdrained : newestExternal rows deliveryIds with
    | some drained => exact ⟨drained, rfl, hcond origin hnewest hdecides drained hdrained⟩
    | none =>
      rw [Option.none_or]
      exact hfollows checkpoint.turnId hopen origin hnewest hdecides

theorem started_kept {intent : Intent} (h : HistoryKept rows)
    (hstep : step rows (.started id parentId sessionId ts intent) = some rows') :
    HistoryKept rows' ∧ (FollowsSpeaker tier rows' ↔
      SpeakerKept tier rows (.started id parentId sessionId ts intent)) := by
  obtain ⟨hadmitted, hdistinct, heq⟩ := step_some hstep
  simp only [HistoryEvent.admitted, Bool.and_eq_true, decide_eq_true_eq] at hadmitted
  obtain ⟨⟨hopen, hvalid⟩, hknown⟩ := hadmitted
  let node : Node := ⟨turnEnvelopeAction id parentId sessionId ts intent.toPlain, rows.length + 1⟩
  have hnew : numbered rows.length
      (HistoryEvent.started id parentId sessionId ts intent).actions = [node] := rfl
  rw [hnew] at heq
  have hnodeIntent : node.intent = intent.toPlain := rfl
  have hnodeEffect : node.effect = turnPending := rfl
  have hkind : node.kind = .turn := rfl
  have hphase : node.intent.get? "phase" = some (.str "intent") := by
    rw [hnodeIntent]
    simp [Intent.get?_toPlain, Intent.slots]
  have hread : turnIntent node = some intent := by
    unfold turnIntent
    rw [if_pos hkind, hnodeIntent]
    exact Intent.ofPlain_toPlain hvalid
  have hno : ∀ turnId, extractIs node.intent "turnId" turnId = false ∧
      extractIs node.effect "turnId" turnId = false := by
    intro turnId
    rw [hnodeIntent, hnodeEffect]
    refine ⟨?_, rfl⟩
    simp [extractIs, Intent.get?_toPlain, Intent.slots, Pinned.slots, List.lookup]
  have hboundary : ∀ turnId, isBoundaryOf turnId node = false := by
    intro turnId
    simp [isBoundaryOf, extractIs, hphase]
  have hterminal : ∀ turnId, isTerminalOf turnId node = false := by
    intro turnId
    simp [isTerminalOf, extractIs, hnodeEffect, turnPending_phase]
  rw [heq] at hdistinct ⊢
  have hfresh := actionById_fresh hdistinct
  -- the turn is the only one that no terminal row closes
  have hopens : (rows ++ [node]).filter (opens (rows ++ [node])) = [node] := by
    have hsame : ∀ turnId, (rows ++ [node]).any (isTerminalOf turnId) = rows.any (isTerminalOf turnId) := by
      intro turnId
      simp [any_append, hterminal turnId]
    have hclosed : rows.filter (opens rows) = [] := by
      rw [openTurnId_eq h, Option.map_eq_none_iff] at hopen
      exact head?_eq_none_iff.mp hopen
    have hold : rows.filter (opens (rows ++ [node])) = [] := by
      refine (filter_congr fun other _ => ?_).trans hclosed
      unfold opens
      rw [hsame]
    have hnever : rows.any (isTerminalOf node.id) = false := by
      rw [any_eq_false]
      intro other hother hof
      have hsome := h.terminals other hother node.id hof
      rw [hfresh] at hsome
      cases hsome
    have hpositive : 0 < node.ordinal := Nat.succ_pos _
    have hself : opens (rows ++ [node]) node = true := by
      unfold opens
      rw [hsame, hnever]
      simp [hkind, extractIs, hphase, hpositive]
    rw [filter_append, hold, filter_cons_of_pos hself]
    rfl
  have hkept : HistoryKept (rows ++ [node]) := by
    refine h.append (by simp [node]) hdistinct (by rw [hopens]; rfl) (fun other hother _ _ => ?_)
      (fun other hother turnId hof => ?_) fun other hother turnId hof => ?_
    · obtain rfl := mem_singleton.mp hother
      exact ⟨⟨intent, hread, hknown⟩, hno⟩
    · obtain rfl := mem_singleton.mp hother
      rw [hboundary] at hof
      cases hof
    · obtain rfl := mem_singleton.mp hother
      rw [hterminal] at hof
      cases hof
  refine ⟨hkept, ?_⟩
  have hturn : openTurnId (rows ++ [node]) = some node.id := by
    rw [openTurnId_eq hkept, hopens]
    rfl
  have hstart : startIds (rows ++ [node]) node.id = intent.deliveryIds := by
    unfold startIds
    rw [actionById_node hdistinct (mem_append_right _ (mem_singleton_self node))]
    exact (turnDeliveries_intent hread).2
  have hconsumed : consumedBy (rows ++ [node]) node.id = intent.deliveryIds := by
    have hnone : (rows ++ [node]).filter (isBoundaryOf node.id) = [] := by
      rw [filter_eq_nil_iff]
      intro other hother hof
      cases mem_append.mp hother with
      | inl hold =>
        have hsome := (h.boundaries other hold node.id hof).2
        rw [hfresh] at hsome
        cases hsome
      | inr hself =>
        obtain rfl := mem_singleton.mp hself
        rw [hboundary] at hof
        cases hof
    unfold consumedBy
    rw [hstart, hnone]
    exact append_nil _
  rw [followsSpeaker_iff tier hkept, hturn]
  constructor
  · intro hall origin hnewest hdecides
    have hfound := hall node.id rfl origin
      (by rw [hstart, newestExternal_append hknown]; exact hnewest) hdecides
    rw [hconsumed, newestExternal_append hknown, hnewest] at hfound
    obtain ⟨newest, hsame, hspoke⟩ := hfound
    cases hsame
    exact (ownerSpoke_iff hdecides).mp hspoke
  · intro hcond turnId hturnId origin hnewest hdecides
    cases hturnId
    rw [hstart, newestExternal_append hknown] at hnewest
    rw [hconsumed, newestExternal_append hknown]
    exact ⟨origin, hnewest, (ownerSpoke_iff hdecides).mpr (hcond origin hnewest hdecides)⟩

theorem sealed_kept {terminal : Terminal} (h : HistoryKept rows)
    (hstep : step rows (.sealed id parentId sessionId ts terminal) = some rows') :
    HistoryKept rows' ∧ FollowsSpeaker tier rows' := by
  obtain ⟨hadmitted, hdistinct, heq⟩ := step_some hstep
  simp only [HistoryEvent.admitted, decide_eq_true_eq] at hadmitted
  let node : Node := ⟨turnTerminalAction id parentId sessionId terminal ts, rows.length + 1⟩
  have hnew : numbered rows.length
      (HistoryEvent.sealed id parentId sessionId ts terminal).actions = [node] := rfl
  rw [hnew] at heq
  have hkind : node.kind = .turn := rfl
  have hphase : node.intent.get? "phase" = some (.str "terminal") := by
    simp [node, turnTerminalAction, get?_record]
  have heffect : node.effect.get? "phase" = some (.str "terminal") ∧
      node.effect.get? "turnId" = some (.str terminal.turnId) := by
    simp [node, turnTerminalAction, Terminal.get?_toPlain, Terminal.slots, List.lookup]
  have hterminal : ∀ turnId, isTerminalOf turnId node = true ↔ terminal.turnId = turnId := by
    intro turnId
    simp [isTerminalOf, hkind, extractIs, heffect.1, heffect.2]
  rw [heq] at hdistinct ⊢
  obtain ⟨opened, hmem, hid, hopened⟩ := openTurn_intent h hadmitted
  have hopens : (rows ++ [node]).filter (opens (rows ++ [node])) = [] := by
    rw [filter_eq_nil_iff]
    intro other hother hof
    simp only [opens, Bool.and_eq_true, decide_eq_true_eq, Bool.not_eq_true', any_append,
      Bool.or_eq_false_iff, any_cons, any_nil, Bool.or_false] at hof
    obtain ⟨⟨⟨hturn, hintent⟩, hpositive⟩, hold, hnow⟩ := hof
    cases mem_append.mp hother with
    | inl hin =>
      -- an open turn is the one that the terminal names
      have hwas : other ∈ rows.filter (opens rows) := by
        rw [mem_filter]
        exact ⟨hin, by simp [opens, hturn, hintent, hpositive, hold]⟩
      rw [hopened, mem_singleton] at hwas
      have hclosed := (hterminal other.id).mpr (by rw [hwas, hid])
      rw [hclosed] at hnow
      cases hnow
    | inr hself =>
      obtain rfl := mem_singleton.mp hself
      simp [extractIs, hphase] at hintent
  have hkept : HistoryKept (rows ++ [node]) := by
    refine h.append (by simp [node]) hdistinct (by rw [hopens]; exact Nat.zero_le 1)
      (fun other hother _ hintent => ?_) (fun other hother turnId hof => ?_)
      fun other hother turnId hof => ?_
    · obtain rfl := mem_singleton.mp hother
      simp [extractIs, hphase] at hintent
    · obtain rfl := mem_singleton.mp hother
      simp [isBoundaryOf, extractIs, hphase] at hof
    · obtain rfl := mem_singleton.mp hother
      rw [← (hterminal turnId).mp hof, ← hid]
      exact mem_known hmem
  refine ⟨hkept, ?_⟩
  rw [followsSpeaker_iff tier hkept, openTurnId_eq hkept, hopens]
  rintro _ ⟨⟩

end Events

theorem step_kept (tier : String → Option TrustTier) {event : HistoryEvent} (h : HistoryKept rows)
    (hstep : step rows event = some rows') :
    HistoryKept rows' ∧ (FollowsSpeaker tier rows →
      (FollowsSpeaker tier rows' ↔ SpeakerKept tier rows event)) := by
  -- what leaves the answer as it was asks nothing
  have hstays : HistoryKept rows' ∧ (FollowsSpeaker tier rows' ↔ FollowsSpeaker tier rows) →
      HistoryKept rows' ∧ (FollowsSpeaker tier rows → (FollowsSpeaker tier rows' ↔ True)) :=
    fun ⟨hkept, hiff⟩ => ⟨hkept, fun hfollows => iff_true_intro (hiff.mpr hfollows)⟩
  cases event with
  | rows actions => exact hstays (rows_kept h hstep)
  | started id parentId sessionId ts intent =>
    exact (started_kept h hstep).imp_right fun hiff _ => hiff
  | resumed id parentId sessionId ts resume => exact hstays (resumed_kept h hstep)
  | drained id parentId sessionId ts checkpoint deliveryIds stale => exact drained_kept h hstep
  | stopped id parentId sessionId ts generation verdict state => exact hstays (stopped_kept h hstep)
  | «sealed» id parentId sessionId ts terminal =>
    exact (sealed_kept h hstep).imp_right fun hfollows _ => iff_true_intro hfollows

lemma nil_kept : HistoryKept [] where
  positive := nofun
  distinct := nodup_nil
  oneOpen := Nat.zero_le 1
  intents := nofun
  boundaries := nofun
  terminals := nofun

theorem nil_follows : FollowsSpeaker tier [] := by
  rw [followsSpeaker_iff tier nil_kept, openTurnId_eq nil_kept]
  nofun

def Histories (trace : List (List Node × HistoryEvent)) (rows : List Node) : Prop :=
  Transition.Run (fun rows event rows' => step rows event = some rows') [] trace rows

/-- Over a whole history the authority follows the newest speaker exactly while every event keeps it. -/
theorem followsSpeaker_histories (tier : String → Option TrustTier)
    (trace : List (List Node × HistoryEvent)) (rows : List Node) (h : Histories trace rows) :
    ((∀ e ∈ trace, FollowsSpeaker tier e.1) ∧ FollowsSpeaker tier rows) ↔
      ∀ e ∈ trace, SpeakerKept tier e.1 e.2 := by
  have hkeeps : ∀ before event after, HistoryKept before → step before event = some after →
      HistoryKept after := fun before event after hbefore hstep => (step_kept tier hbefore hstep).1
  have hspoken : ∀ before event after, HistoryKept before ∧ FollowsSpeaker tier before →
      step before event = some after →
      (SpeakerKept tier before event ↔ HistoryKept after ∧ FollowsSpeaker tier after) := by
    intro before event after hbefore hstep
    obtain ⟨hkept, hiff⟩ := step_kept tier hbefore.1 hstep
    rw [← hiff hbefore.2]
    exact ⟨fun hfollows => ⟨hkept, hfollows⟩, And.right⟩
  have hruns := h.forall_iff ⟨nil_kept, nil_follows⟩ hspoken
  constructor
  · intro hfollows
    refine hruns.mpr ⟨fun e he => ⟨?_, hfollows.1 e he⟩, ?_, hfollows.2⟩
    · exact h.visits nil_kept hkeeps e he
    · exact h.preserves nil_kept hkeeps
  · intro hspeaker
    obtain ⟨hbefore, hnow⟩ := hruns.mp hspeaker
    exact ⟨fun e he => (hbefore e he).2, hnow.2⟩

def ownerTier (actorId : String) : Option TrustTier := if actorId = "owner" then some .owner else none

def external (actorId treatment : String) : PlainValue :=
  record [("kind", some (.str "external")), ("actorId", some (.str actorId)),
    ("inboundTreatment", some (.str treatment))]

def promptedBy (id : String) (origin : PlainValue) : HistoryEvent :=
  .rows [receivedMessageAction id "s" .prompt "text" origin none 0 (some .steer)]

def firstStarts : HistoryEvent :=
  .started "t" none "s" 1 ⟨⟨1, "tools", "system", 0⟩, "r", ["a"], none, 0, none, none⟩

def secondDrained : HistoryEvent :=
  .drained "c" (some "t") "s" 2 ⟨"t", "r", 0, none, .afterTools⟩ ["b"] []

def twoSpeakers (second : PlainValue) : List HistoryEvent :=
  [promptedBy "a" (external "owner" "full_access"), firstStarts, promptedBy "b" second, secondDrained]

def rowsAfter (second : PlainValue) (count : ℕ) : List Node :=
  (((twoSpeakers second).take count).foldlM step []).getD []

/-- The owner who steers their own turn keeps it. -/
theorem followsSpeaker_histories_steered : ∃ trace rows, Histories trace rows ∧
    FollowsSpeaker ownerTier rows ∧ prepared ownerTier rows true = true := by
  let owner := external "owner" "full_access"
  have run : Histories ([] ++ [([], promptedBy "a" owner)] ++ [(rowsAfter owner 1, firstStarts)] ++
      [(rowsAfter owner 2, promptedBy "b" owner)] ++ [(rowsAfter owner 3, secondDrained)])
      (rowsAfter owner 4) := .snoc (.snoc (.snoc (.snoc .nil rfl) rfl) rfl) rfl
  have hprepared : prepared ownerTier (rowsAfter owner 4) true = true := by decide
  refine ⟨_, _, run, ((followsSpeaker_histories ownerTier _ _ run).mpr fun e he => ?_).2, hprepared⟩
  simp only [nil_append, cons_append, mem_cons, not_mem_nil, or_false] at he
  rcases he with rfl | rfl | rfl | rfl
  · trivial
  · -- the start declares full access
    intro origin hnewest _
    cases hnewest
    rfl
  · trivial
  · -- so does what is drained behind it
    intro _ _ _ drained hdrained
    cases hdrained
    exact ⟨⟨"owner", rfl, rfl⟩, rfl⟩

/-- A stranger's steer is consumed, and the turn still acts as the owner. -/
theorem drained_stranger_keeps_owner :
    ¬ ∀ tier trace rows, Histories trace rows →
      (∀ e ∈ trace, FollowsSpeaker tier e.1) ∧ FollowsSpeaker tier rows := by
  intro hall
  have hfold : (twoSpeakers (external "" "evidence_only")).foldlM step [] = some _ := rfl
  obtain ⟨trace, -, hrun⟩ := Transition.Run.ofLabels hfold
  obtain ⟨turnId, origin, hopen, hnewest, hspoke⟩ := (hall ownerTier _ _ hrun).2 true rfl
  cases hopen
  cases hnewest
  exact absurd hspoke.2 (by decide)

end OwnerOrigin

end OpenOmni
