import OpenOmni.Channels.UriComponent
import OpenOmni.Fold.Message

/-! The recorded route of an inbound: its stream, and which fresh decisions a recorded one lets through. -/
namespace OpenOmni
namespace RouteRecord
open List

structure RouteStreamScope where
  surface : String
  workspace : Option String
  channel : Option String
  id : String

def RouteStreamScope.components (scope : RouteStreamScope) : List String :=
  [scope.surface, scope.workspace.getD "", scope.channel.getD "", scope.id]

def scopedStreamId (kind : String) (scope : RouteStreamScope) : String :=
  kind ++ ":" ++ Egress.joinComponents scope.components

def routeStreamId (scope : RouteStreamScope) : String := scopedStreamId "route" scope

def routeCorrectionStreamId (scope : RouteStreamScope) : String := scopedStreamId "route_correction" scope

lemma routeStreamId_inj {scope scope' : RouteStreamScope} :
    routeStreamId scope = routeStreamId scope' ↔ scope.components = scope'.components := by
  unfold routeStreamId scopedStreamId
  rw [String.append_right_inj]
  exact Egress.joinComponents_inj (cons_ne_nil _ _) (cons_ne_nil _ _)

/-- `RoutingDecisionPayload`. -/
abbrev RoutingDecision := PlainObject

structure SchemaField where
  key : String
  required : Bool
  check : PlainValue → Bool

def accepts (schema : List SchemaField) (data : PlainObject) : Bool :=
  (schema.all fun field => match data.lookup field.key with
    | none => !field.required
    | some value => field.check value) &&
  data.all fun entry => schema.any (·.key = entry.1)

def isString (value : PlainValue) : Bool := value.asStr.isSome

def isOneOf (texts : List String) (value : PlainValue) : Bool := value.asStr.any (· ∈ texts)

/-- `/^(?:…|…).+/`: one of the heads, and a character that ends no line behind it. -/
def startsAs (heads : List String) (value : PlainValue) : Bool :=
  value.asStr.any fun text => heads.any fun head => head.toList.isPrefixOf text.toList &&
    (text.toList.drop head.length).head?.any (· ∉ ['\n', '\r', '\u2028', '\u2029'])

def trustTiers : List String := ["owner", "co_owner", "manager", "collaborator", "observer", "assigned_worker"]

/-- `RoutingDecisionBase`. -/
def decisionBase : List SchemaField :=
  [⟨"traceId", true, isString⟩, ⟨"time", true, fun value => (SessionTransition.readEpoch value).isSome⟩,
    ⟨"inboundId", true, isString⟩, ⟨"surface", true, isString⟩, ⟨"mode", true, isOneOf ["direct", "internal"]⟩, ⟨"reason", true, isString⟩,
    ⟨"factsUsed", true, fun value => value.asArr.any (·.all isString)⟩, ⟨"sessionId", false, isString⟩,
    ⟨"actorId", false, isString⟩, ⟨"trustTier", false, isOneOf trustTiers⟩,
    ⟨"inboundTreatment", false, isOneOf ["full_access", "evidence_only", "drop"]⟩]

def stageRow (stage outcome : String) (fields : List SchemaField) : List SchemaField :=
  decisionBase ++ [⟨"stage", true, isOneOf [stage]⟩, ⟨"outcome", true, isOneOf [outcome]⟩] ++ fields

def optionalTarget : SchemaField := ⟨"target", false, isString⟩

def isRunWhen (value : PlainValue) : Bool := value.asObj.any (accepts
  [⟨"verdict", true, isOneOf ["yes", "no", "unknown"]⟩, ⟨"reason", true, isString⟩])

/-- `LedgerDecisionBase` with its verdict. -/
def ledgerRow (decision : String) : List SchemaField :=
  stageRow "automation" "record" [⟨"decision", true, isOneOf [decision]⟩,
    ⟨"by", true, startsAs ["automation/", "rule/", "blacklist/"]⟩,
    ⟨"factsDigest", true, fun value => value.asStr.any (· ≠ "")⟩, ⟨"target", false, startsAs ["session:"]⟩, ⟨"runWhen", false, isRunWhen⟩,
    ⟨"actionSeq", false, fun value => value.asCount.isSome⟩]

def routingDecisionUnion (candidateId : PlainValue → Bool) : List (List SchemaField) :=
  [stageRow "blacklist" "drop" [optionalTarget], stageRow "request_correlation" "route" [⟨"target", true, isString⟩],
    stageRow "request_correlation" "ambiguous" [optionalTarget,
      ⟨"candidateInteractionIds", true, fun value => value.asArr.any fun ids => 2 ≤ ids.length && ids.all candidateId⟩],
    stageRow "request_correlation" "block" [optionalTarget], stageRow "channel_ceiling" "block" [optionalTarget],
    stageRow "actor_identity" "block" [optionalTarget], stageRow "surface_default" "route" [⟨"target", true, isString⟩]] ++
  ["matched", "filtered", "refused", "deduped", "grouped", "superseded"].map ledgerRow

/-- `RecordedRoutingDecisionSchema`. -/
def recordedUnion : List (List SchemaField) :=
  routingDecisionUnion (startsAs ["request:", "wait:", "pending_ask:", "pending_interaction:"])

def retiredKeys : List String := ["runId", "pendingInteractionId"]

/-- The retired fields are checked and stripped before a recorded decision is read. -/
def recordedRoutingDecision (data : PlainObject) : Option RoutingDecision :=
  if retiredKeys.all fun key => (data.lookup key).all isString then
    let upcast := data.filter fun entry => entry.1 ∉ retiredKeys
    if recordedUnion.any (accepts · upcast) then some upcast else none
  else none

def hexDigitValue (c : Char) : Option ℕ :=
  if '0' ≤ c ∧ c ≤ '9' then some (c.toNat - 48)
  else if 'A' ≤ c ∧ c ≤ 'F' then some (c.toNat - 55)
  else if 'a' ≤ c ∧ c ≤ 'f' then some (c.toNat - 87)
  else none

def unescape : List Char → Option (List UInt8)
  | [] => some []
  | '%' :: high :: low :: rest => do
    let byte := 16 * (← hexDigitValue high) + (← hexDigitValue low)
    return UInt8.ofNat byte :: (← unescape rest)
  | '%' :: _ => none
  | c :: rest => return String.utf8EncodeChar c ++ (← unescape rest)

/-- `decodeURIComponent`; nothing where it throws. -/
def decodeURIComponent (text : String) : Option String := do
  let bytes ← unescape text.toList
  if LossyUtf8.encode (LossyUtf8.decode bytes) = bytes then some (.ofList (LossyUtf8.decode bytes)) else none

structure Endpoint where
  channel : String
  externalId : String
deriving DecidableEq

def endpointFact (head : String) (facts : List String) : Option String :=
  match facts.filter fun fact => head.toList.isPrefixOf fact.toList with
  | [fact] => (decodeURIComponent (.ofList (fact.toList.drop head.length))).filter (· ≠ "")
  | _ => none

def endpointFromFacts (facts : List String) : Option Endpoint := do
  let channel ← endpointFact "reply_grant.endpoint.channel:" facts
  let externalId ← endpointFact "reply_grant.endpoint.external_id:" facts
  return ⟨channel, externalId⟩

def factsUsed (decision : RoutingDecision) : List String :=
  (((decision.lookup "factsUsed").bind PlainValue.asArr).getD []).filterMap PlainValue.asStr

def ledgerVerdict (decision : RoutingDecision) : Option PlainValue × Option PlainValue :=
  if (decision.lookup "decision").isSome then (decision.lookup "decision", decision.lookup "by") else (none, none)

/-- The fields that shape the execution or the authority of a route. -/
def shapingKeys : List String := ["stage", "outcome", "target", "sessionId", "actorId", "trustTier", "inboundTreatment"]

def routeDecisionsEquivalent (recorded fresh : RoutingDecision) : Bool :=
  (shapingKeys.all fun key => recorded.lookup key = fresh.lookup key) && ledgerVerdict recorded = ledgerVerdict fresh

structure Recorded where
  key : String
  type : String
  data : PlainObject
  timeCreated : ℚ

structure DecisionFacts where
  rows : List Recorded
  unique : (rows.map (·.key)).Nodup

inductive RecordOutcome where
  | recorded
  | «exists» (fact : Recorded)

/-- `record`: the first fact of a key stays; nothing where the schema refuses the input. -/
def DecisionFacts.record (facts : DecisionFacts) (input : Recorded) : Option (RecordOutcome × DecisionFacts) :=
  if input.key = "" ∨ input.type = "" ∨ SessionTransition.readEpoch (.num input.timeCreated) = none then none
  else match h : facts.rows.find? (·.key = input.key) with
    | some fact => some (.exists fact, facts)
    | none => some (.recorded, ⟨facts.rows ++ [input], by
        rw [map_append, map_singleton, nodup_append]
        refine ⟨facts.unique, nodup_singleton _, fun key hkey other hother => ?_⟩
        obtain ⟨row, hrow, rfl⟩ := mem_map.mp hkey
        obtain rfl := mem_singleton.mp hother
        simpa using find?_eq_none.mp h row hrow⟩)

def routeDecidedFactType : String := "route.decided"

/-- `IngressRoutingError`, as the recorder raises it. -/
inductive IngressRoutingError where
  | recordFailed
  | readFailed (otherType : Bool)
  | replayDivergent

def IngressRoutingError.code : IngressRoutingError → String
  | .recordFailed | .readFailed _ => "route_record_failed"
  | .replayDivergent => "route_replay_divergent"

def recordRouteDecided (facts : DecisionFacts) (streamId : String) (decision : RoutingDecision) («at» : ℚ) :
    Except IngressRoutingError RoutingDecision × DecisionFacts :=
  match facts.record ⟨streamId, routeDecidedFactType, decision, «at»⟩ with
  | none => (.error .recordFailed, facts)
  | some (.recorded, facts') => (.ok decision, facts')
  | some (.exists fact, facts') =>
    if fact.type ≠ routeDecidedFactType then (.error (.readFailed true), facts')
    else match recordedRoutingDecision fact.data with
      | none => (.error (.readFailed false), facts')
      | some recorded =>
        if routeDecisionsEquivalent recorded decision ∧
            endpointFromFacts (factsUsed recorded) = endpointFromFacts (factsUsed decision) then (.ok decision, facts')
        else (.error .replayDivergent, facts')

structure Authority where
  shaping : List (Option PlainValue)
  ledger : Option PlainValue × Option PlainValue
  endpoint : Option Endpoint

def authority (decision : RoutingDecision) : Authority :=
  ⟨shapingKeys.map (List.lookup · decision), ledgerVerdict decision, endpointFromFacts (factsUsed decision)⟩

lemma lookup_filter (keep : String → Bool) {key : String} (h : keep key = true) (data : PlainObject) :
    (data.filter fun entry => keep entry.1).lookup key = data.lookup key := by
  induction data with
  | nil => rfl
  | cons entry data ih =>
    obtain ⟨name, value⟩ := entry
    by_cases hkey : key = name
    · subst hkey
      simp [h]
    · have hbeq : (key == name) = false := by simpa using hkey
      rw [lookup_cons, hbeq, filter_cons]
      split_ifs
      · rw [lookup_cons, hbeq]
        exact ih
      · exact ih

lemma authority_recorded {data : PlainObject} {recorded : RoutingDecision}
    (h : recordedRoutingDecision data = some recorded) : authority recorded = authority data := by
  unfold recordedRoutingDecision at h
  split_ifs at h
  dsimp only at h
  split_ifs at h
  obtain rfl := Option.some.inj h
  have hkept : ∀ key ∉ retiredKeys, (data.filter fun entry => entry.1 ∉ retiredKeys).lookup key = data.lookup key :=
    fun key hkey => lookup_filter (fun key => key ∉ retiredKeys) (decide_eq_true hkey) data
  unfold authority ledgerVerdict factsUsed
  rw [hkept "decision" (by decide), hkept "by" (by decide), hkept "factsUsed" (by decide)]
  congr 1
  exact map_congr_left fun key hkey => hkept key (by revert key; decide)

lemma authority_of_equivalent {recorded fresh : RoutingDecision} (h : routeDecisionsEquivalent recorded fresh = true)
    (hendpoint : endpointFromFacts (factsUsed recorded) = endpointFromFacts (factsUsed fresh)) :
    authority recorded = authority fresh := by
  unfold routeDecisionsEquivalent at h
  obtain ⟨hkeys, hledger⟩ := Bool.and_eq_true_iff.mp h
  unfold authority
  rw [of_decide_eq_true hledger, hendpoint]
  congr 1
  exact map_congr_left fun key hkey => of_decide_eq_true (all_eq_true.mp hkeys key hkey)

inductive Action where
  | deliver (scope : RouteStreamScope) (decision : RoutingDecision) («at» : ℚ)
  | record (input : Recorded)

/-- The facts, and the decisions that were let through with their streams. -/
structure World where
  facts : DecisionFacts
  passed : List (String × RoutingDecision)

def World.step (w : World) : Action → World
  | .deliver scope decision «at» =>
    match recordRouteDecided w.facts (routeStreamId scope) decision «at» with
    | (.ok decision, facts) => ⟨facts, w.passed ++ [(routeStreamId scope, decision)]⟩
    | (.error _, facts) => ⟨facts, w.passed⟩
  | .record input => { w with facts := ((w.facts.record input).map Prod.snd).getD w.facts }

/-- Each decision that was let through has the authority of the fact of its stream. -/
def Faithful (w : World) : Prop := ∀ streamId decision, (streamId, decision) ∈ w.passed →
  ∃ fact ∈ w.facts.rows, fact.key = streamId ∧ fact.type = routeDecidedFactType ∧ authority fact.data = authority decision

section
variable {facts facts' : DecisionFacts} {input : Recorded} {outcome : RecordOutcome}
  (h : facts.record input = some (outcome, facts'))
include h

lemma record_cases : (∃ fact ∈ facts.rows, fact.key = input.key ∧ outcome = .exists fact ∧ facts' = facts) ∨
      outcome = .recorded ∧ facts'.rows = facts.rows ++ [input] := by
  unfold DecisionFacts.record at h
  split_ifs at h
  split at h
  · rename_i fact hfind
    obtain ⟨rfl, rfl⟩ := Prod.mk.inj (Option.some.inj h)
    exact .inl ⟨fact, mem_of_find?_eq_some hfind, by simpa using find?_some hfind, rfl, rfl⟩
  · obtain ⟨rfl, rfl⟩ := Prod.mk.inj (Option.some.inj h)
    exact .inr ⟨rfl, rfl⟩

lemma record_keeps : ∀ fact ∈ facts.rows, fact ∈ facts'.rows := by
  rcases record_cases h with ⟨_, -, -, -, rfl⟩ | ⟨-, hrows⟩
  · exact fun _ hmem => hmem
  · rw [hrows]
    exact fun _ hmem => mem_append_left _ hmem

end

lemma deliver_cases (facts : DecisionFacts) (streamId : String) (decision : RoutingDecision) («at» : ℚ) :
    (∀ fact ∈ facts.rows, fact ∈ (recordRouteDecided facts streamId decision «at»).2.rows) ∧
      ∀ passed, (recordRouteDecided facts streamId decision «at»).1 = .ok passed → passed = decision ∧
        ∃ fact ∈ (recordRouteDecided facts streamId decision «at»).2.rows, fact.key = streamId ∧
          fact.type = routeDecidedFactType ∧ authority fact.data = authority decision := by
  unfold recordRouteDecided
  split
  · exact ⟨fun _ hmem => hmem, fun _ h => nomatch h⟩
  · rename_i facts' hrecord
    refine ⟨record_keeps hrecord, fun passed h => ⟨(Except.ok.inj h).symm, ?_⟩⟩
    obtain ⟨_, -, -, hout, -⟩ | ⟨-, hrows⟩ := record_cases hrecord
    · cases hout
    · exact ⟨⟨streamId, routeDecidedFactType, decision, «at»⟩, by simp [hrows], rfl, rfl, rfl⟩
  · rename_i fact facts' hrecord
    have hkeeps := record_keeps hrecord
    obtain ⟨_, hmem, hkey, hout, rfl⟩ | ⟨hout, -⟩ := record_cases hrecord
    · obtain rfl := RecordOutcome.exists.inj hout
      split_ifs with htype
      · exact ⟨hkeeps, fun _ h => nomatch h⟩
      · split
        · exact ⟨hkeeps, fun _ h => nomatch h⟩
        · rename_i recorded hread
          split_ifs with hsame
          · refine ⟨hkeeps, fun passed h => ⟨(Except.ok.inj h).symm, fact, hmem, hkey, not_not.mp htype, ?_⟩⟩
            rw [← authority_recorded hread]
            exact authority_of_equivalent hsame.1 hsame.2
          · exact ⟨hkeeps, fun _ h => nomatch h⟩
    · cases hout

lemma Faithful.step {w : World} (h : Faithful w) (action : Action) : Faithful (w.step action) := by
  have hcarry : ∀ facts : DecisionFacts, (∀ fact ∈ w.facts.rows, fact ∈ facts.rows) → Faithful ⟨facts, w.passed⟩ := by
    intro facts hkeeps streamId decision hmem
    obtain ⟨fact, hfact, hrest⟩ := h streamId decision hmem
    exact ⟨fact, hkeeps fact hfact, hrest⟩
  cases action with
  | record input =>
    change Faithful ⟨((w.facts.record input).map Prod.snd).getD w.facts, w.passed⟩
    cases hrecord : w.facts.record input with
    | none => exact h
    | some result => exact hcarry _ (record_keeps hrecord)
  | deliver scope decision «at» =>
    obtain ⟨hkeeps, hpassed⟩ := deliver_cases w.facts (routeStreamId scope) decision «at»
    unfold World.step
    dsimp only
    split
    · rename_i passed facts heq
      rw [heq] at hkeeps hpassed
      obtain ⟨rfl, hfact⟩ := hpassed passed rfl
      intro streamId other hmem
      rcases mem_append.mp hmem with hmem | hmem
      · exact hcarry facts hkeeps streamId other hmem
      · obtain ⟨rfl, rfl⟩ := Prod.mk.inj (mem_singleton.mp hmem)
        exact hfact
    · rename_i heq
      rw [heq] at hkeeps
      exact hcarry _ hkeeps

/-- One fact decides a stream: whatever order inbounds are delivered, redelivered and recorded in, all decisions that
are let through on a stream have one authority, and inbounds of different scopes never share a stream. -/
theorem route_authority (facts : DecisionFacts) (actions : List Action) :
    let after := actions.foldl World.step ⟨facts, []⟩
    (∀ streamId, (after.facts.rows.filter fun fact => fact.key = streamId ∧ fact.type = routeDecidedFactType).length ≤ 1) ∧
    (∀ streamId decision decision', (streamId, decision) ∈ after.passed → (streamId, decision') ∈ after.passed →
      authority decision = authority decision') ∧
    ∀ scope scope' : RouteStreamScope, routeStreamId scope = routeStreamId scope' → scope.components = scope'.components := by
  have hfaithful : Faithful (actions.foldl World.step ⟨facts, []⟩) :=
    List.foldlRecOn actions World.step (fun _ _ h => nomatch h) fun _ h action _ => h.step action
  generalize actions.foldl World.step ⟨facts, []⟩ = after at hfaithful ⊢
  refine ⟨fun streamId => ?_, fun streamId decision decision' h h' => ?_, fun scope scope' h => routeStreamId_inj.mp h⟩
  · have hkeys : ((after.facts.rows.filter fun fact => fact.key = streamId ∧ fact.type = routeDecidedFactType).map
        (·.key)).Nodup := after.facts.unique.sublist (filter_sublist.map _)
    rw [← length_map (·.key)]
    refine (nodup_replicate (a := streamId)).mp ?_
    rwa [← eq_replicate_of_mem fun key hkey => ?_]
    obtain ⟨fact, hfact, rfl⟩ := mem_map.mp hkey
    exact (of_decide_eq_true (mem_filter.mp hfact).2).1
  · obtain ⟨fact, hfact, hkey, -, heq⟩ := hfaithful streamId decision h
    obtain ⟨fact', hfact', hkey', -, heq'⟩ := hfaithful streamId decision' h'
    obtain rfl := inj_on_of_nodup_map after.facts.unique hfact hfact' (hkey.trans hkey'.symm)
    exact heq.symm.trans heq'

end RouteRecord
end OpenOmni
