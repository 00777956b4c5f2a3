import Mathlib.Computability.Primrec.List
import OpenOmni.Protocol.Ledger

/-! Requests and the commands that open, answer and close them, with their JSON form. -/
namespace OpenOmni
namespace SessionTransition
open List

open PlainValue

/-- `z.enum`: the member whose text the value is. -/
def readEnum {α : Type} (members : List α) (text : α → String) (v : PlainValue) : Option α :=
  v.asStr.bind fun s => members.find? (text · = s)

lemma readEnum_text {α : Type} {members : List α} {text : α → String}
    (hinj : ∀ a ∈ members, ∀ b ∈ members, text a = text b → a = b) {a : α} (ha : a ∈ members) :
    readEnum members text (.str (text a)) = some a := by
  simp only [readEnum, asStr_str, Option.bind_some]
  cases h : members.find? (fun b => decide (text b = text a)) with
  | none =>
    have hne := find?_eq_none.mp h a ha
    simp at hne
  | some b =>
    have htext : text b = text a := by simpa using find?_some h
    rw [hinj b (mem_of_find?_eq_some h) a ha htext]

structure Correlation where
  endpointId : Option String := none
  channelId : Option String := none
  replyToMessageId : Option String := none
  chain : Option (List String) := none
  threadId : Option String := none
  tokenHash : Option String := none
  externalConversationId : Option String := none
deriving DecidableEq

inductive AllowedAction where
  | reportResult | askClarification | attachArtifact | declineTask
deriving DecidableEq

def AllowedAction.text : AllowedAction → String
  | .reportResult => "report_result"
  | .askClarification => "ask_clarification"
  | .attachArtifact => "attach_artifact"
  | .declineTask => "decline_task"

def AllowedAction.members : List AllowedAction :=
  [.reportResult, .askClarification, .attachArtifact, .declineTask]

inductive PrincipalKind where
  | owner | actor | session
deriving DecidableEq

def PrincipalKind.text : PrincipalKind → String
  | .owner => "owner"
  | .actor => "actor"
  | .session => "session"

structure Principal where
  kind : PrincipalKind
  principalId : String
  evidenceId : String

structure Reply where
  replyId : String
  responderId : String
  content : String
  receivedAt : ℚ
deriving DecidableEq

inductive Mode where
  | approval | answer
deriving DecidableEq

def Mode.text : Mode → String
  | .approval => "approval"
  | .answer => "answer"

/-- The `resolution` field of a request: how many responders settle it. -/
inductive Quorum where
  | first | quorum | all
deriving DecidableEq

def Quorum.text : Quorum → String
  | .first => "first"
  | .quorum => "quorum"
  | .all => "all"

/-- `opened` is the source's `open`, a Lean keyword. -/
inductive RequestState where
  | opened | resolved | refused | expired | cancelled
deriving DecidableEq

def RequestState.text : RequestState → String
  | .opened => "open"
  | .resolved => "resolved"
  | .refused => "refused"
  | .expired => "expired"
  | .cancelled => "cancelled"

def RequestState.members : List RequestState := [.opened, .resolved, .refused, .expired, .cancelled]

inductive Outcome where
  | answered | outcomeUnknown | denied | cancelled
deriving DecidableEq

def Outcome.text : Outcome → String
  | .answered => "answered"
  | .outcomeUnknown => "outcome_unknown"
  | .denied => "denied"
  | .cancelled => "cancelled"

def Outcome.members : List Outcome := [.answered, .outcomeUnknown, .denied, .cancelled]

abbrev DomainRevisions := List (String × ℤ)

structure Request where
  requestId : String
  sessionId : String
  turnId : Option String
  callId : String
  mode : Mode
  parsedInput : PlainValue
  inputHash : String
  effectHash : String
  generation : ℕ
  toolsGeneration : ℕ
  toolsHash : String
  systemHash : String
  domainRevisions : DomainRevisions
  deadline : ℚ
  expectedResponders : List String
  correlation : Correlation
  allowedActions : List AllowedAction
  bindingDigest : String
  resolution : Quorum
  threshold : ℕ
  seenReplyIds : List String
  replies : List Reply
  state : RequestState
  outcome : Option Outcome
  createdAt : ℚ
deriving DecidableEq

structure OutboundMessage where
  messageId : String
  sourceSessionId : String
  sourceActionId : String
  destinationSessionId : String
  requestId : String
  replyTo : String
  /-- `completed`, `error` or `interrupted`. -/
  terminal : String
  content : String
  delivery : Option String := none
  digest : String
deriving DecidableEq

inductive Decision where
  | answer | approve | refuse
deriving DecidableEq

def Decision.text : Decision → String
  | .answer => "answer"
  | .approve => "approve"
  | .refuse => "refuse"

structure Answer where
  inputId : String
  requestId : String
  sessionId : String
  receivedAt : ℚ
  principal : Principal
  bindingDigest : String
  inputHash : String
  effectHash : String
  generation : ℕ
  toolsHash : String
  domainRevisions : DomainRevisions
  decision : Decision
  allowedAction : AllowedAction
  content : String
  outbound : Option OutboundMessage := none

inductive ReceiptValue where
  | accepted | rejected | unknown

def ReceiptValue.text : ReceiptValue → String
  | .accepted => "accepted"
  | .rejected => "rejected"
  | .unknown => "unknown"

structure DeliveryReceipt where
  inputId : String
  requestId : String
  sessionId : String
  sourceActionId : String
  externalMessageId : Option String := none
  value : ReceiptValue
  «at» : ℚ

inductive Payload where
  | «open» (request : Request)
  | answer (answer : Answer)
  | timeout (requestId : String)
  | cancel (requestId : String) (principal : Principal)
  | delivery (receipt : DeliveryReceipt)

def Payload.kind : Payload → String
  | .open _ => "request.open"
  | .answer _ => "request.answer"
  | .timeout _ => "request.timeout"
  | .cancel _ _ => "request.cancel"
  | .delivery _ => "request.delivery"

structure Authority where
  owner : String
  fence : ℕ

structure Command where
  inputId : String
  sessionId : String
  «at» : ℚ
  expectedRevision : ℕ
  authority : Authority
  payload : Payload

inductive Resolution where
  | opened | attached | resolved | refused | expired | cancelled
  | lateUnknown | rejected | duplicate | deliveryRecorded
deriving DecidableEq

def Resolution.text : Resolution → String
  | .opened => "opened"
  | .attached => "attached"
  | .resolved => "resolved"
  | .refused => "refused"
  | .expired => "expired"
  | .cancelled => "cancelled"
  | .lateUnknown => "late_unknown"
  | .rejected => "rejected"
  | .duplicate => "duplicate"
  | .deliveryRecorded => "delivery_recorded"

def Resolution.members : List Resolution :=
  [.opened, .attached, .resolved, .refused, .expired, .cancelled, .lateUnknown, .rejected,
    .duplicate, .deliveryRecorded]

def isSafe (n : ℕ) : Bool := decide (n ≤ maxSafeInteger)

def Correlation.valid (c : Correlation) : Bool :=
  c.endpointId.all isId && c.channelId.all isId && c.replyToMessageId.all isId &&
    c.chain.all (·.all isId) && c.threadId.all isId && c.tokenHash.all isId &&
    c.externalConversationId.all isId

def Principal.valid (p : Principal) : Bool := isId p.principalId && isId p.evidenceId

def Reply.valid (r : Reply) : Bool :=
  isId r.replyId && isId r.responderId && decide (0 ≤ r.receivedAt)

def validRevisions (revisions : DomainRevisions) : Bool :=
  revisions.all fun entry => isId entry.1 && decide (entry.2.natAbs ≤ maxSafeInteger)

def Request.ruleThreshold (r : Request) : ℕ :=
  match r.resolution with
  | .all => r.expectedResponders.length
  | .first => 1
  | .quorum => r.threshold

def RequestState.outcome : RequestState → Option Outcome
  | .opened => none
  | .resolved => some .answered
  | .refused => some .denied
  | .expired => some .outcomeUnknown
  | .cancelled => some .cancelled

/-- `Request`'s field checks. -/
def Request.validFields (r : Request) : Bool :=
  isId r.requestId && isId r.sessionId && isNullableId r.turnId && isId r.callId &&
    isId r.inputHash && isId r.effectHash && isSafe r.generation && isSafe r.toolsGeneration &&
    isId r.toolsHash && isId r.systemHash && validRevisions r.domainRevisions &&
    decide (0 ≤ r.deadline) && r.expectedResponders ≠ [] && r.expectedResponders.all isId &&
    r.correlation.valid && r.allowedActions ≠ [] && isId r.bindingDigest &&
    decide (0 < r.threshold) && isSafe r.threshold && r.seenReplyIds.all isId &&
    r.replies.all Reply.valid && decide (0 ≤ r.createdAt)

/-- `Request`'s two cross-field checks. -/
def Request.consistent (r : Request) : Bool :=
  decide r.expectedResponders.Nodup && r.threshold = r.ruleThreshold &&
    decide (r.threshold ≤ r.expectedResponders.length) && r.outcome = r.state.outcome

/-- `Request.safeParse`. -/
def Request.valid (r : Request) : Bool := r.validFields && r.consistent

def OutboundMessage.valid (m : OutboundMessage) : Bool :=
  isId m.messageId && isId m.sourceSessionId && isId m.sourceActionId &&
    isId m.destinationSessionId && isId m.requestId && isId m.replyTo &&
    ["completed", "error", "interrupted"].contains m.terminal &&
    m.delivery.all ["steer", "followUp"].contains && isId m.digest

def Answer.valid (a : Answer) : Bool :=
  isId a.inputId && isId a.requestId && isId a.sessionId && decide (0 ≤ a.receivedAt) &&
    a.principal.valid && isId a.bindingDigest && isId a.inputHash && isId a.effectHash &&
    isSafe a.generation && isId a.toolsHash && validRevisions a.domainRevisions &&
    a.outbound.all OutboundMessage.valid

def DeliveryReceipt.valid (r : DeliveryReceipt) : Bool :=
  isId r.inputId && isId r.requestId && isId r.sessionId && isId r.sourceActionId &&
    r.externalMessageId.all isId && decide (0 ≤ r.at)

def Payload.valid : Payload → Bool
  | .open request => request.valid
  | .answer a => a.valid
  | .timeout requestId => isId requestId
  | .cancel requestId principal => isId requestId && principal.valid
  | .delivery receipt => receipt.valid

/-- `Command.safeParse`. -/
def Command.valid (c : Command) : Bool :=
  isId c.inputId && isId c.sessionId && decide (0 ≤ c.at) && isSafe c.expectedRevision &&
    isId c.authority.owner && decide (0 < c.authority.fence) && isSafe c.authority.fence &&
    c.payload.valid

def Correlation.slots (c : Correlation) : List (String × Option PlainValue) :=
  [("endpointId", c.endpointId.map .str), ("channelId", c.channelId.map .str),
    ("replyToMessageId", c.replyToMessageId.map .str),
    ("chain", c.chain.map fun ids => .arr (ids.map .str)), ("threadId", c.threadId.map .str),
    ("tokenHash", c.tokenHash.map .str),
    ("externalConversationId", c.externalConversationId.map .str)]

def Correlation.toPlain (c : Correlation) : PlainValue := record c.slots

def Principal.toPlain (p : Principal) : PlainValue :=
  record [("kind", some (.str p.kind.text)), ("principalId", some (.str p.principalId)),
    ("evidenceId", some (.str p.evidenceId))]

def Reply.toPlain (r : Reply) : PlainValue :=
  record [("replyId", some (.str r.replyId)), ("responderId", some (.str r.responderId)),
    ("content", some (.str r.content)), ("receivedAt", some (.num r.receivedAt))]

def revisionsPlain (revisions : DomainRevisions) : PlainValue :=
  .obj (revisions.map fun entry => (entry.1, .num entry.2))

def Request.slots (r : Request) : List (String × Option PlainValue) :=
  [("requestId", some (.str r.requestId)), ("sessionId", some (.str r.sessionId)),
    ("turnId", some (ofNullable .str r.turnId)), ("callId", some (.str r.callId)),
    ("mode", some (.str r.mode.text)), ("parsedInput", some r.parsedInput),
    ("inputHash", some (.str r.inputHash)), ("effectHash", some (.str r.effectHash)),
    ("generation", some (.num r.generation)), ("toolsGeneration", some (.num r.toolsGeneration)),
    ("toolsHash", some (.str r.toolsHash)), ("systemHash", some (.str r.systemHash)),
    ("domainRevisions", some (revisionsPlain r.domainRevisions)),
    ("deadline", some (.num r.deadline)),
    ("expectedResponders", some (.arr (r.expectedResponders.map .str))),
    ("correlation", some r.correlation.toPlain),
    ("allowedActions", some (.arr (r.allowedActions.map fun a => .str a.text))),
    ("bindingDigest", some (.str r.bindingDigest)), ("resolution", some (.str r.resolution.text)),
    ("threshold", some (.num r.threshold)),
    ("seenReplyIds", some (.arr (r.seenReplyIds.map .str))),
    ("replies", some (.arr (r.replies.map Reply.toPlain))), ("state", some (.str r.state.text)),
    ("outcome", some (ofNullable (fun o => .str o.text) r.outcome)),
    ("createdAt", some (.num r.createdAt))]

def Request.toPlain (r : Request) : PlainValue := record r.slots

def OutboundMessage.toPlain (m : OutboundMessage) : PlainValue :=
  record [("messageId", some (.str m.messageId)), ("sourceSessionId", some (.str m.sourceSessionId)),
    ("sourceActionId", some (.str m.sourceActionId)),
    ("destinationSessionId", some (.str m.destinationSessionId)),
    ("requestId", some (.str m.requestId)), ("replyTo", some (.str m.replyTo)),
    ("terminal", some (.str m.terminal)), ("content", some (.str m.content)),
    ("delivery", m.delivery.map .str), ("digest", some (.str m.digest))]

/-- An answer's fields other than `receivedAt`. -/
def Answer.stableSlots (a : Answer) : List (String × Option PlainValue) :=
  [("inputId", some (.str a.inputId)), ("requestId", some (.str a.requestId)),
    ("sessionId", some (.str a.sessionId)), ("principal", some a.principal.toPlain),
    ("bindingDigest", some (.str a.bindingDigest)), ("inputHash", some (.str a.inputHash)),
    ("effectHash", some (.str a.effectHash)), ("generation", some (.num a.generation)),
    ("toolsHash", some (.str a.toolsHash)),
    ("domainRevisions", some (revisionsPlain a.domainRevisions)),
    ("decision", some (.str a.decision.text)), ("allowedAction", some (.str a.allowedAction.text)),
    ("content", some (.str a.content)), ("outbound", a.outbound.map OutboundMessage.toPlain)]

def Answer.toPlain (a : Answer) : PlainValue :=
  record (a.stableSlots ++ [("receivedAt", some (.num a.receivedAt))])

/-- A receipt's fields other than `at`. -/
def DeliveryReceipt.stableSlots (r : DeliveryReceipt) : List (String × Option PlainValue) :=
  [("inputId", some (.str r.inputId)), ("requestId", some (.str r.requestId)),
    ("sessionId", some (.str r.sessionId)), ("sourceActionId", some (.str r.sourceActionId)),
    ("externalMessageId", r.externalMessageId.map .str), ("value", some (.str r.value.text))]

def DeliveryReceipt.toPlain (r : DeliveryReceipt) : PlainValue :=
  record (r.stableSlots ++ [("at", some (.num r.at))])

def field {α : Type} (v : PlainValue) (key : String) (read : PlainValue → Option α) : Option α :=
  (v.get? key).bind read

def correlationKeys : List String :=
  ["endpointId", "channelId", "replyToMessageId", "chain", "threadId", "tokenHash",
    "externalConversationId"]

def Correlation.ofPlain (v : PlainValue) : Option Correlation := do
  guard (v.strict correlationKeys)
  let endpointId ← optional readId (v.get? "endpointId")
  let channelId ← optional readId (v.get? "channelId")
  let replyToMessageId ← optional readId (v.get? "replyToMessageId")
  let chain ← optional (asList readId) (v.get? "chain")
  let threadId ← optional readId (v.get? "threadId")
  let tokenHash ← optional readId (v.get? "tokenHash")
  let externalConversationId ← optional readId (v.get? "externalConversationId")
  return ⟨endpointId, channelId, replyToMessageId, chain, threadId, tokenHash,
    externalConversationId⟩

def readEpoch (v : PlainValue) : Option ℚ := v.asNum.filter fun q => decide (0 ≤ q)

def Reply.ofPlain (v : PlainValue) : Option Reply := do
  guard (v.strict ["replyId", "responderId", "content", "receivedAt"])
  let replyId ← field v "replyId" readId
  let responderId ← field v "responderId" readId
  let content ← field v "content" asStr
  let receivedAt ← field v "receivedAt" readEpoch
  return ⟨replyId, responderId, content, receivedAt⟩

def readRevision (entry : String × PlainValue) : Option (String × ℤ) := do
  guard (isId entry.1)
  let revision ← entry.2.asInt
  return (entry.1, revision)

def readRevisions (v : PlainValue) : Option DomainRevisions := v.asObj.bind (·.mapM readRevision)

def requestKeys : List String :=
  ["requestId", "sessionId", "turnId", "callId", "mode", "parsedInput", "inputHash", "effectHash",
    "generation", "toolsGeneration", "toolsHash", "systemHash", "domainRevisions", "deadline",
    "expectedResponders", "correlation", "allowedActions", "bindingDigest", "resolution",
    "threshold", "seenReplyIds", "replies", "state", "outcome", "createdAt"]

/-- `Request.parse`. -/
def Request.ofPlain (v : PlainValue) : Option Request := do
  guard (v.strict requestKeys)
  let requestId ← field v "requestId" readId
  let sessionId ← field v "sessionId" readId
  let turnId ← field v "turnId" (nullable readId)
  let callId ← field v "callId" readId
  let mode ← field v "mode" (readEnum [.approval, .answer] Mode.text)
  let parsedInput ← v.get? "parsedInput"
  let inputHash ← field v "inputHash" readId
  let effectHash ← field v "effectHash" readId
  let generation ← field v "generation" asCount
  let toolsGeneration ← field v "toolsGeneration" asCount
  let toolsHash ← field v "toolsHash" readId
  let systemHash ← field v "systemHash" readId
  let domainRevisions ← field v "domainRevisions" readRevisions
  let deadline ← field v "deadline" readEpoch
  let expectedResponders ← field v "expectedResponders" (asList readId)
  let correlation ← field v "correlation" Correlation.ofPlain
  let allowedActions ← field v "allowedActions" (asList (readEnum AllowedAction.members AllowedAction.text))
  let bindingDigest ← field v "bindingDigest" readId
  let resolution ← field v "resolution" (readEnum [.first, .quorum, .all] Quorum.text)
  let threshold ← field v "threshold" asCount
  let seenReplyIds ← field v "seenReplyIds" (asList readId)
  let replies ← field v "replies" (asList Reply.ofPlain)
  let state ← field v "state" (readEnum RequestState.members RequestState.text)
  let outcome ← field v "outcome" (nullable (readEnum Outcome.members Outcome.text))
  let createdAt ← field v "createdAt" readEpoch
  let request : Request := ⟨requestId, sessionId, turnId, callId, mode, parsedInput, inputHash,
    effectHash, generation, toolsGeneration, toolsHash, systemHash, domainRevisions, deadline,
    expectedResponders, correlation, allowedActions, bindingDigest, resolution, threshold,
    seenReplyIds, replies, state, outcome, createdAt⟩
  guard request.valid
  return request

lemma readId_valid {s : String} (h : isId s = true) : readId (.str s) = some s := by
  simp [readId, h, Option.filter]

lemma readEpoch_num {q : ℚ} (h : decide (0 ≤ q) = true) : readEpoch (.num q) = some q := by
  simp [readEpoch, of_decide_eq_true h, Option.filter]

lemma optional_readId {s : Option String} (h : s.all isId = true) :
    optional readId (s.map .str) = some s := by
  cases s with
  | none => rfl
  | some s => simp [readId_valid (by simpa using h)]

lemma asList_readId {l : List String} (h : l.all isId = true) :
    asList readId (.arr (l.map .str)) = some l :=
  asList_map fun _ hs => readId_valid (all_eq_true.mp h _ hs)

lemma nullable_readId {s : Option String} (h : isNullableId s = true) :
    nullable readId (ofNullable .str s) = some s := by
  cases s with
  | none => rfl
  | some s =>
    have hs : isId s = true := by simpa [isNullableId, isId] using h
    simp [ofNullable, nullable, readId_valid hs]

lemma Correlation.get?_toPlain (c : Correlation) (key : String) :
    c.toPlain.get? key = (c.slots.lookup key).join := by
  have hkeys : c.slots.map Prod.fst = correlationKeys := rfl
  exact get?_record (hkeys ▸ by decide) key

lemma Request.get?_toPlain (r : Request) (key : String) :
    r.toPlain.get? key = (r.slots.lookup key).join := by
  have hkeys : r.slots.map Prod.fst = requestKeys := rfl
  exact get?_record (hkeys ▸ by decide) key

lemma Correlation.ofPlain_toPlain {c : Correlation} (h : c.valid = true) :
    Correlation.ofPlain c.toPlain = some c := by
  simp only [Correlation.valid, Bool.and_eq_true] at h
  obtain ⟨⟨⟨⟨⟨⟨h1, h2⟩, h3⟩, h4⟩, h5⟩, h6⟩, h7⟩ := h
  have hstrict : c.toPlain.strict correlationKeys = true :=
    strict_record (by simp [correlationKeys, Correlation.slots])
  have hchain : optional (asList readId) (c.chain.map fun ids => .arr (ids.map .str)) =
      some c.chain := by
    cases hc : c.chain with
    | none => rfl
    | some ids =>
      rw [hc] at h4
      simp [asList_readId (by simpa using h4)]
  unfold Correlation.ofPlain
  rw [hstrict]
  simp [Correlation.get?_toPlain, Correlation.slots, List.lookup, optional_readId h1, optional_readId h2,
    optional_readId h3, hchain, optional_readId h5, optional_readId h6, optional_readId h7]

lemma Reply.ofPlain_toPlain {r : Reply} (h : r.valid = true) :
    Reply.ofPlain r.toPlain = some r := by
  simp only [Reply.valid, Bool.and_eq_true] at h
  obtain ⟨⟨h1, h2⟩, h3⟩ := h
  have hstrict : r.toPlain.strict ["replyId", "responderId", "content", "receivedAt"] = true :=
    strict_record (by simp)
  unfold Reply.ofPlain
  rw [hstrict]
  simp [Reply.toPlain, field, get?_record, List.lookup, readId_valid h1, readId_valid h2,
    readEpoch_num h3]

lemma readRevisions_plain {revisions : DomainRevisions} (h : validRevisions revisions = true) :
    readRevisions (revisionsPlain revisions) = some revisions := by
  simp only [readRevisions, revisionsPlain, asObj_obj, Option.bind_some]
  refine mapM_map fun entry hentry => ?_
  have hvalid := all_eq_true.mp h entry hentry
  simp only [Bool.and_eq_true, decide_eq_true_eq] at hvalid
  simp [readRevision, hvalid.1, hvalid.2]

lemma asCount_safe {n : ℕ} (h : isSafe n = true) : asCount (.num n) = some n := by
  simpa [isSafe] using h

lemma readEnum_nullable {α : Type} {members : List α} {text : α → String}
    (hinj : ∀ a ∈ members, ∀ b ∈ members, text a = text b → a = b) {o : Option α}
    (ho : ∀ a, o = some a → a ∈ members) :
    nullable (readEnum members text) (ofNullable (fun a => .str (text a)) o) = some o := by
  cases o with
  | none => rfl
  | some a => simp [ofNullable, nullable, readEnum_text hinj (ho a rfl)]

theorem Request.ofPlain_toPlain {r : Request} (h : r.valid = true) :
    Request.ofPlain r.toPlain = some r := by
  have hvalid := h
  simp only [Request.valid, Request.validFields, Bool.and_eq_true] at h
  obtain ⟨⟨⟨⟨⟨⟨⟨⟨⟨⟨⟨⟨⟨⟨⟨⟨⟨⟨⟨⟨⟨⟨hrequest, hsession⟩, hturn⟩, hcall⟩, hinput⟩, heffect⟩, hgeneration⟩,
    htoolsGeneration⟩, htools⟩, hsystem⟩, hrevisions⟩, hdeadline⟩, -⟩, hexpected⟩, hcorrelation⟩,
    -⟩, hbinding⟩, -⟩, hthreshold⟩, hseen⟩, hreplies⟩, hcreated⟩, -⟩ := h
  have hstrict : r.toPlain.strict requestKeys = true := 
    strict_record (by simp [requestKeys, Request.slots])
  have hmode : readEnum [.approval, .answer] Mode.text (.str r.mode.text) = some r.mode :=
    readEnum_text (by decide) (by cases r.mode <;> decide)
  have hquorum : readEnum [.first, .quorum, .all] Quorum.text (.str r.resolution.text) =
      some r.resolution := readEnum_text (by decide) (by cases r.resolution <;> decide)
  have hstate : readEnum RequestState.members RequestState.text (.str r.state.text) =
      some r.state := readEnum_text (by decide) (by cases r.state <;> decide)
  have houtcome : nullable (readEnum Outcome.members Outcome.text)
      (ofNullable (fun o => .str o.text) r.outcome) = some r.outcome :=
    readEnum_nullable (by decide) fun o _ => by cases o <;> decide
  have hallowed : asList (readEnum AllowedAction.members AllowedAction.text)
      (.arr (r.allowedActions.map fun a => .str a.text)) = some r.allowedActions :=
    asList_map fun a _ => readEnum_text (by decide) (by cases a <;> decide)
  have hreplyList : asList Reply.ofPlain (.arr (r.replies.map Reply.toPlain)) = some r.replies :=
    asList_map fun reply hmem => Reply.ofPlain_toPlain (all_eq_true.mp hreplies reply hmem)
  unfold Request.ofPlain
  rw [hstrict]
  simp [Request.get?_toPlain, Request.slots, field, List.lookup, readId_valid hrequest, readId_valid hsession,
    nullable_readId hturn, readId_valid hcall, hmode, readId_valid hinput, readId_valid heffect,
    asCount_safe hgeneration, asCount_safe htoolsGeneration, readId_valid htools, readId_valid hsystem,
    readRevisions_plain hrevisions, readEpoch_num hdeadline, asList_readId hexpected,
    Correlation.ofPlain_toPlain hcorrelation, hallowed, readId_valid hbinding, hquorum,
    asCount_safe hthreshold, asList_readId hseen, hreplyList, hstate, houtcome,
    readEpoch_num hcreated, hvalid, -asCount_num]

theorem requestId_of_ofPlain {v : PlainValue} {request : Request} (h : Request.ofPlain v = some request) :
    field v "requestId" readId = some request.requestId := by
  obtain ⟨-, -, h⟩ := Option.bind_eq_some_iff.mp h
  obtain ⟨requestId, hid, h⟩ := Option.bind_eq_some_iff.mp h
  iterate 25 obtain ⟨_, -, h⟩ := Option.bind_eq_some_iff.mp h
  cases h
  exact hid

end SessionTransition
end OpenOmni
