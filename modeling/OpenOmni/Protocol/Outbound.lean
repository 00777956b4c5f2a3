import OpenOmni.Protocol.SessionTransition

/-! An outbound message and what its sender has recorded of it, with their JSON form and its parse. -/
namespace OpenOmni
namespace SessionTransition

open PlainValue

structure DestinationReceipt where
  id : String
  revision : ℕ
deriving DecidableEq

/-- `Outbound`; its state is `delivered` exactly with a receipt, which its schema asks for. -/
structure Outbound where
  message : OutboundMessage
  destinationReceipt : Option DestinationReceipt
deriving DecidableEq

def Outbound.delivered (o : Outbound) : Bool := o.destinationReceipt.isSome

def outboundMessageKeys : List String :=
  ["messageId", "sourceSessionId", "sourceActionId", "destinationSessionId", "requestId", "replyTo", "terminal",
    "content", "delivery", "digest"]

/-- `OutboundMessage.parse`. -/
def OutboundMessage.ofPlain (v : PlainValue) : Option OutboundMessage := do
  guard (v.strict outboundMessageKeys)
  let messageId ← field v "messageId" readId
  let sourceSessionId ← field v "sourceSessionId" readId
  let sourceActionId ← field v "sourceActionId" readId
  let destinationSessionId ← field v "destinationSessionId" readId
  let requestId ← field v "requestId" readId
  let replyTo ← field v "replyTo" readId
  let terminal ← field v "terminal" (readEnum ["completed", "error", "interrupted"] id)
  let content ← field v "content" asStr
  let delivery ← optional (readEnum ["steer", "followUp"] id) (v.get? "delivery")
  let digest ← field v "digest" readId
  return ⟨messageId, sourceSessionId, sourceActionId, destinationSessionId, requestId, replyTo, terminal, content,
    delivery, digest⟩

def DestinationReceipt.toPlain (r : DestinationReceipt) : PlainValue :=
  record [("id", some (.str r.id)), ("revision", some (.num r.revision))]

def DestinationReceipt.ofPlain (v : PlainValue) : Option DestinationReceipt := do
  guard (v.strict ["id", "revision"])
  let id ← field v "id" readId
  let revision ← field v "revision" fun w => w.asCount.filter (0 < ·)
  return ⟨id, revision⟩

def Outbound.toPlain (o : Outbound) : PlainValue :=
  record [("message", some o.message.toPlain), ("state", some (.str (if o.delivered then "delivered" else "pending"))),
    ("destinationReceipt", some (ofNullable DestinationReceipt.toPlain o.destinationReceipt))]

/-- `Outbound.parse`. -/
def Outbound.ofPlain (v : PlainValue) : Option Outbound := do
  guard (v.strict ["message", "state", "destinationReceipt"])
  let message ← field v "message" OutboundMessage.ofPlain
  let state ← field v "state" (readEnum ["pending", "delivered"] id)
  let destinationReceipt ← field v "destinationReceipt" (nullable DestinationReceipt.ofPlain)
  guard (state = "pending" ↔ destinationReceipt = none)
  return ⟨message, destinationReceipt⟩

def Principal.ofPlain (v : PlainValue) : Option Principal := do
  guard (v.strict ["kind", "principalId", "evidenceId"])
  let kind ← field v "kind" (readEnum [.owner, .actor, .session] PrincipalKind.text)
  let principalId ← field v "principalId" readId
  let evidenceId ← field v "evidenceId" readId
  return ⟨kind, principalId, evidenceId⟩

def answerKeys : List String :=
  ["inputId", "requestId", "sessionId", "receivedAt", "principal", "bindingDigest", "inputHash", "effectHash",
    "generation", "toolsHash", "domainRevisions", "decision", "allowedAction", "content", "outbound"]

/-- `Answer.safeParse`. -/
def Answer.ofPlain (v : PlainValue) : Option Answer := do
  guard (v.strict answerKeys)
  let inputId ← field v "inputId" readId
  let requestId ← field v "requestId" readId
  let sessionId ← field v "sessionId" readId
  let receivedAt ← field v "receivedAt" readEpoch
  let principal ← field v "principal" Principal.ofPlain
  let bindingDigest ← field v "bindingDigest" readId
  let inputHash ← field v "inputHash" readId
  let effectHash ← field v "effectHash" readId
  let generation ← field v "generation" asCount
  let toolsHash ← field v "toolsHash" readId
  let domainRevisions ← field v "domainRevisions" readRevisions
  let decision ← field v "decision" (readEnum [.answer, .approve, .refuse] Decision.text)
  let allowedAction ← field v "allowedAction" (readEnum AllowedAction.members AllowedAction.text)
  let content ← field v "content" asStr
  let outbound ← optional OutboundMessage.ofPlain (v.get? "outbound")
  return ⟨inputId, requestId, sessionId, receivedAt, principal, bindingDigest, inputHash, effectHash, generation,
    toolsHash, domainRevisions, decision, allowedAction, content, outbound⟩

end SessionTransition
end OpenOmni
