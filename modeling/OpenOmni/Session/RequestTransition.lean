import OpenOmni.Lib.Ordered
import OpenOmni.Ports.Alarm
import OpenOmni.Protocol.SessionTransition

/-! The pure decision over one request command and the rows it plans. -/
namespace OpenOmni

open SessionTransition PlainValue

structure ApprovalRecentOpen where
  limit : ℚ
  windowMs : ℚ

/-- `Delivery.Commit` as a request decision fills it in. -/
structure DeliveryCommit where
  id : String
  sessionId : String
  kind : String
  content : String
  createdAt : ℚ
  parentActionId : Option String
  origin : PlainValue

structure RequestDecision where
  resolution : Resolution
  request : Option Request := none
  actions : List Append
  receive : Option DeliveryCommit := none
  requestCount : Option ApprovalCount := none

structure RequestSnapshot where
  row : Row
  inputRecord : Option Node := none
  invocation : Option Node := none
  request : Option Request := none
  domainRevisions : Option DomainRevisions := none
  requests : Option (List Request) := none

def targetRequestId : Payload → String
  | .open request => request.requestId
  | .answer answer => answer.requestId
  | .timeout requestId => requestId
  | .cancel requestId _ => requestId
  | .delivery receipt => receipt.requestId

/-- The `rejected` decision: nothing is written. -/
def rejected : RequestDecision := { resolution := .rejected, actions := [] }

def ownsRequestRevision (command : Command) (row : Row) : Bool :=
  row.id = command.sessionId && row.fenceOwner = some command.authority.owner &&
    row.fence = command.authority.fence && row.revision = command.expectedRevision

/-- What `requestInputDigest` digests: a payload without the clock of its arrival. -/
def SessionTransition.Payload.stable (payload : Payload) : PlainValue :=
  match payload with
  | .open request => record [("kind", some (.str payload.kind)), ("request", some request.toPlain)]
  | .answer reply =>
    record [("kind", some (.str payload.kind)), ("answer", some (record reply.stableSlots))]
  | .timeout requestId =>
    record [("kind", some (.str payload.kind)), ("requestId", some (.str requestId))]
  | .cancel requestId principal =>
    record [("kind", some (.str payload.kind)), ("requestId", some (.str requestId)),
      ("principal", some principal.toPlain)]
  | .delivery receipt =>
    record [("kind", some (.str payload.kind)), ("receipt", some (record receipt.stableSlots))]

def payloadEvidence : Payload → List (String × Option PlainValue)
  | .answer answer => [("answer", some answer.toPlain)]
  | .delivery receipt => [("receipt", some receipt.toPlain)]
  | _ => []

def lifecyclePhase (payload : Payload) (request : Request) : String :=
  match payload with
  | .answer _ => "answered"
  | _ => match request.state with
    | .opened => "open"
    | .expired => "expired"
    | _ => "resolved"

def inputRecord (command : Command) (request : Request) (inputDigest : String)
    (resolution : Resolution) : Append where
  id := request.requestId ++ ":input:" ++ command.inputId
  parentId := some request.requestId
  sessionId := command.sessionId
  kind := .request
  intent := record [("inputId", some (.str command.inputId)), ("inputDigest", some (.str inputDigest)),
    ("command", some (.str command.payload.kind))]
  effect := record ([("phase", some (.str (lifecyclePhase command.payload request))),
    ("request", some request.toPlain), ("resolution", some (.str resolution.text))] ++
    payloadEvidence command.payload)
  ts := command.at

def resolutionRecord (command : Command) (request : Request) (resolution : Resolution) : Append where
  id := request.requestId ++ ":resolution"
  parentId := some request.requestId
  sessionId := command.sessionId
  kind := .request
  intent := record [("phase", some (.str "resolution"))]
  effect := record [
    ("phase", some (.str (if request.state = .expired then "expired" else "resolved"))),
    ("request", some request.toPlain), ("resolution", some (.str resolution.text))]
  ts := command.at

def deadlineAlarmId (requestId : String) : String := requestId ++ ":deadline"

section
variable [PlainCoding]

def requestInputDigest (payload : Payload) : String := canonicalDigest payload.stable

def requestBindingDigest (request : Request) : String :=
  canonicalDigest (record [("requestId", some (.str request.requestId)),
    ("sessionId", some (.str request.sessionId)), ("callId", some (.str request.callId)),
    ("mode", some (.str request.mode.text)), ("inputHash", some (.str request.inputHash)),
    ("effectHash", some (.str request.effectHash)), ("generation", some (.num request.generation)),
    ("toolsGeneration", some (.num request.toolsGeneration)),
    ("toolsHash", some (.str request.toolsHash)), ("systemHash", some (.str request.systemHash)),
    ("domainRevisions", some (revisionsPlain request.domainRevisions)),
    ("deadline", some (.num request.deadline)),
    ("expectedResponders", some (.arr (request.expectedResponders.map .str))),
    ("correlation", some request.correlation.toPlain),
    ("allowedActions", some (.arr (request.allowedActions.map fun a => .str a.text))),
    ("resolution", some (.str request.resolution.text)),
    ("threshold", some (.num request.threshold))])

def deadlineArm (command : Command) (request : Request) : Arm where
  parentId := none
  sessionId := command.sessionId
  purpose := "deadline"
  «at» := some request.deadline
  supersedes := none
  alarmId := deadlineAlarmId request.requestId
  sourceKey := "deadline"
  payload := record [("requestId", some (.str request.requestId))]
  armSeq := 1
  ts := command.at

def deadlineRetire (command : Command) (request : Request) : Arm where
  parentId := none
  sessionId := command.sessionId
  purpose := "deadline"
  «at» := none
  supersedes := some (occurrenceId command.sessionId (deadlineAlarmId request.requestId) 1 "deadline")
  alarmId := deadlineAlarmId request.requestId
  sourceKey := "deadline"
  payload := record [("requestId", some (.str request.requestId))]
  armSeq := 2
  ts := command.at

def deadlineArms (command : Command) (request : Request) (terminal : Bool) : List Append :=
  match command.payload with
  | .open _ => [armAction (deadlineArm command request)]
  | _ => if terminal then [armAction (deadlineRetire command request)] else []

end

def receivesReply (request : Request) (resolution : Resolution) : Bool :=
  request.mode = .answer && (resolution = .attached || resolution = .resolved)

def replyIntake (clock : ℚ) (request : Request) (answer : Answer) : DeliveryCommit where
  id := answer.inputId
  sessionId := request.sessionId
  kind := "prompt"
  content := answer.content
  createdAt := clock
  parentActionId := some request.requestId
  origin := match answer.outbound with
    | some outbound => outbound.toPlain
    | none => record [("kind", some (.str "external_reply")),
        ("messageId", some (.str answer.inputId)),
        ("sourceActionId", some (.str request.requestId)),
        ("replyTo", some (.str request.requestId))]

def receivingIntake (command : Command) (request : Request) (resolution : Resolution) :
    Option DeliveryCommit :=
  match command.payload with
  | .answer answer =>
    if receivesReply request resolution then some (replyIntake command.at request answer) else none
  | _ => none

def withSeenReply (request : Request) (inputId : String) : Request :=
  { request with seenReplyIds := Ordered.ofList (request.seenReplyIds ++ [inputId]) }

def replyOf (answer : Answer) : Reply where
  replyId := answer.inputId
  responderId := answer.principal.principalId
  content := answer.content
  receivedAt := answer.receivedAt

def SessionTransition.Request.expire (request : Request) : Request :=
  { request with state := .expired, outcome := some .outcomeUnknown }

def SessionTransition.Request.cancel (request : Request) : Request :=
  { request with state := .cancelled, outcome := some .cancelled }

def SessionTransition.Request.refuse (request : Request) : Request :=
  { request with state := .refused, outcome := some .denied }

def SessionTransition.Request.resolve (request : Request) : Request :=
  { request with state := .resolved, outcome := some .answered }

def SessionTransition.Request.attach (request : Request) (answer : Answer) : Request :=
  { request with replies := request.replies ++ [replyOf answer] }

def openApprovalSince (existing : Request) (since : ℚ) : Bool :=
  existing.mode = .approval && existing.state = .opened && decide (since < existing.createdAt)

/-- `sessionOpenApprovalCount` of the transition. -/
def approvalCount (snapshot : RequestSnapshot) (next : Request) (since : ℚ) : Option ApprovalCount :=
  if next.mode ≠ .approval then none
  else some ⟨since, (snapshot.requests.getD []).countP (openApprovalSince · since)⟩

def exceedsApprovalBudget (requestCount : Option ApprovalCount) (limit : ℚ) : Bool :=
  requestCount.any fun approvals => decide (limit ≤ approvals.count)

def freshRequestShape (next : Request) : Bool :=
  next.state = .opened && next.outcome = none && next.seenReplyIds.length = 0 &&
    next.replies.length = 0

/-- `recordedInvocation`: the intent payload of the row that called for the request. -/
def recordedInvocation (original : Option Node) (sessionId : String) : Option PlainValue := do
  let node ← original
  guard (node.sessionId = sessionId)
  let intent ← node.intent.objectValue
  guard (intent.get? "phase" = some (.str "intent"))
  return intent

/-- `invocation.originalArgs ?? invocation.value`. -/
def invocationInput (invocation value : PlainValue) : PlainValue :=
  match invocation.get? "originalArgs" with
  | none => value
  | some .null => value
  | some originalArgs => originalArgs

def generationMatches (request : Request) (row : Row) : Bool :=
  request.generation = row.policyGeneration && request.toolsGeneration = row.toolsGeneration &&
    request.systemHash = row.systemHash

def answerAddressed (answer : Answer) (command : Command) : Bool :=
  answer.sessionId = command.sessionId && answer.inputId = command.inputId

def principalValid (answer : Answer) (request : Request) : Bool :=
  match request.mode with
  | .approval => answer.principal.kind = .owner && answer.decision ≠ .answer
  | .answer => answer.decision ≠ .approve

def mayCancel (principal : Principal) (sessionId : String) : Bool :=
  principal.kind = .owner || (principal.kind = .session && principal.principalId = sessionId)

def targets (request : Request) (payload : Payload) (sessionId : String) : Bool :=
  request.requestId = targetRequestId payload && request.sessionId = sessionId

section
variable [PlainCoding]

def domainRevisionsAgree (recorded : Option PlainValue) (expected : DomainRevisions) : Bool :=
  recorded.all fun v => canonicalDigest v = canonicalDigest (revisionsPlain expected)

def originalInvocationMatches (next : Request) (snapshot : RequestSnapshot) : Bool :=
  match recordedInvocation snapshot.invocation snapshot.row.id with
  | none => false
  | some invocation => match invocation.get? "value" with
    | none => false
    | some value =>
      snapshot.invocation.any (·.id = next.requestId) &&
        canonicalDigest (invocationInput invocation value) = next.inputHash &&
        canonicalDigest next.parsedInput = next.inputHash &&
        invocation.get? "effectHash" = some (.str next.effectHash) &&
        domainRevisionsAgree (invocation.get? "domainRevisions") next.domainRevisions

def admitsOpen (next : Request) (snapshot : RequestSnapshot) : Bool :=
  snapshot.request.isNone && originalInvocationMatches next snapshot &&
    next.sessionId = snapshot.row.id && freshRequestShape next &&
    generationMatches next snapshot.row && next.bindingDigest = requestBindingDigest next

def domainRevisionsMatch (request : Request) (current : Option DomainRevisions) : Bool :=
  match current with
  | none => request.domainRevisions.length = 0
  | some revisions =>
    canonicalDigest (revisionsPlain revisions) = canonicalDigest (revisionsPlain request.domainRevisions)

def answerBindingMatches (answer : Answer) (request : Request) (snapshot : RequestSnapshot) : Bool :=
  principalValid answer request && request.expectedResponders.contains answer.principal.principalId &&
    answer.bindingDigest = request.bindingDigest && answer.inputHash = request.inputHash &&
    answer.effectHash = request.effectHash && answer.generation = request.generation &&
    answer.toolsHash = request.toolsHash && request.allowedActions.contains answer.allowedAction &&
    canonicalDigest (revisionsPlain answer.domainRevisions) =
      canonicalDigest (revisionsPlain request.domainRevisions) &&
    domainRevisionsMatch request snapshot.domainRevisions && generationMatches request snapshot.row

/-- `recordRequest`: the rows of a recorded command and the reply it delivers. -/
def recordRequest (command : Command) (request : Request) (inputDigest : String)
    (resolution : Resolution) (terminal : Bool := false) : RequestDecision where
  resolution
  request := some request
  actions := [inputRecord command request inputDigest resolution] ++
    (if terminal then [resolutionRecord command request resolution] else []) ++
    deadlineArms command request terminal
  receive := receivingIntake command request resolution

def openRequest (command : Command) (snapshot : RequestSnapshot) (next : Request)
    (inputDigest : String) (recentOpen : ApprovalRecentOpen) : RequestDecision :=
  let requestCount := approvalCount snapshot next (command.at - recentOpen.windowMs)
  if exceedsApprovalBudget requestCount recentOpen.limit || !admitsOpen next snapshot then rejected
  else { recordRequest command next inputDigest .opened with requestCount }

def recordDelivery (command : Command) (current : Request) (receipt : DeliveryReceipt)
    (inputDigest : String) : RequestDecision :=
  if !(receipt.sessionId = command.sessionId && receipt.sourceActionId = current.requestId &&
      receipt.inputId = command.inputId) then rejected
  else match receipt.externalMessageId with
    | none => recordRequest command current inputDigest .deliveryRecorded
    | some messageId =>
      let correlated := { current with
        correlation := { current.correlation with replyToMessageId := some messageId } }
      recordRequest command { correlated with bindingDigest := requestBindingDigest correlated }
        inputDigest .deliveryRecorded

def lateAnswer (command : Command) (current : Request) (answer : Answer) (inputDigest : String) :
    RequestDecision :=
  let seen := withSeenReply current answer.inputId
  if current.state = .opened then recordRequest command seen.expire inputDigest .lateUnknown true
  else recordRequest command seen inputDigest .lateUnknown

def settleReply (command : Command) (request : Request) (answer : Answer) (inputDigest : String) :
    RequestDecision :=
  if answer.decision = .refuse then recordRequest command request.refuse inputDigest .refused true
  else if request.replies.length ≥ request.threshold then
    recordRequest command request.resolve inputDigest .resolved true
  else recordRequest command request inputDigest .attached

def attachAnswer (command : Command) (current : Request) (answer : Answer) (inputDigest : String) :
    RequestDecision :=
  let seen := withSeenReply current answer.inputId
  if seen.state ≠ .opened || current.seenReplyIds.contains answer.inputId ||
      seen.replies.any (·.responderId = answer.principal.principalId) then
    recordRequest command seen inputDigest .duplicate
  else settleReply command (seen.attach answer) answer inputDigest

def answerRequest (command : Command) (snapshot : RequestSnapshot) (current : Request)
    (answer : Answer) (inputDigest : String) : RequestDecision :=
  if !answerAddressed answer command then rejected
  else if max command.at answer.receivedAt ≥ current.deadline then
    lateAnswer command current answer inputDigest
  else if !answerBindingMatches answer current snapshot then
    recordRequest command current inputDigest .rejected
  else attachAnswer command current answer inputDigest

def expireRequest (command : Command) (current : Request) (inputDigest : String) : RequestDecision :=
  if command.at < current.deadline then rejected
  else recordRequest command current.expire inputDigest .expired true

def cancelRequest (command : Command) (current : Request) (principal : Principal)
    (inputDigest : String) : RequestDecision :=
  if !mayCancel principal command.sessionId then recordRequest command current inputDigest .rejected
  else recordRequest command current.cancel inputDigest .cancelled true

/-- `transition` together with `transitionExisting` and `closeRequest`. -/
def transition (command : Command) (snapshot : RequestSnapshot) (inputDigest : String)
    (recentOpen : ApprovalRecentOpen) : RequestDecision :=
  match command.payload with
  | .open next => openRequest command snapshot next inputDigest recentOpen
  | payload => match snapshot.request with
    | none => rejected
    | some request =>
      if !targets request payload snapshot.row.id then rejected
      else match payload with
        | .open _ => rejected
        | .delivery receipt => recordDelivery command request receipt inputDigest
        | .answer answer => answerRequest command snapshot request answer inputDigest
        | .timeout _ =>
          if request.state ≠ .opened then recordRequest command request inputDigest .duplicate
          else expireRequest command request inputDigest
        | .cancel _ principal =>
          if request.state ≠ .opened then recordRequest command request inputDigest .duplicate
          else cancelRequest command request principal inputDigest

def recordedResolution (action : Node) : Option Resolution :=
  (action.effect.get? "resolution").bind (readEnum Resolution.members Resolution.text)

def replayedInput (action : Node) (request : Option Request) (inputDigest : String) :
    RequestDecision :=
  if action.intent.get? "inputDigest" ≠ some (.str inputDigest) then rejected
  else match recordedResolution action with
    | none => rejected
    | some resolution => { resolution, request, actions := [] }

/-- `repeatedInput`: the decision of an input that is already recorded. -/
def repeatedInput (command : Command) (snapshot : RequestSnapshot) (inputDigest : String) :
    Option RequestDecision :=
  snapshot.inputRecord.map fun previous =>
    let requestId := targetRequestId command.payload
    if !(previous.sessionId = command.sessionId && previous.parentId = some requestId &&
        previous.id = requestId ++ ":input:" ++ command.inputId &&
        previous.intent.get? "inputId" = some (.str command.inputId)) then rejected
    else replayedInput previous snapshot.request inputDigest

def decideRequestTransition (command : Command) (snapshot : RequestSnapshot)
    (recentOpen : ApprovalRecentOpen) : RequestDecision :=
  if !command.valid || !ownsRequestRevision command snapshot.row then rejected
  else
    let inputDigest := requestInputDigest command.payload
    (repeatedInput command snapshot inputDigest).getD
      (transition command snapshot inputDigest recentOpen)

end

end OpenOmni
