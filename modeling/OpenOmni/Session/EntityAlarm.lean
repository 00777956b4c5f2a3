import OpenOmni.Session.RequestFold

/-! Alarm deliveries to a session beside its request commands: strikes, the deadline's timeout, and
the firing that settles an occurrence. -/
namespace OpenOmni

open SessionTransition PlainValue Transition

/-- `RESERVED_PURPOSES`: consumed by the core, never by a capability. -/
def reservedPurposes : List String := ["step_watchdog", "retry", "deadline", "resume"]

inductive DeliveryStage where
  | arrived
  | struck
  | firing (outcome : FiredOutcome)
deriving DecidableEq

/-- A delivered occurrence: the arm that minted it, the time of a quiet tick, and the authority of the
activation it came to. -/
structure Delivery where
  arm : Arm
  tick : Option ℚ
  authority : Authority
  stage : DeliveryStage

/-- Some session row held the authority, and it was lost to a higher fence only. -/
def Held (db : Db) (sessionId : String) (authority : Authority) : Prop :=
  ∃ session ∈ db.sessions, session.id = sessionId ∧ authority.fence ≤ session.fence ∧
    (session.fence = authority.fence → session.fenceOwner = some authority.owner)

namespace Db

/-- `latestArm` of `armedChainReads`. -/
def latestArm (db : Db) (alarmId : String) : Option AlarmArmView :=
  (db.armed.find? (·.alarmId = alarmId)).map fun row => ⟨row.occurrenceId, some row.fireAt⟩

/-- `settled` of `armedChainReads`. -/
def settled (db : Db) (occurrenceId : String) : Bool :=
  (db.actionById (occurrenceId ++ ":delivered")).isSome ||
    (db.actionById (occurrenceId ++ ":exhausted")).isSome

end Db

section
variable [PlainCoding]

/-- What `alarmOccurrence` judges of a delivery before it strikes. -/
def Delivery.disposition (db : Db) (delivery : Delivery) : AlarmDisposition :=
  if (db.actionById (delivery.arm.alarmId ++ ":arm:" ++ toString delivery.arm.armSeq)).isNone then
    .skip .unknown
  else alarmDisposition db.latestArm db.settled delivery.arm.alarmId delivery.arm.occurrenceId

/-- `tickIsCurrent`; a delivery without a tick is no quiet one. -/
def Delivery.tickIsCurrent (db : Db) (delivery : Delivery) : Bool :=
  delivery.tick.all fun tick =>
    (db.armed.find? (·.occurrenceId = delivery.arm.occurrenceId)).any (·.fireAt = tick)

def Delivery.afterStrike (db : Db) (delivery : Delivery) : DeliveryStage :=
  match db.armed.find? (·.occurrenceId = delivery.arm.occurrenceId) with
  | some row => if maxOccurrenceStrikes ≤ row.strikes + 1 then .firing .exhausted else .struck
  | none => .struck

/-- `DeadlineAlarmBody`: the request a deadline's payload names. -/
def Delivery.requestId (delivery : Delivery) : Option String :=
  (delivery.arm.payload.get? "requestId").bind asStr

/-- The timeout that `expireDeadline` puts to a session row. -/
def timeoutCommand (delivery : Delivery) (requestId : String) (row : Row) (clock : ℚ) : Command where
  inputId := deadlineAlarmId requestId
  sessionId := delivery.arm.sessionId
  «at» := clock
  expectedRevision := row.revision
  authority := delivery.authority
  payload := .timeout requestId

def requestSnapshot (db : Db) (row : Row) (requestId inputId : String) (request : Option Request)
    (domainRevisions : Option DomainRevisions) (requests : List Request) : RequestSnapshot where
  row
  inputRecord := db.requestInputById row.id inputId
  invocation := db.actionById requestId
  request
  domainRevisions
  requests := some requests

/-- The commit of `appendFiredAlarm`. -/
def firedCommit (delivery : Delivery) (outcome : FiredOutcome) (parentId : Option String) (now : ℚ)
    (row : Row) : Commit where
  sessionId := delivery.arm.sessionId
  owner := delivery.authority.owner
  fence := delivery.authority.fence
  now := now
  expectedRevision := row.revision
  actions := [firedAction {
    parentId, sessionId := delivery.arm.sessionId, purpose := delivery.arm.purpose,
    alarmId := delivery.arm.alarmId, occurrenceId := delivery.arm.occurrenceId, outcome, ts := now }]
  state := row.state

/-- A session file, its callers, and the deliveries its activations took up. -/
structure AlarmSystem extends RequestSystem where
  deliveries : List Delivery := []

inductive AlarmEvent where
  | request (event : RequestEvent)
  | arrive (arm : Arm) (tick : Option ℚ) (authority : Authority)
  | skip (delivery : Delivery)
  | strike (delivery : Delivery)
  | wake (delivery : Delivery) (outcome : FiredOutcome)
  | expireClosed (delivery : Delivery) (requestId : String)
  | expireUnrecorded (delivery : Delivery) (requestId : String) (row : Row) (clock : ℚ)
  | expireLanded (delivery : Delivery) (command : Command) (commit : Commit)
  | fire (delivery : Delivery) (outcome : FiredOutcome)

def RequestEvent.isFork : RequestEvent → Bool
  | .fork .. => true
  | _ => false

def RequestEvent.keepsFile (db : Db) : RequestEvent → Prop
  | .other op => ∀ id ∈ op.creates, ∀ session ∈ db.sessions, session.id = id
  | _ => True

def AlarmSystem.deliver (s : AlarmSystem) (delivery : Delivery) (stage : DeliveryStage) :
    AlarmSystem :=
  { s with deliveries := { delivery with stage } :: s.deliveries }

def AlarmSystem.withDb (s : AlarmSystem) (db : Db) : AlarmSystem := { s with db }

/-- One event. Every delivery is of an arm the ledger has, comes to an activation that adopted its
authority, and may come again at any time; a crash leaves it at its stage. A timeout that records
nothing is answered like one that does. -/
inductive AlarmSystem.Step (cap : ℕ) (recentOpen : ApprovalRecentOpen) (s : AlarmSystem) :
    AlarmEvent → AlarmSystem → Prop where
  | request (event : RequestEvent) (t : RequestSystem)
      (hstep : RequestSystem.Step cap recentOpen s.toRequestSystem event t)
      (hfile : event.keepsFile s.db) :
      Step cap recentOpen s (.request event)
        { toRequestSystem := t, deliveries := if event.isFork then [] else s.deliveries }
  | arrive (arm : Arm) (tick : Option ℚ) (authority : Authority)
      (harm : ∃ node ∈ s.db.actions, node.toAppend = armAction arm)
      (hheld : Held s.db arm.sessionId authority) :
      Step cap recentOpen s (.arrive arm tick authority)
        (s.deliver ⟨arm, tick, authority, .arrived⟩ .arrived)
  | skip (delivery : Delivery) (reason : AlarmSkipReason) (hmem : delivery ∈ s.deliveries)
      (hstage : delivery.stage = .arrived) (hquiet : delivery.tick = none)
      (hskip : delivery.disposition s.db = .skip reason) :
      Step cap recentOpen s (.skip delivery) (s.deliver delivery (.firing .stale))
  | strike (delivery : Delivery) (hmem : delivery ∈ s.deliveries)
      (hstage : delivery.stage = .arrived) (hcurrent : delivery.tickIsCurrent s.db = true)
      (hrun : delivery.disposition s.db = .run) :
      Step cap recentOpen s (.strike delivery)
        ((s.withDb { s.db with armed := strikeArmed delivery.arm.occurrenceId s.db.armed }).deliver
          delivery (delivery.afterStrike s.db))
  | wake (delivery : Delivery) (outcome : FiredOutcome) (hmem : delivery ∈ s.deliveries)
      (hstage : delivery.stage = .struck) (hpurpose : delivery.arm.purpose ≠ "deadline")
      (hreserved : delivery.arm.purpose ∈ reservedPurposes → outcome = .delivered) :
      Step cap recentOpen s (.wake delivery outcome) (s.deliver delivery (.firing outcome))
  | expireClosed (delivery : Delivery) (requestId : String) (request : Option Request)
      (hmem : delivery ∈ s.deliveries) (hstage : delivery.stage = .struck)
      (hpurpose : delivery.arm.purpose = "deadline") (hbody : delivery.requestId = some requestId)
      (hread : s.db.requestById requestId = some request)
      (hclosed : ∀ found, request = some found → found.state ≠ .opened) :
      Step cap recentOpen s (.expireClosed delivery requestId) (s.deliver delivery (.firing .delivered))
  | expireUnrecorded (delivery : Delivery) (requestId : String) (row : Row) (clock : ℚ)
      (request : Option Request) (domainRevisions : Option DomainRevisions) (requests : List Request)
      (hmem : delivery ∈ s.deliveries) (hstage : delivery.stage = .struck)
      (hpurpose : delivery.arm.purpose = "deadline") (hbody : delivery.requestId = some requestId)
      (hrow : s.db.selectSession delivery.arm.sessionId = some row)
      (hread : s.db.requestById requestId = some request)
      (hnothing : (decideRequestTransition (timeoutCommand delivery requestId row clock)
        (requestSnapshot s.db row requestId (deadlineAlarmId requestId) request domainRevisions requests)
        recentOpen).actions = []) :
      Step cap recentOpen s (.expireUnrecorded delivery requestId row clock)
        (s.deliver delivery (.firing .delivered))
  | expireLanded (delivery : Delivery) (requestId : String) (command : Command)
      (decision : RequestDecision) (authority : Authority) (now : ℚ) (state : SessionState)
      (hmem : delivery ∈ s.deliveries) (hstage : delivery.stage = .struck)
      (hpurpose : delivery.arm.purpose = "deadline") (hbody : delivery.requestId = some requestId)
      (hcommand : command.payload = .timeout requestId)
      (hdecided : (command, decision) ∈ s.decided) (hactions : decision.actions ≠ [])
      (hlanded : refused (write cap (.commit
        (requestCommit command decision [] authority now state)) s.db).1 = false) :
      Step cap recentOpen s
        (.expireLanded delivery command (requestCommit command decision [] authority now state))
        ((s.withDb (write cap (.commit
          (requestCommit command decision [] authority now state)) s.db).2).deliver delivery
            (.firing .delivered))
  | fire (delivery : Delivery) (outcome : FiredOutcome) (parentId : Option String) (now : ℚ) (row : Row)
      (hmem : delivery ∈ s.deliveries) (hstage : delivery.stage = .firing outcome)
      (hnew : s.db.actionById (delivery.arm.occurrenceId ++ ":" ++ outcome.text) = none) :
      Step cap recentOpen s (.fire delivery outcome)
        (s.withDb (write cap (.commit (firedCommit delivery outcome parentId now row)) s.db).2)

def deadlineOccurrence (sessionId requestId : String) : String :=
  occurrenceId sessionId (deadlineAlarmId requestId) 1 "deadline"

/-- A request of its own session whose latest row leaves it open. -/
structure OpenOwned (db : Db) (row : Node) (request : Request) : Prop where
  latest : db.requestStateById request.requestId = some row
  fold : db.requestById request.requestId = some (some request)
  owned : request.sessionId = row.sessionId
  state : request.state = .opened

/-- The deadline alarm has an armed occurrence that is neither delivered nor exhausted. -/
def CanTimeOut (db : Db) (requestId : String) : Prop :=
  ∃ armed ∈ db.armed, armed.alarmId = deadlineAlarmId requestId ∧
    db.settled armed.occurrenceId = false

def OpenRequestsTimeOut (db : Db) : Prop :=
  ∀ row request, OpenOwned db row request → CanTimeOut db request.requestId

def IsFiringId (id : String) : Prop :=
  ∃ sessionId requestId, ∃ outcome : FiredOutcome,
    id = deadlineOccurrence sessionId requestId ++ ":" ++ outcome.text

def Arm.key (arm : Arm) : PlainValue :=
  occurrenceKey arm.sessionId arm.alarmId arm.armSeq arm.sourceKey

/-- What keeps the law, step by step. The timeout of an open request is decided at or past its
deadline, on an input id that is not taken, and no strike before it is the third; no other row fires,
retires, re-arms or takes the firing id of an open request's deadline; no two arms share a digest; a
fork's child does not own the parent's requests. -/
def AlarmEvent.Timely (s : AlarmSystem) : AlarmEvent → Prop
  | .request (.land command commit) => (∀ a ∈ commit.actions, ¬ IsFiringId a.id) ∧
      ∀ next, command.payload = .open next →
        s.db.settled (deadlineOccurrence command.sessionId next.requestId) = false
  | .request (.other op) => ∀ a ∈ op.rows, ¬ IsFiringId a.id ∧
      ∀ row request, OpenOwned s.db row request → SparesArmed (deadlineAlarmId request.requestId)
        (deadlineOccurrence row.sessionId request.requestId) a
  | .request (.fork parent childId _) => ∀ node ∈ s.db.rows parent.id, ∀ request,
      (node.effect.get? "request").bind Request.ofPlain = some request → request.sessionId ≠ childId
  | .arrive arm _ _ => ∀ sessionId requestId, CollisionFree
      [arm.key, occurrenceKey sessionId (deadlineAlarmId requestId) 1 "deadline"]
  | .strike delivery => ∀ row request, OpenOwned s.db row request →
      delivery.arm.occurrenceId = deadlineOccurrence row.sessionId request.requestId →
      delivery.afterStrike s.db ≠ .firing .exhausted
  | .expireUnrecorded delivery requestId row clock => ∀ node request, OpenOwned s.db node request →
      request.requestId = requestId →
      (timeoutCommand delivery requestId row clock).valid = true ∧
        s.db.requestInputById row.id (deadlineAlarmId requestId) = none ∧ request.deadline ≤ clock
  | .expireLanded _ _ commit => ∀ a ∈ commit.actions, ¬ IsFiringId a.id
  | _ => True

end

end OpenOmni
