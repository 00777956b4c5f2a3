import OpenOmni.Protocol.Ledger

/-! The one constructor of alarm rows and the guard a delivered occurrence passes. -/
namespace OpenOmni

/-- The latest committed arm of one alarm; `at` is `none` once the arm retired it. -/
structure AlarmArmView where
  occurrenceId : String
  «at» : Option ℚ

inductive AlarmSkipReason where
  | superseded | settled | unknown
deriving DecidableEq

inductive AlarmDisposition where
  | run
  | skip (reason : AlarmSkipReason)
deriving DecidableEq

/-- `alarmDisposition`: an occurrence runs when the latest arm still names it, is not retired, and no
accepted firing settled it. -/
def alarmDisposition (latestArm : String → Option AlarmArmView) (settled : String → Bool)
    (alarmId occurrenceId : String) : AlarmDisposition :=
  match latestArm alarmId with
  | none => .skip .unknown
  | some arm =>
    if arm.occurrenceId ≠ occurrenceId ∨ arm.at = none then .skip .superseded
    else if settled occurrenceId then .skip .settled
    else .run

/-- The input of `armAction`. -/
structure Arm where
  parentId : Option String
  sessionId : String
  purpose : String
  «at» : Option ℚ
  supersedes : Option String
  alarmId : String
  sourceKey : String
  payload : PlainValue
  armSeq : ℕ
  ts : ℚ

/-- `MAX_OCCURRENCE_STRIKES`: deliveries one occurrence may consume. -/
def maxOccurrenceStrikes : ℕ := 3

inductive FiredOutcome where
  | delivered | stale | exhausted
deriving DecidableEq

def FiredOutcome.text : FiredOutcome → String
  | .delivered => "delivered"
  | .stale => "stale"
  | .exhausted => "exhausted"

/-- The input of `firedAction`. -/
structure Fired where
  parentId : Option String
  sessionId : String
  purpose : String
  alarmId : String
  occurrenceId : String
  outcome : FiredOutcome
  ts : ℚ

/-- `firedAction`: one row per occurrence and outcome. -/
def firedAction (input : Fired) : Append where
  id := input.occurrenceId ++ ":" ++ input.outcome.text
  parentId := input.parentId
  sessionId := input.sessionId
  kind := .alarm
  intent := .record [("op", some (.str "fired")), ("occurrenceId", some (.str input.occurrenceId)),
    ("outcome", some (.str input.outcome.text)), ("purpose", some (.str input.purpose)),
    ("alarmId", some (.str input.alarmId))]
  effect := .record [("op", some (.str "fired")), ("occurrenceId", some (.str input.occurrenceId)),
    ("outcome", some (.str input.outcome.text))]
  ts := input.ts

variable [PlainCoding]

def Arm.occurrenceId (input : Arm) : String :=
  OpenOmni.occurrenceId input.sessionId input.alarmId input.armSeq input.sourceKey

/-- `armAction`: the row that mints an occurrence. -/
def armAction (input : Arm) : Append where
  id := input.alarmId ++ ":arm:" ++ toString input.armSeq
  parentId := input.parentId
  sessionId := input.sessionId
  kind := .alarm
  intent := .record [("op", some (.str "arm")), ("purpose", some (.str input.purpose)),
    ("at", some (.ofNullable .num input.at)),
    ("supersedes", some (.ofNullable .str input.supersedes)),
    ("alarmId", some (.str input.alarmId)), ("sourceKey", some (.str input.sourceKey)),
    ("payload", some input.payload)]
  effect := .record [("occurrenceId", some (.str input.occurrenceId))]
  ts := input.ts

end OpenOmni
