import OpenOmni.Protocol.SessionTransition

/-! The rows of a turn and of the inputs it consumes, with their JSON form and its parse. -/
namespace OpenOmni
open Option (bind_eq_some_iff)

open PlainValue SessionTransition

inductive InputKind where
  | prompt | interrupt | resume | cancel | action
deriving DecidableEq

def InputKind.text : InputKind → String
  | .prompt => "prompt"
  | .interrupt => "interrupt"
  | .resume => "resume"
  | .cancel => "cancel"
  | .action => "action"

def InputKind.members : List InputKind := [.prompt, .interrupt, .resume, .cancel, .action]

/-- `DeliveryWidth`: the boundary an input waits for. -/
inductive DeliveryWidth where
  | steer | followUp
deriving DecidableEq

def DeliveryWidth.text : DeliveryWidth → String
  | .steer => "steer"
  | .followUp => "followUp"

def DeliveryWidth.members : List DeliveryWidth := [.steer, .followUp]

inductive DeliveryStatus where
  | pending | consumed
deriving DecidableEq

/-- `Delivery.Row`; `consumedBy` and `consumedAt` are null wherever one is read. -/
structure DeliveryRow where
  id : String
  sessionId : String
  kind : InputKind
  content : String
  origin : PlainValue
  delivery : Option DeliveryWidth
  after : Option ℕ
  status : DeliveryStatus
  createdAt : ℚ
  ordinal : ℕ
deriving DecidableEq

namespace SessionTurn

/-- `SessionTurn.Boundary`, and the end of a turn that `boundaryConsumption` takes beside it. -/
inductive Boundary where
  | beforeLlm | afterLlm | afterTools | turnEnd
deriving DecidableEq

def Boundary.text : Boundary → String
  | .beforeLlm => "before_llm"
  | .afterLlm => "after_llm"
  | .afterTools => "after_tools"
  | .turnEnd => "turn_end"

def Boundary.members : List Boundary := [.beforeLlm, .afterLlm, .afterTools]

structure Pinned where
  toolsGeneration : ℕ
  toolsHash : String
  systemHash : String
  policyGeneration : ℕ
deriving DecidableEq

/-- `SessionTurn.Context`: what the row's projection was taken from. -/
structure Context where
  snapshotActionId : String
  sourceRevision : ℕ
  projectionHash : String
  messageIds : List String
  successorActionId : Option String

/-- `SessionTurn.DecodeIntent`; without a context it is the historical form. -/
structure Intent where
  pinned : Pinned
  resultId : String
  deliveryIds : List String
  consumedStale : Option (List String)
  resumeCount : ℕ
  boundaryActionId : Option String
  context : Option Context

/-- `SessionTurn.DecodeResume`. -/
structure Resume where
  pinned : Pinned
  turnId : String
  resultId : String
  resumeCount : ℕ
  boundaryActionId : Option String
  context : Option Context

structure Checkpoint where
  turnId : String
  resultId : String
  resumeCount : ℕ
  boundaryActionId : Option String
  boundary : Boundary

inductive TerminalKind where
  | result | interrupted | error | waiting
deriving DecidableEq

def TerminalKind.text : TerminalKind → String
  | .result => "result"
  | .interrupted => "interrupted"
  | .error => "error"
  | .waiting => "waiting"

def TerminalKind.members : List TerminalKind := [.result, .interrupted, .error, .waiting]

/-- `SessionTurn.Terminal`. `alarmIds` stand with the reason `live_wait`, and only with it. -/
structure Terminal where
  turnId : String
  kind : TerminalKind
  alarmIds : Option (List String)
  text : String
  boundaryActionId : Option String
  resumeCount : ℕ

def Pinned.slots (p : Pinned) : List (String × Option PlainValue) :=
  [("toolsGeneration", some (.num p.toolsGeneration)), ("toolsHash", some (.str p.toolsHash)),
    ("systemHash", some (.str p.systemHash)), ("policyGeneration", some (.num p.policyGeneration))]

def Context.toPlain (c : Context) : PlainValue :=
  record [("snapshotActionId", some (.str c.snapshotActionId)),
    ("sourceRevision", some (.num c.sourceRevision)), ("foldVersion", some (.num 1)),
    ("projectionHash", some (.str c.projectionHash)),
    ("messageIds", some (.arr (c.messageIds.map .str))),
    ("successorActionId", some (ofNullable .str c.successorActionId))]

def Intent.slots (t : Intent) : List (String × Option PlainValue) :=
  [("phase", some (.str "intent")), ("deliveryIds", some (.arr (t.deliveryIds.map .str))),
    ("consumedStale", t.consumedStale.map fun ids => .arr (ids.map .str)),
    ("resultId", some (.str t.resultId)), ("resumeCount", some (.num t.resumeCount)),
    ("boundaryActionId", some (ofNullable .str t.boundaryActionId)),
    ("context", t.context.map Context.toPlain)] ++ t.pinned.slots

def Intent.toPlain (t : Intent) : PlainValue := record t.slots

def Resume.slots (t : Resume) : List (String × Option PlainValue) :=
  [("phase", some (.str "resume")), ("turnId", some (.str t.turnId)),
    ("resultId", some (.str t.resultId)), ("resumeCount", some (.num t.resumeCount)),
    ("boundaryActionId", some (ofNullable .str t.boundaryActionId)),
    ("context", t.context.map Context.toPlain)] ++ t.pinned.slots

def Resume.toPlain (t : Resume) : PlainValue := record t.slots

def Checkpoint.slots (t : Checkpoint) : List (String × Option PlainValue) :=
  [("phase", some (.str "checkpoint")), ("turnId", some (.str t.turnId)),
    ("resultId", some (.str t.resultId)), ("resumeCount", some (.num t.resumeCount)),
    ("boundaryActionId", some (ofNullable .str t.boundaryActionId)),
    ("boundary", some (.str t.boundary.text))]

def Checkpoint.toPlain (t : Checkpoint) : PlainValue := record t.slots

def Terminal.slots (t : Terminal) : List (String × Option PlainValue) :=
  [("phase", some (.str "terminal")), ("turnId", some (.str t.turnId)), ("kind", some (.str t.kind.text)),
    ("reason", t.alarmIds.map fun _ => .str "live_wait"),
    ("alarmIds", t.alarmIds.map fun ids => .arr (ids.map .str)), ("text", some (.str t.text)),
    ("boundaryActionId", some (ofNullable .str t.boundaryActionId)),
    ("resumeCount", some (.num t.resumeCount))]

def Terminal.toPlain (t : Terminal) : PlainValue := record t.slots

def isPositiveSafe (n : ℕ) : Bool := decide (0 < n) && isSafe n

def Pinned.valid (p : Pinned) : Bool :=
  isPositiveSafe p.toolsGeneration && isId p.toolsHash && isId p.systemHash && isSafe p.policyGeneration

def Context.valid (c : Context) : Bool :=
  isId c.snapshotActionId && isSafe c.sourceRevision && isId c.projectionHash && c.messageIds.all isId &&
    isNullableId c.successorActionId

def Intent.valid (t : Intent) : Bool :=
  t.pinned.valid && isId t.resultId && t.deliveryIds.all isId && t.consumedStale.all (·.all isId) &&
    isSafe t.resumeCount && isNullableId t.boundaryActionId && t.context.all Context.valid

/-- `z.number().int().positive()`. -/
def readPositive (v : PlainValue) : Option ℕ := v.asCount.filter (0 < ·)

def readLiteral (text : String) (v : PlainValue) : Option Unit := v.asStr.bind fun s => guard (s = text)

def Pinned.ofPlain (v : PlainValue) : Option Pinned := do
  let toolsGeneration ← field v "toolsGeneration" readPositive
  let toolsHash ← field v "toolsHash" readId
  let systemHash ← field v "systemHash" readId
  let policyGeneration ← field v "policyGeneration" asCount
  return ⟨toolsGeneration, toolsHash, systemHash, policyGeneration⟩

def Context.ofPlain (v : PlainValue) : Option Context := do
  guard (v.strict ["snapshotActionId", "sourceRevision", "foldVersion", "projectionHash", "messageIds",
    "successorActionId"])
  let snapshotActionId ← field v "snapshotActionId" readId
  let sourceRevision ← field v "sourceRevision" asCount
  guard (v.get? "foldVersion" = some (.num 1))
  let projectionHash ← field v "projectionHash" readId
  let messageIds ← field v "messageIds" (asList readId)
  let successorActionId ← field v "successorActionId" (nullable readId)
  return ⟨snapshotActionId, sourceRevision, projectionHash, messageIds, successorActionId⟩

def pinnedKeys : List String := ["toolsGeneration", "toolsHash", "systemHash", "policyGeneration"]

def intentKeys : List String :=
  ["phase", "deliveryIds", "consumedStale", "resultId", "resumeCount", "boundaryActionId", "context"] ++
    pinnedKeys

/-- `DecodeIntent.safeParse`. -/
def Intent.ofPlain (v : PlainValue) : Option Intent := do
  guard (v.strict intentKeys)
  field v "phase" (readLiteral "intent")
  let deliveryIds ← field v "deliveryIds" (asList readId)
  let consumedStale ← optional (asList readId) (v.get? "consumedStale")
  let resultId ← field v "resultId" readId
  let resumeCount ← field v "resumeCount" asCount
  let boundaryActionId ← field v "boundaryActionId" (nullable readId)
  let context ← optional Context.ofPlain (v.get? "context")
  let pinned ← Pinned.ofPlain v
  return ⟨pinned, resultId, deliveryIds, consumedStale, resumeCount, boundaryActionId, context⟩

def resumeKeys : List String :=
  ["phase", "turnId", "resultId", "resumeCount", "boundaryActionId", "context"] ++ pinnedKeys

/-- `DecodeResume.safeParse`. -/
def Resume.ofPlain (v : PlainValue) : Option Resume := do
  guard (v.strict resumeKeys)
  field v "phase" (readLiteral "resume")
  let turnId ← field v "turnId" readId
  let resultId ← field v "resultId" readId
  let resumeCount ← field v "resumeCount" readPositive
  let boundaryActionId ← field v "boundaryActionId" (nullable readId)
  let context ← optional Context.ofPlain (v.get? "context")
  let pinned ← Pinned.ofPlain v
  return ⟨pinned, turnId, resultId, resumeCount, boundaryActionId, context⟩

def checkpointKeys : List String :=
  ["phase", "turnId", "resultId", "resumeCount", "boundaryActionId", "boundary"]

/-- `Checkpoint.safeParse`. -/
def Checkpoint.ofPlain (v : PlainValue) : Option Checkpoint := do
  guard (v.strict checkpointKeys)
  field v "phase" (readLiteral "checkpoint")
  let turnId ← field v "turnId" readId
  let resultId ← field v "resultId" readId
  let resumeCount ← field v "resumeCount" asCount
  let boundaryActionId ← field v "boundaryActionId" (nullable readId)
  let boundary ← field v "boundary" (readEnum Boundary.members Boundary.text)
  return ⟨turnId, resultId, resumeCount, boundaryActionId, boundary⟩

def terminalKeys : List String :=
  ["phase", "turnId", "kind", "reason", "alarmIds", "text", "boundaryActionId", "resumeCount"]

/-- `Terminal.safeParse`. -/
def Terminal.ofPlain (v : PlainValue) : Option Terminal := do
  guard (v.strict terminalKeys)
  field v "phase" (readLiteral "terminal")
  let turnId ← field v "turnId" readId
  let kind ← field v "kind" (readEnum TerminalKind.members TerminalKind.text)
  let reason ← optional (readLiteral "live_wait") (v.get? "reason")
  let alarmIds ← optional (asList readId) (v.get? "alarmIds")
  guard (alarmIds ≠ some [])
  let text ← field v "text" asStr
  let boundaryActionId ← field v "boundaryActionId" (nullable readId)
  let resumeCount ← field v "resumeCount" asCount
  guard (if kind = .waiting then reason.isSome && alarmIds.isSome else reason.isNone && alarmIds.isNone)
  return ⟨turnId, kind, alarmIds, text, boundaryActionId, resumeCount⟩

lemma readPositive_num {n : ℕ} (h : isPositiveSafe n = true) : readPositive (.num n) = some n := by
  simp only [isPositiveSafe, Bool.and_eq_true] at h
  simp [readPositive, asCount_safe h.2, h.1, Option.filter, -asCount_num]

@[simp] theorem readLiteral_str (text : String) : readLiteral text (.str text) = some () := by
  simp [readLiteral]

variable {text key : String} {t : Intent} {v : PlainValue}

lemma readLiteral_ne {other : String} (h : other ≠ text) : readLiteral text (.str other) = none := by
  simp [readLiteral, h]

lemma Intent.get?_toPlain (t : Intent) (key : String) :
    t.toPlain.get? key = (t.slots.lookup key).join := by
  have hkeys : t.slots.map Prod.fst = intentKeys := rfl
  exact get?_record (hkeys ▸ by decide) key

lemma Resume.get?_toPlain (t : Resume) (key : String) :
    t.toPlain.get? key = (t.slots.lookup key).join := by
  have hkeys : t.slots.map Prod.fst = resumeKeys := rfl
  exact get?_record (hkeys ▸ by decide) key

lemma Checkpoint.get?_toPlain (t : Checkpoint) (key : String) :
    t.toPlain.get? key = (t.slots.lookup key).join := by
  have hkeys : t.slots.map Prod.fst = checkpointKeys := rfl
  exact get?_record (hkeys ▸ by decide) key

lemma Terminal.get?_toPlain (t : Terminal) (key : String) :
    t.toPlain.get? key = (t.slots.lookup key).join := by
  have hkeys : t.slots.map Prod.fst = terminalKeys := rfl
  exact get?_record (hkeys ▸ by decide) key

lemma Context.ofPlain_toPlain {c : Context} (h : c.valid = true) :
    Context.ofPlain c.toPlain = some c := by
  simp only [Context.valid, Bool.and_eq_true] at h
  obtain ⟨⟨⟨⟨hsnapshot, hrevision⟩, hprojection⟩, hmessages⟩, hsuccessor⟩ := h
  have hstrict : c.toPlain.strict ["snapshotActionId", "sourceRevision", "foldVersion", "projectionHash",
      "messageIds", "successorActionId"] = true := strict_record (by simp)
  unfold Context.ofPlain
  rw [hstrict]
  simp [Context.toPlain, field, get?_record, List.lookup, readId_valid hsnapshot,
    asCount_safe hrevision, readId_valid hprojection, asList_readId hmessages,
    nullable_readId hsuccessor, -asCount_num]

lemma optional_context {context : Option Context} (h : context.all Context.valid = true) :
    optional Context.ofPlain (context.map Context.toPlain) = some context := by
  cases context with
  | none => rfl
  | some c => simp [Context.ofPlain_toPlain (by simpa using h)]

lemma optional_ids {ids : Option (List String)} (h : ids.all (·.all isId) = true) :
    optional (asList readId) (ids.map fun ids => .arr (ids.map .str)) = some ids := by
  cases ids with
  | none => rfl
  | some ids => simp [asList_readId (by simpa using h)]

theorem Intent.ofPlain_toPlain (h : t.valid = true) : Intent.ofPlain t.toPlain = some t := by
  simp only [Intent.valid, Pinned.valid, Bool.and_eq_true] at h
  obtain ⟨⟨⟨⟨⟨⟨⟨⟨⟨hgeneration, htools⟩, hsystem⟩, hpolicy⟩, hresult⟩, hids⟩, hstale⟩, hcount⟩, hboundary⟩,
    hcontext⟩ := h
  have hstrict : t.toPlain.strict intentKeys = true :=
    strict_record (by simp [intentKeys, pinnedKeys, Intent.slots, Pinned.slots])
  unfold Intent.ofPlain Pinned.ofPlain
  rw [hstrict]
  simp [Intent.get?_toPlain, Intent.slots, Pinned.slots, field, List.lookup, asList_readId hids,
    optional_ids hstale, readId_valid hresult, asCount_safe hcount, nullable_readId hboundary,
    optional_context hcontext, readPositive_num hgeneration, readId_valid htools, readId_valid hsystem,
    asCount_safe hpolicy, -asCount_num]

theorem field_readLiteral (h : field v key (readLiteral text) = some ()) : v.get? key = some (.str text) := by
  cases hget : v.get? key with
  | none => simp [field, hget] at h
  | some w =>
    cases w with
    | str s =>
      have heq : s = text := by
        by_contra hne
        simp [field, hget, readLiteral_ne hne] at h
      rw [heq]
    | _ => simp [field, hget, readLiteral, asStr] at h

lemma field_readId {id : String} (h : field v key readId = some id) : v.get? key = some (.str id) := by
  obtain ⟨w, hget, hread⟩ := bind_eq_some_iff.mp h
  obtain ⟨hstr, -⟩ := Option.filter_eq_some_iff.mp hread
  cases w with
  | str s => rw [hget, Option.some.inj hstr]
  | _ => cases hstr

lemma Terminal.ofPlain_some {t : Terminal} (h : Terminal.ofPlain v = some t) :
    v.get? "phase" = some (.str "terminal") ∧ v.get? "turnId" = some (.str t.turnId) := by
  unfold Terminal.ofPlain at h
  simp only [Option.bind_eq_bind, bind_eq_some_iff] at h
  obtain ⟨-, -, _, hphase, turnId, hturn, kind, -, reason, -, alarmIds, -, -, -, text, -, boundaryActionId, -, resumeCount, -, -, -, h⟩ := h
  cases h
  exact ⟨field_readLiteral hphase, field_readId hturn⟩

lemma Intent.ofPlain_strict (h : Intent.ofPlain v = some t) :
    v.strict intentKeys = true ∧ v.get? "phase" = some (.str "intent") := by
  unfold Intent.ofPlain at h
  obtain ⟨_, hguard, h⟩ := bind_eq_some_iff.mp h
  obtain ⟨_, hphase, -⟩ := bind_eq_some_iff.mp h
  refine ⟨?_, field_readLiteral hphase⟩
  by_contra hnot
  simp [hnot] at hguard

end SessionTurn
end OpenOmni
