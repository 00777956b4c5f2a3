import OpenOmni.Protocol.SessionTurn

/-! The messages of a model context and the results of tool calls, with their JSON form and its parse. -/
namespace OpenOmni

open PlainValue SessionTransition

abbrev PlainObject := List (String × PlainValue)

namespace Tool

inductive State where
  | pending (input : PlainObject)
  | running (input : PlainObject) (start : ℚ)
  | completed (input : PlainObject) (output title : String) (metadata : PlainObject) (start «end» : ℚ)
  | error (input : PlainObject) (error : String) (start «end» : ℚ)
deriving DecidableEq

structure Result where
  id : String
  toolCallId : String
  toolName : Option String
  content : Option String
  output : Option String
  details : Option PlainValue
  structuredContent : Option PlainValue
  isError : Option Bool
  settlement : Option String

/-- `toolResultText`. -/
def Result.text (r : Result) : String := (r.content.or r.output).getD ""

def startTime (start : ℚ) : PlainValue := record [("start", some (.num start))]

def spanTime (start stop : ℚ) : PlainValue := record [("start", some (.num start)), ("end", some (.num stop))]

def State.toPlain : State → PlainValue
  | .pending input => record [("status", some (.str "pending")), ("input", some (.obj input))]
  | .running input start =>
    record [("status", some (.str "running")), ("input", some (.obj input)), ("time", some (startTime start))]
  | .completed input output title metadata start stop =>
    record [("status", some (.str "completed")), ("input", some (.obj input)), ("output", some (.str output)),
      ("title", some (.str title)), ("metadata", some (.obj metadata)), ("time", some (spanTime start stop))]
  | .error input message start stop =>
    record [("status", some (.str "error")), ("input", some (.obj input)), ("error", some (.str message)),
      ("time", some (spanTime start stop))]

def readStart (v : PlainValue) : Option ℚ := field v "time" fun time => field time "start" readEpoch

def readEnd (v : PlainValue) : Option ℚ := field v "time" fun time => field time "end" readEpoch

/-- `Tool.State.parse`. -/
def State.ofPlain (v : PlainValue) : Option State := do
  let status ← field v "status" asStr
  let input ← field v "input" asObj
  match status with
  | "pending" => return .pending input
  | "running" => return .running input (← readStart v)
  | "completed" =>
    let output ← field v "output" asStr
    let title ← field v "title" asStr
    let metadata ← field v "metadata" asObj
    return .completed input output title metadata (← readStart v) (← readEnd v)
  | "error" =>
    let message ← field v "error" asStr
    return .error input message (← readStart v) (← readEnd v)
  | _ => none

/-- `TOOL_RESULT_JSON_MAX_BYTES`. -/
def resultJsonMaxBytes : ℕ := 262144

/-- `toolResultJsonSchema`. -/
def readBounded [PlainCoding] (v : PlainValue) : Option PlainValue :=
  if byteLength v ≤ resultJsonMaxBytes then some v else none

/-- `Tool.Result.parse`. -/
def Result.ofPlain [PlainCoding] (v : PlainValue) : Option Result := do
  let id ← field v "id" asStr
  let toolCallId ← field v "toolCallId" asStr
  let toolName ← optional asStr (v.get? "toolName")
  let content ← optional asStr (v.get? "content")
  let output ← optional asStr (v.get? "output")
  let details ← optional readBounded (v.get? "details")
  let structuredContent ← optional readBounded (v.get? "structuredContent")
  let isError ← optional asBool (v.get? "isError")
  let settlement ← optional (readEnum ["settled", "unknown"] fun s => s) (v.get? "settlement")
  guard (content.isSome || output.isSome)
  return ⟨id, toolCallId, toolName, content, output, details, structuredContent, isError, settlement⟩

end Tool

namespace Message

structure PartBase where
  id : String
  sessionID : String
  messageID : String
deriving DecidableEq

structure PartTime where
  start : ℚ
  «end» : Option ℚ
deriving DecidableEq

structure Tokens where
  input : ℕ
  output : ℕ
  reasoning : ℕ
  cacheRead : ℕ
  cacheWrite : ℕ
deriving DecidableEq

inductive Part where
  | text (base : PartBase) (text : String) (time : Option PartTime) (metadata : Option PlainObject)
  | reasoning (base : PartBase) (text : String) (signature : Option String) (time : PartTime)
      (metadata : Option PlainObject)
  | stepStart (base : PartBase)
  | stepFinish (base : PartBase) (reason : String) (tokens : Tokens)
  | tool (base : PartBase) (callID tool : String) (state : Tool.State)
deriving DecidableEq

structure UserMessage where
  id : String
  sessionID : String
  created : ℚ
  agent : String
  providerID : String
  modelID : String
  system : Option String := none
  tools : Option (List (String × Bool)) := none
  variant : Option String := none
deriving DecidableEq

/-- `Message.AssistantMessage`; `path` holds `cwd` and `root`. -/
structure AssistantMessage where
  id : String
  sessionID : String
  created : ℚ
  completed : Option ℚ := none
  parentID : String
  modelID : String
  providerID : String
  agent : String
  path : Option (String × String) := none
  tokens : Tokens
  finish : Option String := none
deriving DecidableEq

inductive Info where
  | user (message : UserMessage)
  | assistant (message : AssistantMessage)
deriving DecidableEq

namespace Info

def id : Info → String
  | .user m => m.id
  | .assistant m => m.id

def sessionID : Info → String
  | .user m => m.sessionID
  | .assistant m => m.sessionID

def created : Info → ℚ
  | .user m => m.created
  | .assistant m => m.created

end Info

structure WithParts where
  info : Info
  parts : List Part
deriving DecidableEq

def PartBase.slots (b : PartBase) : List (String × Option PlainValue) :=
  [("id", some (.str b.id)), ("sessionID", some (.str b.sessionID)), ("messageID", some (.str b.messageID))]

def PartTime.toPlain (t : PartTime) : PlainValue := record [("start", some (.num t.start)), ("end", t.end.map .num)]

def Tokens.toPlain (t : Tokens) : PlainValue :=
  record [("input", some (.num t.input)), ("output", some (.num t.output)), ("reasoning", some (.num t.reasoning)),
    ("cache", some (record [("read", some (.num t.cacheRead)), ("write", some (.num t.cacheWrite))]))]

def Part.toPlain : Part → PlainValue
  | .text base body time metadata => record (base.slots ++ [("type", some (.str "text")), ("text", some (.str body)),
      ("time", time.map PartTime.toPlain), ("metadata", metadata.map .obj)])
  | .reasoning base body signature time metadata => record (base.slots ++ [("type", some (.str "reasoning")),
      ("text", some (.str body)), ("signature", signature.map .str), ("time", some time.toPlain),
      ("metadata", metadata.map .obj)])
  | .stepStart base => record (base.slots ++ [("type", some (.str "step-start"))])
  | .stepFinish base reason tokens => record (base.slots ++ [("type", some (.str "step-finish")),
      ("reason", some (.str reason)), ("tokens", some tokens.toPlain)])
  | .tool base callID name state => record (base.slots ++ [("type", some (.str "tool")), ("callID", some (.str callID)),
      ("tool", some (.str name)), ("state", some state.toPlain)])

def UserMessage.toPlain (m : UserMessage) : PlainValue :=
  record [("id", some (.str m.id)), ("sessionID", some (.str m.sessionID)), ("role", some (.str "user")),
    ("time", some (record [("created", some (.num m.created))])), ("agent", some (.str m.agent)),
    ("model", some (record [("providerID", some (.str m.providerID)), ("modelID", some (.str m.modelID))])),
    ("system", m.system.map .str), ("tools", m.tools.map fun tools => .obj (tools.map fun e => (e.1, .bool e.2))),
    ("variant", m.variant.map .str)]

def AssistantMessage.toPlain (m : AssistantMessage) : PlainValue :=
  record [("id", some (.str m.id)), ("sessionID", some (.str m.sessionID)), ("role", some (.str "assistant")),
    ("time", some (record [("created", some (.num m.created)), ("completed", m.completed.map .num)])),
    ("parentID", some (.str m.parentID)), ("modelID", some (.str m.modelID)), ("providerID", some (.str m.providerID)),
    ("agent", some (.str m.agent)),
    ("path", m.path.map fun path => record [("cwd", some (.str path.1)), ("root", some (.str path.2))]),
    ("tokens", some m.tokens.toPlain), ("finish", m.finish.map .str)]

def Info.toPlain : Info → PlainValue
  | .user m => m.toPlain
  | .assistant m => m.toPlain

def WithParts.toPlain (m : WithParts) : PlainValue :=
  record [("info", some m.info.toPlain), ("parts", some (.arr (m.parts.map Part.toPlain)))]

def PartBase.ofPlain (v : PlainValue) : Option PartBase := do
  return ⟨← field v "id" asStr, ← field v "sessionID" asStr, ← field v "messageID" asStr⟩

def PartTime.ofPlain (v : PlainValue) : Option PartTime := do
  return ⟨← field v "start" readEpoch, ← optional readEpoch (v.get? "end")⟩

def readLane (v : PlainValue) (key : String) : Option ℕ := (optional asCount (v.get? key)).map (·.getD 0)

/-- The tokens of a step; rows from before the reasoning and cache lanes lack them. -/
def Tokens.ofStep (v : PlainValue) : Option Tokens := do
  let input ← field v "input" asCount
  let output ← field v "output" asCount
  let reasoning ← readLane v "reasoning"
  match v.get? "cache" with
  | none => return ⟨input, output, reasoning, 0, 0⟩
  | some cache =>
    guard cache.objectValue.isSome
    return ⟨input, output, reasoning, ← readLane cache "read", ← readLane cache "write"⟩

def Tokens.ofPlain (v : PlainValue) : Option Tokens := do
  let input ← field v "input" asCount
  let output ← field v "output" asCount
  let reasoning ← field v "reasoning" asCount
  let cacheRead ← field v "cache" fun cache => field cache "read" asCount
  let cacheWrite ← field v "cache" fun cache => field cache "write" asCount
  return ⟨input, output, reasoning, cacheRead, cacheWrite⟩

/-- `Message.Part.parse`. -/
def Part.ofPlain (v : PlainValue) : Option Part := do
  let type ← field v "type" asStr
  let base ← PartBase.ofPlain v
  match type with
  | "text" =>
    let body ← field v "text" asStr
    let time ← optional PartTime.ofPlain (v.get? "time")
    let metadata ← optional asObj (v.get? "metadata")
    return .text base body time metadata
  | "reasoning" =>
    let body ← field v "text" asStr
    let signature ← optional asStr (v.get? "signature")
    let time ← field v "time" PartTime.ofPlain
    let metadata ← optional asObj (v.get? "metadata")
    return .reasoning base body signature time metadata
  | "step-start" => return .stepStart base
  | "step-finish" => return .stepFinish base (← field v "reason" asStr) (← field v "tokens" Tokens.ofStep)
  | "tool" =>
    let callID ← field v "callID" asStr
    let name ← field v "tool" asStr
    return .tool base callID name (← field v "state" Tool.State.ofPlain)
  | _ => none

def readFlag (e : String × PlainValue) : Option (String × Bool) := e.2.asBool.map (e.1, ·)

def UserMessage.ofPlain (v : PlainValue) : Option UserMessage := do
  let id ← field v "id" asStr
  let sessionID ← field v "sessionID" asStr
  let created ← field v "time" fun time => field time "created" readEpoch
  let agent ← field v "agent" asStr
  let providerID ← field v "model" fun model => field model "providerID" asStr
  let modelID ← field v "model" fun model => field model "modelID" asStr
  let system ← optional asStr (v.get? "system")
  let tools ← optional (fun tools => tools.asObj.bind (·.mapM readFlag)) (v.get? "tools")
  let variant ← optional asStr (v.get? "variant")
  return ⟨id, sessionID, created, agent, providerID, modelID, system, tools, variant⟩

def readPath (v : PlainValue) : Option (String × String) := do return (← field v "cwd" asStr, ← field v "root" asStr)

def AssistantMessage.ofPlain (v : PlainValue) : Option AssistantMessage := do
  let id ← field v "id" asStr
  let sessionID ← field v "sessionID" asStr
  let created ← field v "time" fun time => field time "created" readEpoch
  let completed ← field v "time" fun time => optional readEpoch (time.get? "completed")
  let parentID ← field v "parentID" asStr
  let modelID ← field v "modelID" asStr
  let providerID ← field v "providerID" asStr
  let agent ← field v "agent" asStr
  let path ← optional readPath (v.get? "path")
  let tokens ← field v "tokens" Tokens.ofPlain
  let finish ← optional asStr (v.get? "finish")
  return ⟨id, sessionID, created, completed, parentID, modelID, providerID, agent, path, tokens, finish⟩

/-- `Message.Info.parse`. -/
def Info.ofPlain (v : PlainValue) : Option Info := do
  let role ← field v "role" asStr
  match role with
  | "user" => (UserMessage.ofPlain v).map .user
  | "assistant" => (AssistantMessage.ofPlain v).map .assistant
  | _ => none

/-- `Message.WithParts.parse`. -/
def WithParts.ofPlain (v : PlainValue) : Option WithParts := do
  let info ← field v "info" Info.ofPlain
  let parts ← field v "parts" (asList Part.ofPlain)
  return ⟨info, parts⟩

@[simp] theorem optional_asStr (s : Option String) : optional asStr (s.map .str) = some s := by
  cases s <;> rfl

@[simp] theorem optional_asObj (o : Option PlainObject) : optional asObj (o.map .obj) = some o := by
  cases o <;> rfl

lemma mapM_readFlag (tools : List (String × Bool)) :
    (tools.map fun e => (e.1, PlainValue.bool e.2)).mapM readFlag = some tools :=
  mapM_map fun _ _ => rfl

end Message
end OpenOmni
