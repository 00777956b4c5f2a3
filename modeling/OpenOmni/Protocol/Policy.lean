import Mathlib.Order.Basic
import OpenOmni.Protocol.Ledger

/-! Policy points, the rows that compile onto them, and the decisions they fold to. -/
namespace OpenOmni

inductive PointId where
  | ingressPre | sessionOpen | promptPre | turnPre | turnPost | llmPre | llmPost | messagePre
  | toolPre | toolPost | compactionPre | compactionPost | alarmFired | actionPre
deriving DecidableEq

namespace PointId

def all : List PointId :=
  [.ingressPre, .sessionOpen, .promptPre, .turnPre, .turnPost, .llmPre, .llmPost, .messagePre, .toolPre, .toolPost,
    .compactionPre, .compactionPost, .alarmFired, .actionPre]

def id : PointId → String
  | ingressPre => "ingress.pre"
  | sessionOpen => "session.open"
  | promptPre => "prompt.pre"
  | turnPre => "turn.pre"
  | turnPost => "turn.post"
  | llmPre => "llm.pre"
  | llmPost => "llm.post"
  | messagePre => "message.pre"
  | toolPre => "tool.pre"
  | toolPost => "tool.post"
  | compactionPre => "compaction.pre"
  | compactionPost => "compaction.post"
  | alarmFired => "alarm.fired"
  | actionPre => "action.pre"

/-- `PointId.safeParse`. -/
def parse (s : String) : Option PointId := all.find? (·.id = s)

lemma mem_all (point : PointId) : point ∈ all := by
  cases point <;> decide

lemma id_inj : ∀ {a b : PointId}, a.id = b.id → a = b := by
  intro a b h
  have hall : ∀ a ∈ all, ∀ b ∈ all, a.id = b.id → a = b := by decide
  exact hall a (mem_all a) b (mem_all b) h

lemma id_of_parse {s : String} {point : PointId} (h : parse s = some point) : point.id = s := by
  simpa using List.find?_some h

end PointId

inductive PointDo where
  | gate | rewrite | emit | observe
deriving DecidableEq

def PointDo.text : PointDo → String
  | gate => "gate"
  | rewrite => "rewrite"
  | emit => "emit"
  | observe => "observe"

structure PointRecord where
  id : PointId
  allowedDo : List PointDo
  rewritableFields : List String
  whenFields : List String
  «end» : Bool := false
  /-- The declared fields of a rewrite row are only checked for being there. -/
  rewriteOpen : Bool := false

def contextWhenFields : List String := ["op", "operation", "role", "sessionId"]

private def pointRecord (id : PointId) (allowedDo : List PointDo) (rewritableFields whenFields : List String)
    («end» rewriteOpen : Bool) : PointRecord where
  id := id
  allowedDo := allowedDo
  rewritableFields := rewritableFields
  whenFields := contextWhenFields ++ whenFields.filter fun field => !contextWhenFields.contains field
  «end» := «end»
  rewriteOpen := rewriteOpen

def corePointRecords : List PointRecord :=
  [pointRecord .ingressPre [.gate, .rewrite, .observe] ["visibility"] ["kind", "channel", "actor", "grant"] false false,
    pointRecord .sessionOpen [.gate, .emit, .observe] [] ["generation"] false false,
    pointRecord .promptPre [.gate, .rewrite, .emit, .observe] ["body", "visibility"] ["kind", "origin", "delivery"]
      false false,
    pointRecord .turnPre [.gate, .rewrite, .emit, .observe] ["budget"] ["kind"] false false,
    pointRecord .turnPost [.gate, .rewrite, .observe] ["budget", "stop", "result"] ["kind", "stopReason", "metric"]
      true false,
    pointRecord .llmPre [.gate, .rewrite, .emit, .observe] ["messages", "model", "tools"] ["model"] false false,
    pointRecord .llmPost [.gate, .rewrite, .emit, .observe] ["finishReason", "classify"] ["finishReason", "classify"]
      false false,
    pointRecord .messagePre [.gate, .rewrite, .observe] ["body", "to"] ["to", "kind"] false false]

def capabilityPointRecords : List PointRecord :=
  [pointRecord .toolPre [.gate, .rewrite, .emit, .observe] ["input"] ["op", "argsPattern", "annotations"] false true,
    pointRecord .toolPost [.gate, .rewrite, .emit, .observe] ["output"] ["op", "status"] false true,
    pointRecord .compactionPre [.gate, .rewrite, .emit, .observe] ["summary"] ["reason"] false false,
    pointRecord .compactionPost [.emit, .observe] [] [] false false,
    pointRecord .alarmFired [.emit, .observe] [] ["tag", "payloadPath"] false false,
    pointRecord .actionPre [.gate, .rewrite, .observe] ["body", "delivery"] ["handlerRef", "source"] false false]

/-- `EMIT_KINDS`. -/
inductive EmitKind where
  | message | alarm | compaction

def EmitKind.parse : String → Option EmitKind
  | "message" => some message
  | "alarm" => some alarm
  | "compaction" => some compaction
  | _ => none

inductive GateVerdict where
  | allow | requireApproval | deny
deriving DecidableEq

/-- `allow`, then `require_approval`, then `deny`. -/
def GateVerdict.rank : GateVerdict → ℕ
  | allow => 0
  | requireApproval => 1
  | deny => 2

lemma GateVerdict.rank_inj : Function.Injective GateVerdict.rank := by
  intro a b h
  cases a <;> cases b <;> simp_all [GateVerdict.rank]

instance : LinearOrder GateVerdict := LinearOrder.lift' GateVerdict.rank GateVerdict.rank_inj

@[simp] theorem GateVerdict.allow_le (v : GateVerdict) : GateVerdict.allow ≤ v := by
  cases v <;> decide

structure GateHow where
  ref : Option String := none
  requires : Option (List String) := none
  verdict : Option GateVerdict := none
  emit : Option String := none
  intent : Option PlainValue := none
  fields : Option (List String) := none
  metric : Option String := none
  limit : Option ℕ := none
  params : Option PlainValue := none

structure GateRow where
  id : String
  on : PointId
  when : List (String × PlainValue)
  «do» : PointDo
  how : GateHow
  order : ℤ
  generation : ℕ

structure Obligation where
  metric : String
  limit : ℕ

structure GateConsulted where
  ref : String
  digest : String
  payload : PlainValue

structure GateAnnotation where
  rowId : String
  ref : String
  payload : PlainValue

structure GateFact where
  rowId : String
  ref : String
  code : String

structure GateDecision where
  point : PointId
  verdict : GateVerdict
  rowIds : List String
  obligations : List Obligation
  consulted : List GateConsulted
  annotations : List GateAnnotation
  facts : List GateFact
  output : PlainValue
  inputHash : String
  generation : ℕ

variable [PlainCoding] in

def emittedRowKey (inputHash rowId : String) (index : ℕ) : String :=
  canonicalDigest (.arr [.str inputHash, .str rowId, .num index])

end OpenOmni
