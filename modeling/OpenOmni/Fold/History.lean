import OpenOmni.Fold.State
import OpenOmni.Lib.KeySort
import OpenOmni.Store.TurnReads

/-! The fold of a session's rows to its model context: prompts, assistant snapshots, tool results and compactions. -/
namespace OpenOmni

open PlainValue SessionTransition FoldCheckpoint

/-- `SessionTurn.Delivery`, whose origin is left out. -/
structure SessionTurn.Delivery where
  turnId : String
  deliveryId : String
  kind : InputKind
  content : String
  delivery : Option DeliveryWidth
  boundary : SessionTurn.Boundary

def deliveryKeys : List String := ["phase", "turnId", "deliveryId", "kind", "content", "origin", "delivery", "boundary"]

/-- `EncodedPayload`. -/
def isEncodedPayload (v : PlainValue) : Bool :=
  v.strict ["encodingVersion", "value"] && v.get? "encodingVersion" = some (.num 1) && (v.get? "value").isSome

/-- `SessionTurn.Delivery.safeParse`. -/
def SessionTurn.Delivery.ofPlain (v : PlainValue) : Option SessionTurn.Delivery := do
  guard (v.strict deliveryKeys)
  field v "phase" (SessionTurn.readLiteral "delivery")
  let turnId ← field v "turnId" readId
  let deliveryId ← field v "deliveryId" readId
  let kind ← field v "kind" (readEnum InputKind.members InputKind.text)
  let content ← field v "content" asStr
  guard ((v.get? "origin").any isEncodedPayload)
  let delivery ← optional (readEnum DeliveryWidth.members DeliveryWidth.text) (v.get? "delivery")
  let boundary ← field v "boundary" (readEnum SessionTurn.Boundary.members SessionTurn.Boundary.text)
  return ⟨turnId, deliveryId, kind, content, delivery, boundary⟩

/-- `SessionReads.delivery`. -/
def deliveryOf (action : Node) : Option SessionTurn.Delivery :=
  if inputRowKinds.contains action.kind then SessionTurn.Delivery.ofPlain action.effect else none

def opensTurn (action : Node) : Bool :=
  action.kind = .turn && (extractIs action.intent "phase" "intent" || extractIs action.intent "phase" "resume")

def durableText (info : Message.Info) (text : String) : Message.WithParts :=
  ⟨info, [.text ⟨info.id ++ ":part:0", info.sessionID, info.id⟩ text none none]⟩

def promptMessage (sessionId deliveryId content : String) («at» : ℚ) : Message.WithParts :=
  let info : Message.UserMessage :=
    { id := deliveryId, sessionID := sessionId, created := «at», agent := sessionId, providerID := "", modelID := "" }
  durableText (.user info) content

def deliveredPrompt (action : Node) (sessionId : String) : Option Message.WithParts :=
  match deliveryOf action with
  | some delivery =>
    if delivery.kind = .prompt then some (promptMessage sessionId delivery.deliveryId delivery.content action.ts) else none
  | none => none

/-- A row that brings nothing, or what it brings; the outer `none` is a parse that throws. -/
abbrev Brought (α : Type) := Option (Option α)

def assistantSnapshot (action : Node) : Brought Message.WithParts :=
  if action.kind = .message ∧ extractIs action.intent "op" "assistant" ∧ extractIs action.effect "terminal" "executed" then
    (field action.effect "result" Message.WithParts.ofPlain).map some
  else some none

def compactionProjection (action : Node) : Brought (List Message.WithParts) :=
  if action.kind = .compaction ∧ extractIs action.effect "terminal" "executed" then
    match field action.effect "result" fun result => field result "projection" asArr with
    | none => some none
    | some projection => (projection.mapM Message.WithParts.ofPlain).map some
  else some none

def toolSettlement [PlainCoding] (action : Node) : Brought Tool.Result :=
  if action.kind = .tool then
    match action.effect.get? "toolResult" with
    | none => some none
    | some result => (Tool.Result.ofPlain result).map some
  else some none

def Tool.State.openInput : Tool.State → Option PlainObject
  | .pending input => some input
  | .running input _ => some input
  | .completed .. | .error .. => none

def settledState (name : String) (input : PlainObject) (result : Tool.Result) («at» : ℚ) : Tool.State :=
  if result.isError = some true then .error input result.text «at» «at»
  else .completed input result.text name [] «at» «at»

def mapOpenPart (settle : String → String → PlainObject → Option Tool.State) : Message.Part → Message.Part
  | .tool base callID name state =>
    match state.openInput.bind (settle callID name) with
    | some settled => .tool base callID name settled
    | none => .tool base callID name state
  | part => part

def mapOpenParts (settle : String → String → PlainObject → Option Tool.State) (message : Message.WithParts) :
    Message.WithParts :=
  { message with parts := message.parts.map (mapOpenPart settle) }

def settleToolParts (message : Message.WithParts) (result : Tool.Result) («at» : ℚ) : Message.WithParts :=
  mapOpenParts (fun callID name input =>
    if callID = result.toolCallId ∧ some name = result.toolName then some (settledState name input result «at») else none)
    message

def cancelOpenToolParts (message : Message.WithParts) (error : String) («at» : ℚ) : Message.WithParts :=
  mapOpenParts (fun _ _ input => some (.error input error «at» «at»)) message

def upsertMessage (messages : List Message.WithParts) (message : Message.WithParts) : List Message.WithParts :=
  match messages.findIdx? (·.info.id = message.info.id) with
  | none => messages ++ [message]
  | some index => messages.set index message

/-- `count`. -/
def countOf (v : Option PlainValue) : ℕ := (v.bind asCount).getD 0

def chargeModel (budget : BudgetState) (action : Node) : BudgetState :=
  if extractIs action.intent "phase" "intent" then
    if ((action.intent.get? "attempt").bind asNum).isNone then { budget with turns := budget.turns + 1 } else budget
  else if extractIs action.intent "phase" "result" ∧ (extractIs action.effect "usageProvenance" "reported" ∨
      extractIs action.effect "usageProvenance" "estimated") then
    let usage := (action.effect.get? "evidence").bind (·.get? "usage")
    { budget with
      totalInputTokens := budget.totalInputTokens + countOf (usage.bind (·.get? "inputTokens"))
      totalOutputTokens := budget.totalOutputTokens + countOf (usage.bind (·.get? "outputTokens")) }
  else budget

/-- `chargeTool`: the calls of a wave overlap, so each is charged from where the last one ended. -/
def chargeTool (budget : BudgetState) (action : Node) : BudgetState :=
  if extractIs action.intent "phase" "intent" then
    { budget with openTools := budget.openTools ++ [(action.id, action.ts)] }
  else if extractIs action.intent "phase" "result" then
    match budget.openTools.find? fun tool => some tool.1 = action.parentId with
    | none => budget
    | some (_, startedAt) =>
      { budget with
        openTools := budget.openTools.eraseP fun tool => some tool.1 = action.parentId
        toolCalls := budget.toolCalls + 1
        toolRuntimeMs := budget.toolRuntimeMs + max 0 (action.ts - max startedAt budget.toolsThrough)
        toolsThrough := max budget.toolsThrough action.ts }
  else budget

def chargeBudget (budget : Option BudgetState) (action : Node) : Option BudgetState :=
  if action.kind = .turn ∧ extractIs action.intent "phase" "intent" then
    some ⟨action.ts, action.ts, 0, 0, 0, 0, 0, action.ts, []⟩
  else match budget with
    | none => none
    | some budget =>
      let charged := { budget with chargedAt := max budget.chargedAt action.ts }
      let charged := if action.kind = .llm then chargeModel charged action else charged
      let charged := if action.kind = .tool then chargeTool charged action else charged
      if (turnTerminal action).isSome then none else some charged

/-- A fold under way: its state beside the two maps it keeps of rows and messages. -/
structure Folding where
  messages : List Message.WithParts
  canonicalTurn : Bool
  compatibility : List CompatibilityRow
  successorActionId : Option String
  budgetState : Option BudgetState
  parents : Dict String (Option String)
  messageTurns : Dict String (Option String)

def Folding.ofSeed (seed : State) : Folding where
  messages := seed.messages
  canonicalTurn := seed.canonicalTurn
  compatibility := seed.compatibility
  successorActionId := seed.successorActionId
  budgetState := seed.budgetState.join
  parents := Dict.ofEntries seed.parents
  messageTurns := Dict.ofEntries seed.messageTurns

def emptyState : State := ⟨[], false, [], [], [], none, none⟩

def Folding.toState (f : Folding) : State where
  messages := f.messages
  canonicalTurn := f.canonicalTurn
  messageTurns := KeySort.sorted f.messageTurns.entries
  parents := KeySort.sorted f.parents.entries
  compatibility := f.compatibility
  successorActionId := f.successorActionId
  budgetState := some f.budgetState

def terminalAssistant (text parentId : String) (action : Node) : Message.WithParts :=
  let info : Message.AssistantMessage :=
    { id := action.id, sessionID := action.sessionId, created := action.ts, parentID := parentId, modelID := "",
      providerID := "", agent := action.sessionId, tokens := ⟨0, 0, 0, 0, 0⟩ }
  durableText (.assistant info) text

/-- The text of a terminal in the context, unless a snapshot of the turn stands there. -/
def Folding.say (f : Folding) (action : Node) (text : String) : Folding :=
  if text = "" then f
  else { f with
    compatibility := f.compatibility ++ [⟨action.id, .assistant, text⟩]
    messages := if f.canonicalTurn then f.messages
      else f.messages ++ [terminalAssistant text ((f.messages.getLast?.map (·.info.id)).getD "") action] }

/-- `applyTerminal`, with the turn it closes taken from the parents. -/
def Folding.terminal (f : Folding) (action : Node) : Folding :=
  match turnTerminal action with
  | none => f
  | some terminal =>
    let said := f.say action terminal.text
    { said with
      messages := if terminal.kind = .interrupted ∨ terminal.kind = .error then
          said.messages.map (cancelOpenToolParts · terminal.kind.text action.ts)
        else said.messages
      parents := said.parents.erase terminal.turnId }

def Folding.deliver (f : Folding) (sessionId : String) (action : Node) : Folding :=
  match deliveredPrompt action sessionId with
  | none => f
  | some prompt =>
    { f with
      messages := f.messages ++ [prompt]
      compatibility := f.compatibility ++
        ((deliveryOf action).map fun delivery => ⟨delivery.deliveryId, .user, delivery.content⟩).toList }

def Folding.snapshot (f : Folding) (turnId : Option (Option String)) (message : Option Message.WithParts) : Folding :=
  match message with
  | none => f
  | some message =>
    { f with
      messageTurns := f.messageTurns.set message.info.id turnId.join
      messages := upsertMessage f.messages message
      canonicalTurn := true }

def Folding.compact (f : Folding) (action : Node) (projection : Option (List Message.WithParts)) : Folding :=
  match projection with
  | none => f
  | some projection => { f with messages := projection, successorActionId := some action.id }

/-- The tool parts of the turn's messages under a result; `undefined` is a turn too. -/
def Folding.settle (f : Folding) (turnId : Option (Option String)) (action : Node) (result : Option Tool.Result) :
    Folding :=
  match result with
  | none => f
  | some result =>
    { f with messages := f.messages.map fun message =>
        if f.messageTurns.get? message.info.id = turnId then settleToolParts message result action.ts else message }

/-- The row opens a scope of rows under it, and a turn loses its canonical text. -/
def Folding.enter (f : Folding) (action : Node) : Folding :=
  { f with
    budgetState := chargeBudget f.budgetState action
    parents := if extractIs action.intent "phase" "intent" then f.parents.set action.id action.parentId else f.parents
    canonicalTurn := if opensTurn action then false else f.canonicalTurn }

def Folding.leave (f : Folding) (action : Node) : Folding :=
  match action.parentId with
  | none => f
  | some parentId =>
    if extractIs action.effect "phase" "result" then { f with parents := f.parents.erase parentId } else f

variable [PlainCoding]

/-- `applyHistoryAction`; `none` where a parse throws. -/
def applyHistoryAction (sessionId : String) (f : Folding) (action : Node) : Option Folding :=
  if action.kind = .foldCheckpoint then some f
  else do
    let turnId := f.parents.get? (action.parentId.getD "")
    let entered := (f.enter action).deliver sessionId action
    let snapshot ← assistantSnapshot action
    let projection ← compactionProjection action
    let result ← toolSettlement action
    let settled := ((entered.snapshot turnId snapshot).compact action projection).settle turnId action result
    return (settled.terminal action).leave action

omit [PlainCoding] in
/-- Turns are kept of messages that stand in the context or whose turn is open. -/
def Folding.prune (f : Folding) : Folding :=
  { f with messageTurns := f.messageTurns.filter fun e =>
      f.messages.any (·.info.id = e.1) || e.2.any fun turnId => f.parents.contains turnId }

/-- One pass of `foldHistoryState`'s loop. -/
def foldStep (sessionId : String) (f : Folding) (action : Node) : Option Folding :=
  (applyHistoryAction sessionId f action).map Folding.prune

/-- `foldHistoryState`; `none` where it throws. -/
def foldHistoryState (sessionId : String) (actions : List Node) (seed : State) : Option State :=
  (actions.foldlM (foldStep sessionId) (Folding.ofSeed seed)).map Folding.toState

omit [PlainCoding] in
def deriveHistory (state : State) : List Message.WithParts :=
  state.messages.map fun message => cancelOpenToolParts message "tool execution cancelled" message.info.created

def foldSessionHistory (sessionId : String) (actions : List Node) (seed : State) : Option (List Message.WithParts) :=
  (foldHistoryState sessionId actions seed).map deriveHistory

end OpenOmni
