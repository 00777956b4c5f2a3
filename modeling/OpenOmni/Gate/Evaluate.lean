import OpenOmni.Gate.Message
import OpenOmni.Protocol.RowVerdict

/-! The evaluation of a compiled policy at a point: the fold of the matching rows into one decision. -/
namespace OpenOmni

open PlainValue

/-- What a handler is shown. `service` says which refs its service door hands out; on any other one it throws. -/
structure GateHandlerInput where
  value : PlainValue
  params : PlainValue
  when : List (String × PlainValue)
  service : String → Bool

structure GateHandlerResult where
  verdict : Option GateVerdict := none
  value : Option PlainValue := none
  payload : Option PlainValue := none
deriving DecidableEq

/-- How a handler's call ends: `escaped` is the throw of its service door, `threw` any other one. -/
inductive Invocation where
  | returned (result : GateHandlerResult)
  | escaped (ref : String)
  | threw
deriving DecidableEq

abbrev GateHandler := GateHandlerInput → Invocation

abbrev HandlerResolver := String → Option GateHandler

abbrev PreparedResults := Dict String GateHandlerResult

structure ConsultInput where
  rowId : String
  point : PointId
  params : PlainValue
  value : PlainValue
deriving DecidableEq

structure PendingConsult extends ConsultInput where
  ref : String
deriving DecidableEq

abbrev Consultant := ConsultInput → GateHandlerResult

structure CompiledMatch where
  op : Option String := none
  operation : Option String := none
  role : Option Role := none
  sessionId : Option String := none
  message : Option Gateway.Rule := none

inductive Phase where
  | pre | post
deriving DecidableEq

def Phase.text : Phase → String
  | pre => "pre"
  | post => "post"

structure CompiledRow where
  name : String
  kind : String
  phase : Phase
  priority : ℤ
  «match» : CompiledMatch
  verdict : RowVerdict

structure CompiledEntry (Context : Type) where
  row : GateRow
  emit : Option EmitKind
  matcher : Option (Option Context → Bool)
  policy : Option CompiledRow

def CompiledEntry.id {Context : Type} (entry : CompiledEntry Context) : String := entry.row.id

/-- A compiled policy. The ids of a point's rows are distinct: `compile` refuses a row under an id it has seen. -/
structure CompiledPolicySnapshot (Context : Type) where
  generation : ℕ
  contentHash : String
  pointTable : Dict PointId PointRecord
  byPoint : Dict PointId (List (CompiledEntry Context))
  rowById : Dict String CompiledRow
  handlers : Dict String GateHandler
  consultants : Dict String Consultant
  ids_nodup : ∀ point, (((byPoint.get? point).getD []).map CompiledEntry.id).Nodup

def CompiledPolicySnapshot.entries {Context : Type} (snapshot : CompiledPolicySnapshot Context) (point : PointId) :
    List (CompiledEntry Context) := (snapshot.byPoint.get? point).getD []

structure PointInput (Context : Type) where
  point : PointId
  when : List (String × PlainValue)
  value : PlainValue
  context : Option Context := none
  message : Option MessagePolicyContext := none

/-- An absent `prepared` is the empty map and an absent `pendingAsync` the empty set. -/
structure EvaluationOptions where
  handlers : Option HandlerResolver := none
  recorded : Option GateDecision := none
  prepared : PreparedResults := Dict.empty
  pendingAsync : List String := []
  inputHash : Option String := none

structure GateEmission where
  key : String
  kind : EmitKind
  rowId : String
  intent : PlainValue

structure FoldState where
  verdict : GateVerdict
  rowIds : List String
  obligations : List Obligation
  consulted : List GateConsulted
  annotations : List GateAnnotation
  facts : List GateFact
  value : PlainValue
  emissions : List GateEmission

structure GateOutcome where
  decision : GateDecision
  value : PlainValue
  emissions : List GateEmission
  replayed : Bool
  pending : Option PendingConsult := none

def foldVerdict (folded next : GateVerdict) : GateVerdict :=
  if folded = .deny || next = .deny then .deny
  else if folded = .requireApproval || next = .requireApproval then .requireApproval
  else .allow

def plainRecord : PlainValue → Option (Dict String PlainValue)
  | .obj fields => some ⟨fields⟩
  | _ => none

/-- One declared field of `applyRewrite`. -/
def rewriteField (source next : Dict String PlainValue) (field : String) : Dict String PlainValue :=
  match source.get? field with
  | none => next.erase field
  | some replacement => next.set field replacement

def applyRewrite (prior : PlainValue) (fields : List String) (output : PlainValue) : PlainValue :=
  match plainRecord prior with
  | none => prior
  | some base => .obj (fields.foldl (rewriteField ((plainRecord output).getD Dict.empty)) base).entries

def initialFoldState (value : PlainValue) : FoldState where
  verdict := .allow
  rowIds := []
  obligations := []
  consulted := []
  annotations := []
  facts := []
  value := value
  emissions := []

def FoldState.note (state : FoldState) (row : GateRow) (ref code : String) : FoldState :=
  { state with facts := state.facts ++ [⟨row.id, ref, code⟩] }

def FoldState.refuse (state : FoldState) (row : GateRow) (ref code : String) : FoldState :=
  { state.note row ref code with verdict := foldVerdict state.verdict .deny }

def FoldState.annotate (state : FoldState) (row : GateRow) (ref : String) (payload : PlainValue) : FoldState :=
  { state with annotations := state.annotations ++ [⟨row.id, ref, payload⟩] }

def GateRow.allowedRefs (row : GateRow) : List String := row.how.ref.toList ++ row.how.requires.getD []

def invokeGuarded (row : GateRow) (handler : GateHandler) (value : PlainValue) (handlers : HandlerResolver)
    (when : List (String × PlainValue)) : Invocation :=
  handler {
    value := value
    params := row.how.params.getD .null
    when := when
    service := fun requested => row.allowedRefs.contains requested && (handlers requested).isSome }

def observeRow (row : GateRow) (state : FoldState) (handlers : HandlerResolver) (when : List (String × PlainValue))
    (prepared : PreparedResults) : FoldState :=
  match row.how.ref with
  | none => state
  | some ref =>
    match prepared.get? row.id with
    | some consulted =>
      match consulted.payload with
      | none => state.note row ref "unrecorded_response"
      | some payload => state.annotate row ref payload
    | none =>
      match handlers ref with
      | none => state.note row ref "handler_unavailable"
      | some handler =>
        match invokeGuarded row handler state.value handlers when with
        | .escaped requested => state.note row requested "requirement_escape"
        | .threw => state.note row ref "observer_failed"
        | .returned result =>
          match result.payload with
          | none => state.note row ref "unrecorded_response"
          | some payload => state.annotate row ref payload

section Evaluation
variable [PlainCoding] {Context : Type}

def containedRewrite (fields : List String) (value : Option PlainValue) : Bool :=
  match plainRecord (value.getD .null) with
  | none => false
  | some output => output.entries.all fun entry => fields.contains entry.1

def FoldState.consult (state : FoldState) (ref : String) (payload : PlainValue) : FoldState :=
  { state with consulted := state.consulted ++ [⟨ref, canonicalDigest payload, payload⟩] }

/-- What `consultRow` does with an answer; `prepared` tells where it came from. -/
def applyAnswer (row : GateRow) (ref : String) (state : FoldState) (result : GateHandlerResult) (prepared : Bool) :
    FoldState :=
  match result.payload with
  | none => state.note row ref "unrecorded_response"
  | some payload =>
    let consulted := state.consult ref payload
    if row.do = .rewrite then
      let fields := row.how.fields.getD []
      if prepared && !containedRewrite fields result.value then consulted.refuse row ref "incompatible_response"
      else { consulted with value := applyRewrite state.value fields (result.value.getD .null) }
    else match result.verdict with
      | none => consulted.refuse row ref "incompatible_response"
      | some verdict => { consulted with verdict := foldVerdict state.verdict verdict }

/-- `consultRow`; `none` is a handler's throw that is not its service door's. -/
def consultRow (row : GateRow) (ref : String) (state : FoldState) (handlers : HandlerResolver)
    (when : List (String × PlainValue)) (prepared : PreparedResults) : Option FoldState :=
  match prepared.get? row.id with
  | some result => some (applyAnswer row ref state result true)
  | none =>
    match handlers ref with
    | none => some (state.refuse row ref "handler_unavailable")
    | some handler =>
      match invokeGuarded row handler state.value handlers when with
      | .escaped requested => some (state.refuse row requested "requirement_escape")
      | .threw => none
      | .returned result => some (applyAnswer row ref state result false)

def GateRow.obligation (row : GateRow) : Option Obligation :=
  match row.how.metric, row.how.limit with
  | some metric, some limit => some ⟨metric, limit⟩
  | _, _ => none

def FoldState.matched (state : FoldState) (row : GateRow) : FoldState :=
  { state with rowIds := state.rowIds ++ [row.id] }

def FoldState.oblige (state : FoldState) (row : GateRow) : FoldState :=
  { state with obligations := state.obligations ++ row.obligation.toList }

def FoldState.emit (state : FoldState) (row : GateRow) (kind : EmitKind) (inputHash : String) : FoldState :=
  let emission : GateEmission :=
    ⟨emittedRowKey inputHash row.id state.emissions.length, kind, row.id, row.how.intent.getD .null⟩
  { state with emissions := state.emissions ++ [emission] }

def applyRow (row : GateRow) (emit : Option EmitKind) (state : FoldState) (inputHash : String)
    (handlers : HandlerResolver) (when : List (String × PlainValue)) (prepared : PreparedResults) : Option FoldState :=
  let matched := state.matched row
  if row.do = .observe then some (observeRow row matched handlers when prepared)
  else
    let obliged := matched.oblige row
    match emit with
    | some kind => some (obliged.emit row kind inputHash)
    | none =>
      match row.how.verdict with
      | some verdict => some { obliged with verdict := foldVerdict obliged.verdict verdict }
      | none =>
        match row.how.ref with
        | some ref => consultRow row ref obliged handlers when prepared
        | none => some obliged

def whenMatches (entry : CompiledEntry Context) (when : List (String × PlainValue)) : Bool :=
  entry.row.when.all fun slot => canonicalDigest ((when.lookup slot.1).getD .null) = canonicalDigest slot.2

def CompiledEntry.message (entry : CompiledEntry Context) : Option Gateway.Rule :=
  entry.policy.bind (·.match.message)

def entryMatches (entry : CompiledEntry Context) (input : PointInput Context) : Bool :=
  whenMatches entry input.when && entry.message.all (matchesMessage · input.message) &&
    entry.matcher.all (· input.context)

/-- A row whose match reads more than the fields of `when`. -/
def CompiledEntry.readsContext (entry : CompiledEntry Context) : Bool := entry.matcher.isSome || entry.message.isSome

def replays (snapshot : CompiledPolicySnapshot Context) (input : PointInput Context) (inputHash : String)
    (recorded : GateDecision) : Bool :=
  decide (recorded.generation = snapshot.generation) && decide (recorded.point = input.point) &&
    decide (recorded.inputHash = inputHash) &&
    (snapshot.entries input.point).all fun entry =>
      !entry.readsContext || entryMatches entry input == recorded.rowIds.contains entry.row.id

def awaitedConsultRef (entry : CompiledEntry Context) (pendingAsync : List String) (prepared : PreparedResults) :
    Option String :=
  match entry.row.how.ref with
  | none => none
  | some ref =>
    if entry.emit = none ∧ entry.row.how.verdict = none ∧ ref ∈ pendingAsync ∧ prepared.get? entry.row.id = none then
      some ref
    else none

/-- What the loop of `decidePoint` goes by. -/
structure FoldContext (Context : Type) where
  input : PointInput Context
  inputHash : String
  handlers : HandlerResolver
  prepared : PreparedResults
  pendingAsync : List String

/-- The loop of `decidePoint`: the state it ends in, with the consult it stopped at. -/
def foldEntries (context : FoldContext Context) :
    List (CompiledEntry Context) → FoldState → Option (FoldState × Option PendingConsult)
  | [], state => some (state, none)
  | entry :: entries, state =>
    if entryMatches entry context.input then
      match awaitedConsultRef entry context.pendingAsync context.prepared with
      | some ref =>
        some (state, some ⟨⟨entry.row.id, context.input.point, entry.row.how.params.getD .null, state.value⟩, ref⟩)
      | none =>
        (applyRow entry.row entry.emit state context.inputHash context.handlers context.input.when
          context.prepared).bind (foldEntries context entries)
    else foldEntries context entries state

def decisionOf (snapshot : CompiledPolicySnapshot Context) (input : PointInput Context) (inputHash : String)
    (state : FoldState) : GateDecision where
  point := input.point
  verdict := state.verdict
  rowIds := state.rowIds
  obligations := state.obligations
  consulted := state.consulted
  annotations := state.annotations
  facts := state.facts
  output := state.value
  inputHash := inputHash
  generation := snapshot.generation

def outcomeOf (snapshot : CompiledPolicySnapshot Context) (input : PointInput Context) (inputHash : String)
    (folded : FoldState × Option PendingConsult) : GateOutcome where
  decision := decisionOf snapshot input inputHash folded.1
  value := folded.1.value
  emissions := folded.1.emissions
  replayed := false
  pending := folded.2

def PointInput.identity (input : PointInput Context) : PlainValue :=
  record [("point", some (.str input.point.id)), ("when", some (.obj input.when)), ("value", some input.value)]

def EvaluationOptions.hashOf (options : EvaluationOptions) (input : PointInput Context) : String :=
  options.inputHash.getD (canonicalDigest input.identity)

def foldContext (snapshot : CompiledPolicySnapshot Context) (input : PointInput Context)
    (options : EvaluationOptions) : FoldContext Context where
  input := input
  inputHash := options.hashOf input
  handlers := options.handlers.getD snapshot.handlers.get?
  prepared := options.prepared
  pendingAsync := options.pendingAsync

/-- `evaluate` of a point input, which is `decide`; `none` is a handler's throw. -/
def decidePoint (snapshot : CompiledPolicySnapshot Context) (input : PointInput Context)
    (options : EvaluationOptions) : Option GateOutcome :=
  match options.recorded.filter (replays snapshot input (options.hashOf input)) with
  | some recorded => some ⟨recorded, recorded.output, [], true, none⟩
  | none =>
    (foldEntries (foldContext snapshot input options) (snapshot.entries input.point)
      (initialFoldState input.value)).map (outcomeOf snapshot input (options.hashOf input))

end Evaluation
end OpenOmni
