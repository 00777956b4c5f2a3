import OpenOmni.Gate.PolicyEvaluation

/-! Row ids: the token of a row's name, its point and its place in the sorted order. -/
namespace OpenOmni
open List PlainValue SessionTransition

private def isTokenLetter (c : Char) : Bool := 'a' ≤ c && c ≤ 'z'
private def isTokenChar (c : Char) : Bool := isTokenLetter c || ('0' ≤ c && c ≤ '9')

/-- `toLowerCase`, up to what no token tells from a dash: the two letters beyond ASCII whose lower case is in it are the
Kelvin sign and the dotted capital i. -/
private def lowerChar (c : Char) : Char :=
  if 'A' ≤ c ∧ c ≤ 'Z' then Char.ofNat (c.toNat + 32)
  else if c.toNat = 0x212A then 'k'
  else c

private def lower (cs : List Char) : List Char :=
  cs.flatMap fun c => if c.toNat = 0x130 then ['i', Char.ofNat 0x307] else [lowerChar c]

private def dashed : List Char → List Char
  | [] => []
  | c :: cs =>
    if isTokenChar c then c :: dashed cs
    else match dashed cs with
      | '-' :: rest => '-' :: rest
      | rest => '-' :: rest

private def stripped (cs : List Char) : List Char :=
  ((cs.dropWhile (· = '-')).reverse.dropWhile (· = '-')).reverse

private def nameToken (name : String) : List Char :=
  match stripped (dashed (lower name.toList)) with
  | [] => "row".toList
  | c :: cs => if isTokenLetter c then c :: cs else "row-".toList ++ c :: cs

def rowNameToken (name : String) : String := String.ofList (nameToken name)

def gateRowId (name : String) (point : PointId) (ordinal : ℕ) : String :=
  rowNameToken name ++ "/" ++ point.id ++ "#" ++ ordinal.repr

theorem append_cons_inj {α : Type*} {a b c d : List α} {s : α} (ha : s ∉ a) (hc : s ∉ c)
    (h : a ++ s :: b = c ++ s :: d) : a = c ∧ b = d := by
  induction a generalizing c with
  | nil =>
    cases c with
    | nil => exact ⟨rfl, (List.cons.inj h).2⟩
    | cons x c => exact absurd (List.cons.inj h).1 (ne_of_not_mem_cons hc)
  | cons x a ih =>
    cases c with
    | nil => exact absurd (List.cons.inj h).1.symm (ne_of_not_mem_cons ha)
    | cons y c =>
      obtain ⟨rfl, htail⟩ := List.cons.inj h
      obtain ⟨rfl, rfl⟩ := ih (not_mem_of_not_mem_cons ha) (not_mem_of_not_mem_cons hc) htail
      exact ⟨rfl, rfl⟩

private lemma slash_not_mem_dashed (cs : List Char) : '/' ∉ dashed cs := by
  induction cs with
  | nil => exact not_mem_nil
  | cons c cs ih =>
    unfold dashed
    split
    · rename_i htoken
      rw [mem_cons, not_or]
      refine ⟨?_, ih⟩
      rintro rfl
      revert htoken
      decide
    · split
      · rename_i rest hrest
        rw [hrest] at ih
        exact ih
      · rw [mem_cons, not_or]
        exact ⟨by decide, ih⟩

private lemma slash_not_mem_nameToken (name : String) : '/' ∉ nameToken name := by
  have hstripped : '/' ∉ stripped (dashed (lower name.toList)) := by
    intro hmem
    have hback := (dropWhile_sublist _).subset (mem_reverse.mp hmem)
    exact slash_not_mem_dashed _ ((dropWhile_sublist _).subset (mem_reverse.mp hback))
  unfold nameToken
  split
  · decide
  · rename_i c cs hcs
    rw [hcs] at hstripped
    split
    · exact hstripped
    · rw [mem_append, not_or]
      exact ⟨by decide, hstripped⟩

lemma repr_inj {m n : ℕ} (h : m.repr = n.repr) : m = n := by
  have hlist := congrArg String.toList h
  rw [Nat.toList_repr, Nat.toList_repr] at hlist
  have hdigits := congrArg (Nat.ofDigitChars 10 · 0) hlist
  simpa [Nat.ofDigitChars_ten_toDigits] using hdigits

theorem gateRowId_inj {name name' : String} {point point' : PointId} {ordinal ordinal' : ℕ}
    (h : gateRowId name point ordinal = gateRowId name' point' ordinal') : point = point' ∧ ordinal = ordinal' := by
  have hlist := congrArg String.toList h
  simp only [gateRowId, rowNameToken, String.toList_append, String.toList_ofList, append_assoc] at hlist
  have hslash : ∀ rest : List Char, "/".toList ++ rest = '/' :: rest := fun _ => rfl
  have hhash : ∀ rest : List Char, "#".toList ++ rest = '#' :: rest := fun _ => rfl
  rw [hslash, hslash, hhash, hhash] at hlist
  obtain ⟨_, hrest⟩ := append_cons_inj (slash_not_mem_nameToken name) (slash_not_mem_nameToken name') hlist
  have hpoint : ∀ point : PointId, '#' ∉ point.id.toList := by
    intro point
    cases point <;> decide
  obtain ⟨hid, hordinal⟩ := append_cons_inj (hpoint point) (hpoint point') hrest
  exact ⟨PointId.id_inj (String.toList_inj.mp hid), repr_inj (String.toList_inj.mp hordinal)⟩

/-- A transformer by what it makes of its arguments and its configuration; `none` is a throw. -/
structure NamedTransformer where
  name : String
  apply : PlainValue → PlainValue → Option PlainValue

structure HandlerTable where
  transformers : List NamedTransformer
  obligations : List String
  consultants : List (String × Consultant) := []
  guards : List (String × GateHandler) := []

def HandlerTable.refs (table : HandlerTable) : List String :=
  table.transformers.map (·.name) ++ table.obligations ++ table.consultants.map (·.1) ++ table.guards.map (·.1)

inductive HandlerTableFault where
  | invalidRef (ref : String)
  | duplicateRef (ref : String)

/-- What `createHandlerTable` throws about the first ref it cannot take. -/
def handlerTableFault (seen : List String) : List String → Option HandlerTableFault
  | [] => none
  | ref :: refs =>
    if !isPolicyRef ref then some (.invalidRef ref)
    else if seen.contains ref then some (.duplicateRef ref)
    else handlerTableFault (ref :: seen) refs

section Handlers
variable [PlainCoding]

def wrapTransformer (transformer : NamedTransformer) : GateHandler := fun input =>
  match transformer.apply input.value input.params with
  | none => .threw
  | some output => .returned {
      value := some output
      payload := some (record [("ref", some (.str transformer.name)), ("output", some (.str (canonicalDigest output)))]) }

def HandlerTable.handlers (table : HandlerTable) : List (String × GateHandler) :=
  table.transformers.map (fun transformer => (transformer.name, wrapTransformer transformer)) ++ table.guards

end Handlers

def HandlerTable.names (table : HandlerTable) : List String :=
  table.transformers.map (·.name) ++ table.guards.map (·.1) ++ table.obligations ++ table.consultants.map (·.1)

inductive ComposeCode where
  | unknownPoint | unknownHandler | duplicate | badAction | badField | postEndEmit

structure GateComposeError where
  code : ComposeCode
  point : Option String := none
  ref : Option String := none
  rowId : Option String := none

inductive PolicyCompileCode where
  | generationMismatch | mandatoryRuleMissing | unknownKind | invalidMatch | invalidVerdict | unknownRef
  | composeRejected | policyRowMigrationRequired

structure PolicyCompileError where
  code : PolicyCompileCode
  generation : ℕ
  ruleName : Option String := none
  kind : Option String := none
  phase : Option Phase := none
  ref : Option String := none
  composeCode : Option ComposeCode := none
  rowIndex : Option ℕ := none

def ComposeCode.text : ComposeCode → String
  | unknownPoint => "unknown_point"
  | unknownHandler => "unknown_handler"
  | duplicate => "duplicate"
  | badAction => "bad_action"
  | badField => "bad_field"
  | postEndEmit => "post_end_emit"

/-- `compileErrorMessage`. -/
def PolicyCompileError.message (error : PolicyCompileError) : String :=
  let rule := error.ruleName.getD "<unnamed>"
  match error.code with
  | .policyRowMigrationRequired =>
    "policy row " ++ ((error.rowIndex.map Nat.repr).getD "undefined") ++ " (" ++ (error.ruleName.getD "undefined") ++
      ") requires migration policy-point-rows-v1"
  | .generationMismatch => "policy row " ++ rule ++ " does not belong to generation " ++ error.generation.repr
  | .mandatoryRuleMissing => "policy generation " ++ error.generation.repr ++ " is missing mandatory rule " ++ rule
  | .unknownKind => "policy rule " ++ rule ++ " references unregistered kind " ++ error.kind.getD "<missing>"
  | .invalidMatch => "policy rule " ++ rule ++ " has an invalid match"
  | .invalidVerdict => "policy rule " ++ rule ++ " has an invalid verdict"
  | .unknownRef => "policy rule " ++ rule ++ " references unregistered policy " ++ error.ref.getD "<missing>"
  | .composeRejected =>
    "policy generation " ++ error.generation.repr ++ " was rejected by the point registry (" ++
      (error.composeCode.map ComposeCode.text).getD "unknown" ++ (error.ref.map (": " ++ ·)).getD "" ++ ")"

inductive CompileFailure where
  | handlers (fault : HandlerTableFault)
  | policy (error : PolicyCompileError)

/-- What `validateAction` and `validateFields` find wrong with a row. -/
def actionFault (record : PointRecord) (row : GateRow) : Option (ComposeCode × Option String) :=
  if ¬ record.allowedDo.contains row.do then
    if row.do = .emit ∧ record.end = true then some (.postEndEmit, none) else some (.badAction, some row.do.text)
  else match row.when.find? fun slot => !record.whenFields.contains slot.1 with
    | some slot => some (.badField, some slot.1)
    | none =>
      if row.do ≠ .rewrite then none
      else if row.how.fields.getD [] = [] then some (.badField, some "fields")
      else if record.rewriteOpen = true then none
      else ((row.how.fields.getD []).find? fun field => !record.rewritableFields.contains field).map
        fun field => (.badField, some field)

/-- `validateEmit`. -/
def emitOf (record : PointRecord) (row : GateRow) : Except (ComposeCode × Option String) (Option EmitKind) :=
  if row.do ≠ .emit then .ok none
  else if record.end = true then .error (.postEndEmit, none)
  else match row.how.emit.bind EmitKind.parse with
    | none => .error (.badAction, some (row.how.emit.getD "emit"))
    | some kind => .ok (some kind)

def observeFault (how : GateHow) : Bool :=
  how.ref.isNone || how.verdict.isSome || how.metric.isSome || how.limit.isSome || how.fields.isSome || how.emit.isSome

def gateFault (how : GateHow) : Bool :=
  if how.metric.isSome then how.verdict ≠ some .allow else how.verdict.isSome == how.ref.isSome

/-- What `validateHow` finds wrong with a row. -/
def howFault (names : List String) (row : GateRow) : Option (ComposeCode × Option String) :=
  if row.how.metric.isNone ≠ row.how.limit.isNone then some (.badField, some "limit")
  else if row.do = .observe ∧ observeFault row.how = true then some (.badAction, some "how")
  else if row.do = .gate ∧ gateFault row.how = true then some (.badAction, some "how")
  else if row.do = .rewrite ∧ (row.how.ref.isNone || row.how.verdict.isSome || row.how.metric.isSome) = true then
    some (.badAction, some "how")
  else if row.do = .emit ∧
      (row.how.ref.isSome || row.how.verdict.isSome || row.how.metric.isSome || row.how.fields.isSome) = true then
    some (.badAction, some "how")
  else (row.allowedRefs.find? fun ref => !names.contains ref).map fun ref => (.unknownHandler, some ref)

def reject (row : GateRow) (fault : ComposeCode × Option String) : GateComposeError where
  code := fault.1
  rowId := some row.id
  point := some row.on.id
  ref := fault.2

def admitRow (table : Dict PointId PointRecord) (names : List String) (row : GateRow) :
    Except GateComposeError (Option EmitKind) :=
  match table.get? row.on with
  | none => .error (reject row (.unknownPoint, none))
  | some record =>
    match actionFault record row with
    | some fault => .error (reject row fault)
    | none =>
      match emitOf record row with
      | .error fault => .error (reject row fault)
      | .ok emit =>
        match howFault names row with
        | some fault => .error (reject row fault)
        | none => .ok emit

/-- `PolicyRow.Row`; the match and the verdict are encoded payloads. -/
structure PolicyRow where
  name : String
  kind : String
  phase : Phase
  «match» : PlainValue
  verdict : PlainValue
  priority : ℤ
  generation : ℕ
deriving DecidableEq

/-- `Match.safeParse`. -/
def CompiledMatch.ofPlain (v : PlainValue) : Option CompiledMatch := do
  guard (v.strict ["op", "operation", "role", "sessionId", "message"])
  let op ← optional readId (v.get? "op")
  let operation ← optional readId (v.get? "operation")
  let role ← optional (readEnum Role.members Role.text) (v.get? "role")
  let sessionId ← optional readId (v.get? "sessionId")
  let message ← optional Gateway.Rule.ofPlain (v.get? "message")
  return ⟨op, operation, role, sessionId, message⟩

def CompiledMatch.when (m : CompiledMatch) : List (String × PlainValue) :=
  [("op", m.op.map PlainValue.str), ("operation", m.operation.map PlainValue.str),
    ("role", m.role.map (.str ·.text)), ("sessionId", m.sessionId.map PlainValue.str)].filterMap
    fun slot => slot.2.map (slot.1, ·)

def PolicyRow.refusal (row : PolicyRow) (code : PolicyCompileCode) (generation : ℕ) : PolicyCompileError where
  code := code
  generation := generation
  ruleName := some row.name
  kind := some row.kind
  phase := some row.phase

def unresolvedRef (registry : HandlerTable) : RowVerdict → Option String
  | .transform ref _ => if registry.transformers.any (·.name = ref) then none else some ref
  | .obligation ref _ _ => if registry.obligations.contains ref then none else some ref
  | .consult ref _ _ _ =>
    if registry.consultants.any (·.1 = ref) || registry.guards.any (·.1 = ref) then none else some ref
  | _ => none

def parseRow (row : PolicyRow) (generation : ℕ) (kinds : List String) (registry : HandlerTable) :
    Except PolicyCompileError CompiledRow :=
  if row.generation ≠ generation then .error (row.refusal .generationMismatch generation)
  else if ¬ kinds.contains row.kind then .error (row.refusal .unknownKind generation)
  else match CompiledMatch.ofPlain row.match with
    | none => .error (row.refusal .invalidMatch generation)
    | some found =>
      match RowVerdict.read row.verdict with
      | none => .error (row.refusal .invalidVerdict row.generation)
      | some verdict =>
        let answers := match verdict with
          | .allow _ _ _ => true
          | .obligation _ _ _ => true
          | _ => false
        if row.kind = "message" ∧ found.op ≠ some "assistant" ∧ row.phase = .post ∧ answers = false then
          .error (row.refusal .invalidVerdict generation)
        else match unresolvedRef registry verdict with
          | some ref => .error { row.refusal .unknownRef generation with ref := some ref }
          | none => .ok ⟨row.name, row.kind, row.phase, row.priority, found, verdict⟩

def isLegacyRow (row : PolicyRow) : Bool :=
  row.kind = "turn" && row.phase = .post &&
    (row.match.get? "op" = some (.str "compaction") || row.match.get? "op" = some (.str "restore_context_projection"))

def transformFields (config : Option PlainValue) : List String :=
  let declared := (config.bind (·.get? "fields")).bind asArr
  let paths := (config.bind (·.get? "paths")).bind asArr
  let segment : String → String := fun entry =>
    if declared.isSome then entry else String.ofList (entry.toList.takeWhile (· ≠ '.'))
  (((declared.or paths).getD []).filterMap asStr |>.map segment).eraseDups

def rewriteHow (ref : String) (config : Option PlainValue) : GateHow where
  ref := some ref
  fields := some (transformFields config)
  params := config

def projectedDoHow (row : CompiledRow) : Except GateComposeError (PointDo × GateHow) :=
  match row.verdict with
  | .consult ref config observe true =>
    if observe then .error { code := .badAction, point := some (row.kind ++ "." ++ row.phase.text), ref := some ref }
    else .ok (.rewrite, rewriteHow ref config)
  | .consult ref config observe false =>
    .ok (if observe then .observe else .gate, { ref := some ref, params := config })
  | .transform ref config => .ok (.rewrite, rewriteHow ref config)
  | .obligation ref metric limit =>
    .ok (.gate, { verdict := some .allow, ref := some ref, metric := some metric, limit := some limit })
  | .allow _ _ _ => .ok (.gate, { verdict := some .allow })
  | .deny _ => .ok (.gate, { verdict := some .deny })
  | .requireApproval _ => .ok (.gate, { verdict := some .requireApproval })

/-- The points of a row: a `turn.post` row without an op also stands at `compaction.pre`. -/
def rowPoints (table : Dict PointId PointRecord) (row : CompiledRow) (point : PointId) : List PointId :=
  if point = .turnPost ∧ row.match.op = none ∧ table.contains .compactionPre then [point, .compactionPre] else [point]

abbrev StoredEntry := CompiledEntry MessagePolicyContext

/-- The tables under construction. An entry's id is among the ids seen, and a point has no id twice. -/
structure Compiling where
  byPoint : Dict PointId (List StoredEntry) := Dict.empty
  rowById : Dict String CompiledRow := Dict.empty
  seen : List String := []
  known : ∀ point, ∀ entry ∈ (byPoint.get? point).getD [], entry.id ∈ seen := by simp
  nodup : ∀ point, (((byPoint.get? point).getD []).map CompiledEntry.id).Nodup := by simp

def Compiling.entries (c : Compiling) (point : PointId) : List StoredEntry := (c.byPoint.get? point).getD []

def Compiling.push (c : Compiling) (row : GateRow) (emit : Option EmitKind) (policy : CompiledRow)
    (h : row.id ∉ c.seen) : Compiling where
  byPoint := c.byPoint.set row.on (c.entries row.on ++ [⟨row, emit, none, some policy⟩])
  rowById := c.rowById.set row.id policy
  seen := row.id :: c.seen
  known := by
    intro point entry hentry
    rw [Dict.get?_set] at hentry
    split at hentry
    · rcases mem_append.mp hentry with hold | hnew
      · exact mem_cons_of_mem _ (c.known row.on entry hold)
      · obtain rfl := mem_singleton.mp hnew
        exact mem_cons_self
    · exact mem_cons_of_mem _ (c.known point entry hentry)
  nodup := by
    intro point
    rw [Dict.get?_set]
    split
    · rw [Option.getD_some, map_append, nodup_append]
      refine ⟨c.nodup row.on, by simp, ?_⟩
      intro id hid other hother heq
      obtain ⟨entry, hentry, rfl⟩ := mem_map.mp hid
      obtain rfl : other = row.id := by simpa [CompiledEntry.id] using hother
      rw [← heq] at h
      exact h (c.known row.on entry hentry)
    · exact c.nodup point

def Compiling.insert (table : Dict PointId PointRecord) (names : List String) (c : Compiling) (row : GateRow)
    (policy : CompiledRow) : Except GateComposeError Compiling :=
  if h : row.id ∈ c.seen then .error { code := .duplicate, rowId := some row.id, point := some row.on.id }
  else match admitRow table names row with
    | .error error => .error error
    | .ok emit => .ok (c.push row emit policy h)

structure CompileOptions where
  generation : ℕ
  kinds : List String
  mandatory : List String
  table : Dict PointId PointRecord
  registry : HandlerTable

/-- The total order on texts that `localeCompare` is taken to be. -/
structure Collation where
  le : String → String → Bool
  total : ∀ a b, le a b = true ∨ le b a = true
  trans : ∀ {a b c}, le a b = true → le b c = true → le a c = true
  antisymm : ∀ {a b}, le a b = true → le b a = true → a = b

/-- The comparison of the sort: priority, the highest first, then name. -/
def rowBefore (collation : Collation) (a b : PolicyRow) : Prop :=
  b.priority < a.priority ∨ (a.priority = b.priority ∧ collation.le a.name b.name = true)

instance (collation : Collation) : DecidableRel (rowBefore collation) :=
  fun _ _ => inferInstanceAs (Decidable (_ ∨ _))

def orderedRows (collation : Collation) (rows : List PolicyRow) : List (PolicyRow × ℕ) :=
  rows.zipIdx.insertionSort fun a b => rowBefore collation a.1 b.1

def composeRejected (options : CompileOptions) (error : GateComposeError) : PolicyCompileError where
  code := .composeRejected
  generation := options.generation
  composeCode := some error.code
  kind := error.point
  ref := error.ref

def storedGateRow (options : CompileOptions) (row : CompiledRow) (doHow : PointDo × GateHow) (order : ℕ)
    (on : PointId) : GateRow where
  id := gateRowId row.name on order
  on := on
  when := row.match.when
  «do» := doHow.1
  how := doHow.2
  order := order
  generation := options.generation

def compileRow (options : CompileOptions) (c : Compiling) (source : PolicyRow) (rowIndex order : ℕ) :
    Except PolicyCompileError Compiling :=
  if isLegacyRow source then .error {
      code := .policyRowMigrationRequired, generation := source.generation, rowIndex := some rowIndex
      ruleName := some source.name }
  else match parseRow source options.generation options.kinds options.registry with
    | .error error => .error error
    | .ok row =>
      match (policyPoint row.kind row.phase).filter options.table.contains with
      | none => .error (composeRejected options
          { code := .unknownPoint, point := some (row.kind ++ "." ++ row.phase.text) })
      | some point =>
        match projectedDoHow row with
        | .error error => .error (composeRejected options error)
        | .ok doHow =>
          match (rowPoints options.table row point).foldlM (fun c on =>
              c.insert options.table options.registry.names (storedGateRow options row doHow order on) row) c with
          | .error error => .error (composeRejected options error)
          | .ok c => .ok c

def compileRows (options : CompileOptions) (c : Compiling) (order : ℕ) :
    List (PolicyRow × ℕ) → Except PolicyCompileError Compiling
  | [] => .ok c
  | source :: rows =>
    match compileRow options c source.1 source.2 order with
    | .error error => .error error
    | .ok next => compileRows options next (order + 1) rows

def missingRule (options : CompileOptions) (rows : List PolicyRow) : Option String :=
  ("compaction" :: options.mandatory).find? fun name => !rows.any (·.name = name)

def compileStored (collation : Collation) (options : CompileOptions) (rows : List PolicyRow) :
    Except PolicyCompileError Compiling :=
  match missingRule options rows with
  | some name => .error { code := .mandatoryRuleMissing, generation := options.generation, ruleName := some name }
  | none => compileRows options {} 0 (orderedRows collation rows)

def rowKey (row : PolicyRow) : String := row.name ++ "\x00" ++ row.kind ++ "\x00" ++ row.phase.text

def encodedValue (value : PlainValue) : PlainValue := record [("encodingVersion", some (.num 1)), ("value", some value)]

/-- One row of `contentIdentity`. -/
def PolicyRow.identity (row : PolicyRow) : PlainValue :=
  record [("name", some (.str row.name)), ("kind", some (.str row.kind)), ("phase", some (.str row.phase.text)),
    ("match", some (encodedValue row.match)), ("verdict", some (encodedValue row.verdict)), ("priority", some (.num row.priority))]

def contentIdentity (collation : Collation) (rows : List PolicyRow) : PlainValue :=
  .arr ((rows.insertionSort fun a b => collation.le (rowKey a) (rowKey b) = true).map PolicyRow.identity)

/-- `DEFAULT_COMPILE_KINDS`, and the kind that is always there. -/
def defaultKinds : List String :=
  ["prompt", "turn", "llm", "tool", "message", "compaction", "session.configure", "ingress"]

/-- The default table: the core points and the kernel's capability points. -/
def kernelPointTable : Dict PointId PointRecord :=
  ⟨(corePointRecords ++ capabilityPointRecords).map fun record => (record.id, record)⟩

section Compile
variable [PlainCoding]

/-- `compile` of stored rows. -/
def compile (collation : Collation) (options : CompileOptions) (rows : List PolicyRow) :
    Except CompileFailure PolicySnapshot :=
  match handlerTableFault [] options.registry.refs with
  | some fault => .error (.handlers fault)
  | none =>
    match compileStored collation options rows with
    | .error error => .error (.policy error)
    | .ok c => .ok {
        generation := options.generation
        contentHash := canonicalDigest (contentIdentity collation rows)
        pointTable := options.table
        byPoint := c.byPoint
        rowById := c.rowById
        handlers := ⟨options.registry.handlers⟩
        consultants := ⟨options.registry.consultants⟩
        ids_nodup := c.nodup }

end Compile

end OpenOmni
