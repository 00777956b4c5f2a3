import OpenOmni.Protocol.SessionTransition

/-! The catalog of structured messages: which specs it accepts, and what it holds against the others. -/
namespace OpenOmni

open PlainValue SessionTransition

namespace Gateway

inductive ElementType where
  | stack | markdown | code | table | image | file | buttons | button | card | carousel | poll | status | divider
  | context
deriving DecidableEq

def ElementType.all : List ElementType :=
  [.stack, .markdown, .code, .table, .image, .file, .buttons, .button, .card, .carousel, .poll, .status, .divider,
    .context]

def ElementType.text : ElementType → String
  | .stack => "Stack"
  | .markdown => "Markdown"
  | .code => "Code"
  | .table => "Table"
  | .image => "Image"
  | .file => "File"
  | .buttons => "Buttons"
  | .button => "Button"
  | .card => "Card"
  | .carousel => "Carousel"
  | .poll => "Poll"
  | .status => "Status"
  | .divider => "Divider"
  | .context => "Context"

inductive Style where
  | primary | danger | default

def Style.text : Style → String
  | .primary => "primary"
  | .danger => "danger"
  | .default => "default"

inductive Align where
  | left | center | right

def Align.text : Align → String
  | .left => "left"
  | .center => "center"
  | .right => "right"

structure Column where
  header : String
  align : Option Align

inductive StatusKind where
  | ok | warn | fail | progress

def StatusKind.text : StatusKind → String
  | .ok => "ok"
  | .warn => "warn"
  | .fail => "fail"
  | .progress => "progress"

/-- What the props of each component hold; a button posts back an id or opens a link. -/
inductive Props where
  | stack
  | markdown (text : String)
  | code (text : String) (lang : Option String)
  | table (columns : List Column) (rows : List (List String))
  | image (ref : String) (caption : Option String)
  | file (ref name : String) (mime : Option String)
  | buttons
  | postback (label id : String) (style : Option Style)
  | link (label url : String) (style : Option Style)
  | card (title : String) (image body : Option String)
  | carousel
  | poll (question : String) (options : List String) (multi : Option Bool)
  | status (kind : StatusKind) (title : String) (body : Option String)
  | divider
  | context (text : String)

def readStyle (props : PlainValue) : Option (Option Style) :=
  optional (readEnum [.primary, .danger, .default] Style.text) (props.get? "style")

def Column.ofPlain (v : PlainValue) : Option Column := do
  guard (v.strict ["header", "align"])
  let header ← field v "header" asStr
  let align ← optional (readEnum [.left, .center, .right] Align.text) (v.get? "align")
  return ⟨header, align⟩

/-- `EmptyProps`, and `StackProps`. -/
def readEmpty (props : PlainValue) (component : Props) : Option Props := do
  guard (props.strict [])
  return component

def readPostback (props : PlainValue) : Option Props := do
  guard (props.strict ["label", "id", "style"])
  let label ← field props "label" readId
  let id ← field props "id" readId
  let style ← readStyle props
  return .postback label id style

section
variable (isUrl : String → Bool)

/-- `isUrl` is `z.url` of the protocols http and https. -/
def readLink (props : PlainValue) : Option Props := do
  guard (props.strict ["label", "url", "style"])
  let label ← field props "label" readId
  let url ← (field props "url" asStr).filter isUrl
  let style ← readStyle props
  return .link label url style

/-- `definitions[type].props.safeParse`. -/
def Props.ofPlain (type : ElementType) (props : PlainValue) : Option Props :=
  match type with
  | .stack => readEmpty props .stack
  | .markdown => do
    guard (props.strict ["text"])
    return .markdown (← field props "text" asStr)
  | .code => do
    guard (props.strict ["text", "lang"])
    return .code (← field props "text" asStr) (← optional readId (props.get? "lang"))
  | .table => do
    guard (props.strict ["columns", "rows"])
    return .table (← field props "columns" (asList Column.ofPlain)) (← field props "rows" (asList (asList asStr)))
  | .image => do
    guard (props.strict ["ref", "caption"])
    return .image (← field props "ref" readId) (← optional asStr (props.get? "caption"))
  | .file => do
    guard (props.strict ["ref", "name", "mime"])
    return .file (← field props "ref" readId) (← field props "name" readId) (← optional readId (props.get? "mime"))
  | .buttons => readEmpty props .buttons
  | .button => (readPostback props).or (readLink isUrl props)
  | .card => do
    guard (props.strict ["title", "image", "body"])
    return .card (← field props "title" asStr) (← optional readId (props.get? "image"))
      (← optional asStr (props.get? "body"))
  | .carousel => readEmpty props .carousel
  | .poll => do
    guard (props.strict ["question", "options", "multi"])
    let question ← field props "question" asStr
    let options ← (field props "options" (asList asStr)).filter fun options =>
      2 ≤ options.length && options.length ≤ 10
    return .poll question options (← optional asBool (props.get? "multi"))
  | .status => do
    guard (props.strict ["kind", "title", "body"])
    let kind ← field props "kind" (readEnum [.ok, .warn, .fail, .progress] StatusKind.text)
    return .status kind (← field props "title" asStr) (← optional asStr (props.get? "body"))
  | .divider => readEmpty props .divider
  | .context => do
    guard (props.strict ["text"])
    return .context (← field props "text" asStr)

end

/-- `Element`, its props as they came. -/
structure Element where
  type : ElementType
  props : PlainValue
  children : List String
deriving DecidableEq

structure Spec where
  root : String
  elements : List (String × Element)
deriving DecidableEq

def Spec.ids (spec : Spec) : List String := spec.elements.map (·.1)

/-- The shape that `schema` declares: unknown fields are dropped, and the props are any record. -/
def Element.ofPlain (v : PlainValue) : Option Element := do
  let type ← field v "type" (readEnum ElementType.all ElementType.text)
  let props ← field v "props" objectValue
  let children ← field v "children" (asList asStr)
  return ⟨type, props, children⟩

def readElements (entries : List (String × PlainValue)) : Option (List (String × Element)) :=
  entries.mapM fun entry => (Element.ofPlain entry.2).map (entry.1, ·)

def Spec.ofPlain (v : PlainValue) : Option Spec := do
  let root ← field v "root" asStr
  let elements ← (field v "elements" asObj).bind readElements
  return ⟨root, elements⟩

/-- The names that every object inherits from `Object.prototype`. -/
def objectPrototypeNames : List String :=
  ["constructor", "__defineGetter__", "__defineSetter__", "hasOwnProperty", "__lookupGetter__", "__lookupSetter__",
    "isPrototypeOf", "propertyIsEnumerable", "toString", "valueOf", "__proto__", "toLocaleString"]

/-- What `spec.elements[id]` is; what is inherited is neither undefined nor an element. -/
inductive Found where
  | missing
  | inherited
  | own (element : Element)
deriving DecidableEq

def Spec.find (spec : Spec) (id : String) : Found :=
  match spec.elements.lookup id with
  | some element => .own element
  | none => if id ∈ objectPrototypeNames then .inherited else .missing

/-- `spec.elements[id]?.children ?? []`. -/
def Spec.children (spec : Spec) (id : String) : List String :=
  match spec.find id with
  | .own element => element.children
  | _ => []

/-- `spec.elements[id]?.type`. -/
def Spec.typeOf (spec : Spec) (id : String) : Option ElementType :=
  match spec.find id with
  | .own element => some element.type
  | _ => none

inductive Segment where
  | key (name : String)
  | index (i : ℕ)
deriving DecidableEq

structure Issue where
  path : List Segment
  message : String
deriving DecidableEq

def isClientStateKey (key : String) : Bool := key = "visible" || key = "watch" || key.startsWith "$"

mutual
def hasClientStateField : PlainValue → Bool
  | .arr items => anyClientState items
  | .obj fields => anyClientStateField fields
  | _ => false
def anyClientState : List PlainValue → Bool
  | [] => false
  | item :: items => hasClientStateField item || anyClientState items
def anyClientStateField : List (String × PlainValue) → Bool
  | [] => false
  | (key, nested) :: fields => isClientStateKey key || hasClientStateField nested || anyClientStateField fields
end

def specFields : List String := ["root", "elements"]

def elementFields : List String := ["type", "props", "children"]

/-- What `rawIssues` holds against one element. -/
def rawElementIssues (id : String) : PlainValue → List Issue
  | .obj fields =>
    ((fields.map (·.1)).filter (· ∉ elementFields)).map
        (fun key => ⟨[.key "elements", .key id, .key key], "unknown element field"⟩) ++
      if (fields.lookup "props").any hasClientStateField then
        [⟨[.key "elements", .key id, .key "props"], "chat specs carry no client state"⟩]
      else []
  | _ => []

def rawIssues : PlainValue → List Issue
  | .obj fields =>
    ((fields.map (·.1)).filter (· ∉ specFields)).map (fun key => ⟨[.key key], "unknown spec field"⟩) ++
      match fields.lookup "elements" with
      | some (.obj elements) => elements.flatMap fun entry => rawElementIssues entry.1 entry.2
      | _ => []
  | _ => []

def childCountIssue (type : ElementType) (count : ℕ) : Option String :=
  match type with
  | .stack => if count = 0 then some "Stack must contain at least one child" else none
  | .buttons =>
    if count = 0 then some "Buttons must contain at least one child"
    else if count > 5 then some "Buttons may contain at most 5 children"
    else none
  | .carousel => if count < 2 ∨ count > 10 then some "Carousel must contain 2 to 10 children" else none
  | _ => if count > 0 then some "this element cannot have children" else none

def nestingIssue (parent : ElementType) (child : Option ElementType) : Option String :=
  if parent = .buttons ∧ child ≠ none ∧ child ≠ some .button then some "Buttons children must be Button elements"
  else if parent = .carousel ∧ child ≠ none ∧ child ≠ some .card then
    some "Carousel children must be Card elements"
  else if parent ≠ .buttons ∧ child = some .button then some "Button must be a child of Buttons"
  else none

/-- `.length` of a value, which `undefined` and `null` have none of. -/
def lengthOf : Option PlainValue → Option (Option PlainValue)
  | none | some .null => none
  | some (.arr items) => some (some (.num items.length))
  | some (.str s) => some (some (.num ((s.toList.map fun c => if c.toNat < 0x10000 then 1 else 2).sum : ℕ)))
  | some (.obj fields) => some (fields.lookup "length")
  | some _ => some none

/-- `===` of two values of one tree: no list and no record is another. -/
def identical : Option PlainValue → Option PlainValue → Bool
  | some (.arr _), _ | some (.obj _), _ => false
  | a, b => a = b

/-- `rows.findIndex` of a row of another length. -/
def raggedRow (width : Option PlainValue) (index : ℕ) : List PlainValue → Option (Option ℕ)
  | [] => some none
  | row :: rows =>
    match lengthOf (some row) with
    | none => none
    | some length => if identical length width then raggedRow width (index + 1) rows else some (some index)

/-- `tableIssue`; it throws where the props are read past what they hold. -/
def tableIssue (id : String) (element : Element) : Option (List Issue) :=
  if element.type ≠ .table then some []
  else
    match lengthOf (element.props.get? "columns"), element.props.get? "rows" with
    | some width, some (.arr rows) => (raggedRow width 0 rows).map fun
      | none => []
      | some ragged => [⟨[.key "elements", .key id, .key "props", .key "rows", .index ragged],
          "a table row carries one value per column"⟩]
    | _, _ => none

/-- What `elementIssues` holds against the child at an index. -/
def childIssues (spec : Spec) (id : String) (type : ElementType) (child : String) (index : ℕ) : List Issue :=
  (if child ∈ spec.ids then []
    else [⟨[.key "elements", .key id, .key "children", .index index], "dangling child id"⟩]) ++
  ((nestingIssue type (spec.typeOf child)).map fun nesting =>
    ⟨[.key "elements", .key id, .key "children", .index index], nesting⟩).toList

def elementIssues (isUrl : String → Bool) (spec : Spec) (id : String) (element : Element) : Option (List Issue) :=
  (tableIssue id element).map fun issues =>
    issues ++
    (if (Props.ofPlain isUrl element.type element.props).isSome then []
      else [⟨[.key "elements", .key id, .key "props"], "invalid catalog props"⟩]) ++
    (element.children.zipIdx.flatMap fun child => childIssues spec id element.type child.1 child.2) ++
    ((childCountIssue element.type element.children.length).map fun count =>
      ⟨[.key "elements", .key id, .key "children"], count⟩).toList

/-- The children of one element on the walk: a new one waits on the stack, another is an issue. -/
def visitChildren (id : String) : List String → List String → List String → List String × List String × List Issue
  | [], reached, pending => (reached, pending, [])
  | child :: children, reached, pending =>
    if child ∈ reached then
      let (reached, pending, issues) := visitChildren id children reached pending
      (reached, pending,
        ⟨[.key "elements", .key id, .key "children"], "element is referenced more than once"⟩ :: issues)
    else visitChildren id children (child :: reached) (child :: pending)

/-- The loop of `treeIssues`, over the stack of what is reached and not yet walked. -/
def treeLoop (spec : Spec) : ℕ → List String → List String → List String × List Issue
  | 0, reached, _ | _ + 1, reached, [] => (reached, [])
  | fuel + 1, reached, id :: pending =>
    let (reached, pending, issues) := visitChildren id (spec.children id) reached pending
    let (reached, later) := treeLoop spec fuel reached pending
    (reached, issues ++ later)

/-- The steps the walk takes at most: one for the root and one for each reference. -/
def Spec.references (spec : Spec) : List String := spec.elements.flatMap (·.2.children)

def treeIssues (spec : Spec) : List Issue :=
  if spec.find spec.root = .missing then [⟨[.key "root"], "root element is missing"⟩]
  else
    let (reached, issues) := treeLoop spec (spec.references.length + 1) [spec.root] [spec.root]
    (if spec.typeOf spec.root = some .button then [⟨[.key "root"], "Button must be a child of Buttons"⟩] else []) ++
      issues ++
      (spec.ids.filter (· ∉ reached)).map fun id =>
        ⟨[.key "elements", .key id], "element is not reachable from root"⟩

/-- The outcome of `Catalog.Spec`: a spec, the issues found where the shape holds, or a throw. -/
inductive Parsed where
  | accepted (spec : Spec)
  | refused (issues : List Issue)
  | threw
deriving DecidableEq

/-- `SpecBody` behind the shape. -/
def checkSpec (isUrl : String → Bool) (spec : Spec) : Parsed :=
  match spec.elements.mapM fun entry => elementIssues isUrl spec entry.1 entry.2 with
  | none => .threw
  | some issues =>
    let issues := treeIssues spec ++ issues.flatten
    if issues = [] then .accepted spec else .refused issues

/-- `Catalog.Spec`; `zodSchema` is the schema that the catalog's library makes of the declared shape. -/
def parseSpec (zodSchema : PlainValue → Option Spec) (isUrl : String → Bool) (input : PlainValue) : Parsed :=
  if rawIssues input ≠ [] then .refused (rawIssues input)
  else
    match zodSchema input with
    | none => .refused []
    | some spec => checkSpec isUrl spec

end Gateway

end OpenOmni
