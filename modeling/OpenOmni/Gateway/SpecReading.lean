import OpenOmni.Gateway.CatalogTree

/-! A spec read as the parts of a letter. -/
namespace OpenOmni
namespace Gateway
open List PlainValue SessionTransition RootedTree
open Option (bind_eq_some_iff)

inductive MessagePart where
  | text (content : String)
  | code (content : String) (lang : Option String)
  | image (ref : String) (name caption : Option String)
  | file (ref name : String) (mime caption : Option String)
deriving DecidableEq

/-- `PartSchema`: what it asks of a part beyond its fields. -/
def MessagePart.valid : MessagePart → Bool
  | .text content => isId content
  | .code content lang => isId content && lang.all isId
  | .image ref name _ => isId ref && name.all isId
  | .file ref name mime _ => isId ref && isId name && mime.all isId

/-- `Chunk`: a line of text, or a part on its own. -/
inductive Chunk where
  | line (text : String)
  | media (part : MessagePart)
deriving DecidableEq

def tableChunk (columns : List Column) (rows : List (List String)) : String :=
  "\n".intercalate (" | ".intercalate (columns.map (·.header)) :: rows.map (" | ".intercalate ·))

def elementChunks : Props → List Chunk
  | .markdown text | .context text => [.line text]
  | .code text lang => [.media (.code text lang)]
  | .table columns rows => [.line (tableChunk columns rows)]
  | .image ref caption => [.media (.image ref none caption)]
  | .file ref name mime => [.media (.file ref name mime none)]
  | .link label url _ => [.line ("[" ++ label ++ "](" ++ url ++ ")")]
  | .postback label _ _ => [.line ("[" ++ label ++ "]")]
  | .card title image body =>
    [.line title] ++ (image.map fun image => .media (.image image none none)).toList ++ (body.map .line).toList
  | .poll question options multi =>
    [.line (question ++ (if multi = some true then " (choose any)" else "") ++ "\n" ++
      "\n".intercalate (options.map ("- " ++ ·)))]
  | .status kind title body => [.line (kind.text.toUpper ++ ": " ++ title)] ++ (body.map .line).toList
  | .divider => [.line "---"]
  | .stack | .buttons | .carousel => []

/-- What `specParts` has read: the text not yet flushed, and the parts. -/
structure Reading where
  lines : List String := []
  parts : List MessagePart := []
  visited : List String := []

def Reading.flush (r : Reading) : Reading :=
  if r.lines = [] then r
  else { r with lines := [], parts := r.parts ++ [.text ("\n\n".intercalate r.lines)] }

def Reading.take (r : Reading) : Chunk → Reading
  | .line text => { r with lines := r.lines ++ [text] }
  | .media part => { r.flush with parts := r.flush.parts ++ [part] }

def Reading.read (r : Reading) (id : String) (chunks : List Chunk) : Reading :=
  { chunks.foldl Reading.take r with visited := r.visited ++ [id] }

section
variable (isUrl : String → Bool) (spec : Spec)

def chunksOf (id : String) : List Chunk :=
  match spec.find id with
  | .own element => ((Props.ofPlain isUrl element.type element.props).map elementChunks).getD []
  | _ => []

/-- The loop of `specParts`, for so many steps: nothing where it still runs, and a throw where it meets what
is no element. -/
def specPartsLoop : ℕ → List String → Reading → Option (Option Reading)
  | 0, _, _ => none
  | _ + 1, [], r => some (some r.flush)
  | fuel + 1, id :: pending, r =>
    match spec.find id with
    | .missing => specPartsLoop fuel pending r
    -- it has no children to iterate over
    | .inherited => some none
    | .own element => specPartsLoop fuel (element.children ++ pending) (r.read id (chunksOf isUrl spec id))

def specParts (fuel : ℕ) : Option (Option Reading) := specPartsLoop isUrl spec fuel [spec.root] {}

end

variable {spec : Spec} {isUrl : String → Bool}

def Reading.readAll (isUrl : String → Bool) (spec : Spec) (r : Reading) (order : List String) : Reading :=
  order.foldl (fun r id => r.read id (chunksOf isUrl spec id)) r

variable {pending : List String} {v : PlainValue} {id : String} {part : MessagePart}

theorem specPartsLoop_preorder {order : List String} (r : Reading) (h : Preorder spec.children pending order)
    (hown : ∀ id ∈ order, id ∈ spec.ids) :
    specPartsLoop isUrl spec (order.length + 1) pending r = some (some (r.readAll isUrl spec order).flush) := by
  induction order generalizing pending r with
  | nil =>
    cases h
    rfl
  | cons id order ih =>
    cases pending with
    | nil => cases h
    | cons first pending =>
      obtain ⟨rest, heq, hrest⟩ := preorder_cons_iff.mp h
      cases heq
      obtain ⟨element, hfound⟩ := lookup_some_of_id (hown id mem_cons_self)
      have hfind : spec.find id = .own element := by
        unfold Spec.find
        rw [hfound]
      rw [Spec.children_eq, hfound] at hrest
      rw [length_cons, specPartsLoop, hfind]
      exact ih (r.read id (chunksOf isUrl spec id)) hrest fun other hother => hown other (mem_cons_of_mem id hother)

def runPart (run : List String) : List MessagePart :=
  if run = [] then [] else [.text ("\n\n".intercalate run)]

@[simp] theorem flush_lines (r : Reading) : r.flush.lines = [] := by
  unfold Reading.flush
  split
  · assumption
  · rfl

@[simp] theorem flush_parts (r : Reading) : r.flush.parts = r.parts ++ runPart r.lines := by
  unfold Reading.flush runPart
  split <;> simp

@[simp] theorem flush_visited (r : Reading) : r.flush.visited = r.visited := by
  unfold Reading.flush
  split <;> rfl

@[simp] theorem take_visited (r : Reading) (chunk : Chunk) : (r.take chunk).visited = r.visited := by
  cases chunk with
  | line text => rfl
  | media part => exact flush_visited r

lemma readAll_visited (r : Reading) (order : List String) :
    (r.readAll isUrl spec order).visited = r.visited ++ order := by
  have htake : ∀ (chunks : List Chunk) (r : Reading), (chunks.foldl Reading.take r).visited = r.visited := by
    intro chunks
    induction chunks with
    | nil => exact fun _ => rfl
    | cons chunk chunks ih => exact fun r => (ih (r.take chunk)).trans (take_visited r chunk)
  unfold Reading.readAll
  induction order generalizing r with
  | nil => simp
  | cons id order ih =>
    rw [foldl_cons, ih]
    simp [Reading.read]

def partsOf (run : List String) : List Chunk → List MessagePart
  | [] => runPart run
  | .line text :: chunks => partsOf (run ++ [text]) chunks
  | .media part :: chunks => runPart run ++ part :: partsOf [] chunks

lemma partsOf_append (chunks later : List Chunk) (r : Reading) :
    r.parts ++ partsOf r.lines (chunks ++ later) =
      (chunks.foldl Reading.take r).parts ++ partsOf (chunks.foldl Reading.take r).lines later := by
  induction chunks generalizing r with
  | nil => rfl
  | cons chunk chunks ih =>
    rw [foldl_cons, ← ih (r.take chunk)]
    cases chunk with
    | line text => rfl
    | media part => simp [Reading.take, partsOf]

lemma readAll_parts (order : List String) (r : Reading) : (r.readAll isUrl spec order).flush.parts =
    r.parts ++ partsOf r.lines (order.flatMap (chunksOf isUrl spec)) := by
  unfold Reading.readAll
  induction order generalizing r with
  | nil => exact flush_parts r
  | cons id order ih =>
    rw [foldl_cons, ih, flatMap_cons, partsOf_append]
    rfl

def textRuns (run : List String) : List Chunk → List (List String)
  | [] => [run]
  | .line text :: chunks => textRuns (run ++ [text]) chunks
  | .media _ :: chunks => run :: textRuns [] chunks

theorem runPart_valid_iff (run : List String) : (∀ part ∈ runPart run, part.valid = true) ↔ run ≠ [""] := by
  unfold runPart
  match run with
  | [] => simp
  | [text] => simp [MessagePart.valid, isId]
  | first :: second :: rest =>
    simp [MessagePart.valid, isId]

lemma partsOf_valid_iff (chunks : List Chunk) (run : List String) :
    (∀ part ∈ partsOf run chunks, part.valid = true) ↔
      (∀ part, .media part ∈ chunks → part.valid = true) ∧ [""] ∉ textRuns run chunks := by
  induction chunks generalizing run with
  | nil =>
    rw [partsOf, runPart_valid_iff, textRuns, mem_singleton]
    exact ⟨fun h => ⟨nofun, fun heq => h heq.symm⟩, fun h heq => h.2 heq.symm⟩
  | cons chunk chunks ih =>
    cases chunk with
    | line text =>
      rw [partsOf, textRuns, ih]
      simp
    | media part =>
      rw [partsOf, textRuns, forall_mem_append, forall_mem_cons, runPart_valid_iff, ih, mem_cons,
        not_or]
      constructor
      · rintro ⟨hrun, hpart, hmedia, hruns⟩
        refine ⟨fun other hother => ?_, fun heq => hrun heq.symm, hruns⟩
        cases mem_cons.mp hother with
        | inl heq =>
          cases heq
          exact hpart
        | inr hin => exact hmedia other hin
      · rintro ⟨hmedia, hrun, hruns⟩
        exact ⟨fun heq => hrun heq.symm, hmedia part mem_cons_self,
          fun other hother => hmedia other (mem_cons_of_mem _ hother), hruns⟩

lemma readId_some (h : readId v = some id) : isId id = true := by
  obtain ⟨-, hid⟩ := Option.filter_eq_some_iff.mp h
  exact hid

lemma field_readId {key : String} (h : field v key readId = some id) : isId id = true := by
  obtain ⟨found, -, hread⟩ := bind_eq_some_iff.mp h
  exact readId_some hread

lemma optional_readId {found : Option PlainValue} {id : Option String} (h : optional readId found = some id) :
    id.all isId = true := by
  cases found with
  | none =>
    cases h
    rfl
  | some v =>
    obtain ⟨text, htext, rfl⟩ := Option.map_eq_some_iff.mp h
    exact readId_some htext

theorem media_valid {type : ElementType} {props : Props} (h : Props.ofPlain isUrl type v = some props)
    (hpart : .media part ∈ elementChunks props) : part.valid = true ↔ ∀ lang, part ≠ .code "" lang := by
  have htype := Props.ofPlain_type h
  rw [← htype] at h
  cases props with
  | code content lang =>
    obtain rfl : part = .code content lang := by simpa [elementChunks] using hpart
    dsimp only [Props.type, Props.ofPlain] at h
    simp only [Option.bind_eq_bind, bind_eq_some_iff] at h
    obtain ⟨-, -, _, -, _, hlang, h⟩ := h
    cases h
    simp [MessagePart.valid, optional_readId hlang, isId]
  | image ref caption =>
    obtain rfl : part = .image ref none caption := by simpa [elementChunks] using hpart
    dsimp only [Props.type, Props.ofPlain] at h
    simp only [Option.bind_eq_bind, bind_eq_some_iff] at h
    obtain ⟨-, -, _, href, _, -, h⟩ := h
    cases h
    simp [MessagePart.valid, field_readId href]
  | file ref name mime =>
    obtain rfl : part = .file ref name mime none := by simpa [elementChunks] using hpart
    dsimp only [Props.type, Props.ofPlain] at h
    simp only [Option.bind_eq_bind, bind_eq_some_iff] at h
    obtain ⟨-, -, _, href, _, hname, _, hmime, h⟩ := h
    cases h
    simp [MessagePart.valid, field_readId href, field_readId hname, optional_readId hmime]
  | card title image body =>
    dsimp only [Props.type, Props.ofPlain] at h
    simp only [Option.bind_eq_bind, bind_eq_some_iff] at h
    obtain ⟨-, -, _, -, _, himage, _, -, h⟩ := h
    cases h
    have hvalid := optional_readId himage
    cases image with
    | none => simp [elementChunks] at hpart
    | some ref =>
      obtain rfl : part = .image ref none none := by simpa [elementChunks] using hpart
      simpa [MessagePart.valid] using hvalid
  | _ => simp [elementChunks] at hpart

/-- A spec is read to the end, each element once and in preorder, as parts that a letter takes. -/
def Renders (isUrl : String → Bool) (spec : Spec) : Prop :=
  ∃ order fuel r, Preorder spec.children [spec.root] order ∧ order.Perm spec.ids ∧
    specParts isUrl spec fuel = some (some r) ∧ r.visited = order ∧ ∀ part ∈ r.parts, part.valid = true

/-- Read in preorder, a spec has no empty code and no text that is empty and stands alone. -/
def Readable (isUrl : String → Bool) (spec : Spec) : Prop :=
  ∀ order, Preorder spec.children [spec.root] order →
    (∀ lang, Chunk.media (.code "" lang) ∉ order.flatMap (chunksOf isUrl spec)) ∧
      [""] ∉ textRuns [] (order.flatMap (chunksOf isUrl spec))

lemma chunksOf_media_valid (h : .media part ∈ chunksOf isUrl spec id) :
    part.valid = true ↔ ∀ lang, part ≠ .code "" lang := by
  unfold chunksOf at h
  cases hfind : spec.find id with
  | own element =>
    rw [hfind] at h
    dsimp only at h
    cases hprops : Props.ofPlain isUrl element.type element.props with
    | none =>
      rw [hprops] at h
      cases h
    | some props =>
      rw [hprops] at h
      exact media_valid hprops h
  | _ =>
    rw [hfind] at h
    cases h

theorem specPartsLoop_mono {fuel : ℕ} {r : Reading} {result : Option Reading}
    (h : specPartsLoop isUrl spec fuel pending r = some result) (more : ℕ) :
    specPartsLoop isUrl spec (fuel + more) pending r = some result := by
  induction fuel generalizing pending r with
  | zero => cases h
  | succ fuel ih =>
    rw [Nat.succ_add]
    cases pending with
    | nil => exact h
    | cons id pending =>
      rw [specPartsLoop] at h ⊢
      cases hfind : spec.find id with
      | missing | own element =>
        rw [hfind] at h
        exact ih h
      | inherited =>
        rw [hfind] at h
        exact h

theorem renders_iff (h : IsSpec isUrl v spec) (hids : spec.ids.Nodup) : Renders isUrl spec ↔ Readable isUrl spec := by
  obtain ⟨order, hpre, hperm⟩ := h.tree.preorder hids
  let chunks := order.flatMap (chunksOf isUrl spec)
  let last := (Reading.readAll isUrl spec {} order).flush
  have hloop : specParts isUrl spec (order.length + 1) = some (some last) :=
    specPartsLoop_preorder {} hpre fun id hid => hperm.subset hid
  have hvisited : last.visited = order := by
    rw [flush_visited, readAll_visited]
    rfl
  have hmedia : (∀ part, .media part ∈ chunks → part.valid = true) ↔
      ∀ lang, Chunk.media (.code "" lang) ∉ chunks := by
    have hvalid : ∀ part, .media part ∈ chunks → (part.valid = true ↔ ∀ lang, part ≠ .code "" lang) := by
      intro part hpart
      obtain ⟨id, -, hchunk⟩ := mem_flatMap.mp hpart
      exact chunksOf_media_valid hchunk
    constructor
    · intro hall lang hcode
      exact (hvalid _ hcode).mp (hall _ hcode) lang rfl
    · intro hnone part hpart
      exact (hvalid part hpart).mpr fun lang heq => hnone lang (heq ▸ hpart)
  have hparts : (∀ part ∈ last.parts, part.valid = true) ↔
      (∀ lang, Chunk.media (.code "" lang) ∉ chunks) ∧ [""] ∉ textRuns [] chunks := by
    rw [readAll_parts, ← hmedia]
    exact partsOf_valid_iff chunks []
  constructor
  · rintro ⟨-, fuel, r, -, -, hread, -, hvalid⟩ other hother
    have hsame : some (some r) = some (some last) :=
      (specPartsLoop_mono hread (order.length + 1)).symm.trans
        (Nat.add_comm fuel _ ▸ specPartsLoop_mono hloop fuel)
    cases hsame
    rw [hother.unique hpre]
    exact hparts.mp hvalid
  · intro hreadable
    exact ⟨order, _, last, hpre, hperm, hloop, hvisited, hparts.mpr (hreadable order hpre)⟩

section
variable {zodSchema : PlainValue → Option Spec}

/-- The catalog accepts exactly the specs and all that it accepts renders, except where the root of no elements
is a name that every object inherits, or a spec holds an empty code or an empty text that stands alone. -/
theorem catalog_iff (h : Documented isUrl zodSchema) (input : JsonValue) :
    (((∃ spec, parseSpec zodSchema isUrl input.value = .accepted spec) ↔
        ∃ spec, IsSpec isUrl input.value spec) ∧
      ∀ spec, parseSpec zodSchema isUrl input.value = .accepted spec → Renders isUrl spec) ↔
    ¬InheritedRoot input.value ∧ ∀ spec, IsSpec isUrl input.value spec → Readable isUrl spec := by
  constructor
  · rintro ⟨haccepts, hrenders⟩
    refine ⟨fun hinherited => ?_, fun spec hspec => ?_⟩
    · have hkind := hinherited
      obtain ⟨-, hempty, name, -, hroot⟩ := hkind
      have hshape : Spec.ofPlain input.value = some ⟨name, []⟩ :=
        Spec.ofPlain_iff.mpr ⟨hroot, [], hempty, rfl⟩
      obtain ⟨spec, hspec⟩ := haccepts.mp ⟨_, (accepted_iff h input).mpr (.inr ⟨hshape, hinherited⟩)⟩
      have hsame := hspec.shape
      rw [hshape] at hsame
      cases hsame
      exact absurd hspec.tree.root_mem not_mem_nil
    · have haccepted := (accepted_iff h input).mpr (.inl hspec)
      exact (renders_iff hspec (ids_nodup input hspec.shape)).mp (hrenders spec haccepted)
  · rintro ⟨hinherited, hreadable⟩
    have hiff : ∀ spec, parseSpec zodSchema isUrl input.value = .accepted spec ↔ IsSpec isUrl input.value spec := by
      intro spec
      rw [accepted_iff h input]
      exact ⟨fun hor => hor.resolve_right fun hboth => hinherited hboth.2, .inl⟩
    refine ⟨exists_congr hiff, fun spec haccepted => ?_⟩
    have hspec := (hiff spec).mp haccepted
    exact (renders_iff hspec (ids_nodup input hspec.shape)).mpr (hreadable spec hspec)

end

theorem documented_ofPlain (isUrl : String → Bool) : Documented isUrl Spec.ofPlain :=
  ⟨fun _ _ h => h, fun _ _ h _ => h⟩

def stackLetter : JsonValue where
  value :=
    let element (type : String) (props : PlainValue) (children : List String) : PlainValue :=
      .obj [("type", .str type), ("props", props), ("children", .arr (children.map .str))]
    .obj [("root", .str "body"),
      ("elements", .obj [("body", element "Stack" (.obj []) ["intro"]),
        ("intro", element "Markdown" (.obj [("text", .str "Here")]) [])])]
  distinct := by decide

def stackSpec : Spec :=
  ⟨"body", [("body", ⟨.stack, .obj [], ["intro"]⟩), ("intro", ⟨.markdown, .obj [("text", .str "Here")], []⟩)]⟩

theorem catalog_iff_stack : parseSpec Spec.ofPlain (fun _ => true) stackLetter.value = .accepted stackSpec ∧
    Renders (fun _ => true) stackSpec := by
  have haccepted : parseSpec Spec.ofPlain (fun _ => true) stackLetter.value = .accepted stackSpec := by
    decide +kernel
  have hcatalog := (catalog_iff (documented_ofPlain fun _ => true) stackLetter).mpr ⟨?_, fun spec hspec => ?_⟩
  · exact ⟨haccepted, hcatalog.2 stackSpec haccepted⟩
  · rintro ⟨-, hempty, -⟩
    cases hempty
  · intro order horder
    have hshape : Spec.ofPlain stackLetter.value = some stackSpec := by decide
    rw [hspec.shape] at hshape
    cases hshape
    have honly : Preorder stackSpec.children ["body"] ["body", "intro"] :=
      preorder_cons_iff.mpr ⟨["intro"], rfl, preorder_cons_iff.mpr ⟨[], rfl, .nil⟩⟩
    have hchunks : ["body", "intro"].flatMap (chunksOf (fun _ => true) stackSpec) = [.line "Here"] := by
      decide
    rw [horder.unique honly, hchunks]
    exact ⟨by simp, by decide⟩

/-- A letter with no elements, whose root is a name of every object, is accepted and is no spec. -/
theorem inherited_root_accepted : ¬ ∀ isUrl zodSchema, Documented isUrl zodSchema → ∀ input : JsonValue,
    ((∃ spec, parseSpec zodSchema isUrl input.value = .accepted spec) ↔ ∃ spec, IsSpec isUrl input.value spec) ∧
      ∀ spec, parseSpec zodSchema isUrl input.value = .accepted spec → Renders isUrl spec := by
  intro hall
  let input : JsonValue := ⟨.obj [("root", .str "toString"), ("elements", .obj [])], rfl⟩
  obtain ⟨haccepts, -⟩ := hall (fun _ => true) Spec.ofPlain (documented_ofPlain _) input
  obtain ⟨spec, hspec⟩ := haccepts.mp ⟨⟨"toString", []⟩, rfl⟩
  cases hspec.shape
  exact absurd hspec.tree.root_mem not_mem_nil

end Gateway

end OpenOmni
