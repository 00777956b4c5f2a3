import OpenOmni.Gateway.SpecTree

/-! The catalog accepts the specs that are one tree of valid elements, and one kind of spec that is none. -/
namespace OpenOmni
open List
open Option (bind_eq_bind bind_eq_some_iff map_eq_some_iff)

open PlainValue SessionTransition RootedTree

namespace Gateway

variable {spec : Spec} {isUrl : String → Bool} {v : PlainValue}

mutual
def keysWithin : PlainValue → List String
  | .arr items => keysWithinItems items
  | .obj fields => keysWithinFields fields
  | _ => []
def keysWithinItems : List PlainValue → List String
  | [] => []
  | item :: items => keysWithin item ++ keysWithinItems items
def keysWithinFields : List (String × PlainValue) → List String
  | [] => []
  | (key, nested) :: fields => key :: (keysWithin nested ++ keysWithinFields fields)
end

def ElementType.holds (count : ℕ) : ElementType → Bool
  | .stack => 1 ≤ count
  | .buttons => 1 ≤ count && count ≤ 5
  | .carousel => 2 ≤ count && count ≤ 10
  | _ => count = 0

def ElementType.nests (parent child : ElementType) : Prop :=
  (parent = .buttons ↔ child = .button) ∧ (parent = .carousel → child = .card)

def Props.square : Props → Prop
  | .table columns rows => ∀ row ∈ rows, row.length = columns.length
  | _ => True

def ExactFields (v : PlainValue) : Prop :=
  v.strict specFields = true ∧ ∀ entries, v.get? "elements" = some (.obj entries) →
    ∀ entry ∈ entries, entry.2.strict elementFields = true

/-- A value is a spec: one tree of elements off the root, each with as many and such children as it may hold and
with the props of its component, and no key of client state in them. -/
structure IsSpec (isUrl : String → Bool) (v : PlainValue) (spec : Spec) : Prop where
  shape : Spec.ofPlain v = some spec
  fields : ExactFields v
  tree : Rooted spec.ids spec.children spec.root
  root : spec.typeOf spec.root ≠ some .button
  holds : ∀ entry ∈ spec.elements, entry.2.type.holds entry.2.children.length = true
  nests : ∀ entry ∈ spec.elements, ∀ child ∈ entry.2.children, ∀ type, spec.typeOf child = some type →
    entry.2.type.nests type
  props : ∀ entry ∈ spec.elements, ∃ props, Props.ofPlain isUrl entry.2.type entry.2.props = some props ∧
    props.square
  stateless : ∀ entry ∈ spec.elements, ∀ key ∈ keysWithin entry.2.props, isClientStateKey key = false

mutual
def distinctKeys : PlainValue → Bool
  | .arr items => distinctItems items
  | .obj fields => decide ((fields.map (·.1)).Nodup) && distinctFields fields
  | _ => true
def distinctItems : List PlainValue → Bool
  | [] => true
  | item :: items => distinctKeys item && distinctItems items
def distinctFields : List (String × PlainValue) → Bool
  | [] => true
  | field :: fields => distinctKeys field.2 && distinctFields fields
end

structure JsonValue where
  value : PlainValue
  distinct : distinctKeys value = true

/-- What the catalog's library documents of the schema it makes: it reads the declared shape, and takes every
value of that shape with valid props. -/
structure Documented (isUrl : String → Bool) (zodSchema : PlainValue → Option Spec) : Prop where
  reads : ∀ v spec, zodSchema v = some spec → Spec.ofPlain v = some spec
  takes : ∀ v spec, Spec.ofPlain v = some spec →
    (∀ entry ∈ spec.elements, (Props.ofPlain isUrl entry.2.type entry.2.props).isSome) → zodSchema v = some spec

def InheritedRoot (v : PlainValue) : Prop :=
  v.strict specFields = true ∧ v.get? "elements" = some (.obj []) ∧
    ∃ name ∈ objectPrototypeNames, v.get? "root" = some (.str name)

mutual
lemma hasClientStateField_iff : ∀ v : PlainValue,
    hasClientStateField v = false ↔ ∀ key ∈ keysWithin v, isClientStateKey key = false
  | .null | .bool _ | .num _ | .str _ => by simp [hasClientStateField, keysWithin]
  | .arr items => by
    rw [hasClientStateField, keysWithin]
    exact anyClientState_iff items
  | .obj fields => by
    rw [hasClientStateField, keysWithin]
    exact anyClientStateField_iff fields
lemma anyClientState_iff : ∀ items : List PlainValue,
    anyClientState items = false ↔ ∀ key ∈ keysWithinItems items, isClientStateKey key = false
  | [] => by simp [anyClientState, keysWithinItems]
  | item :: items => by
    rw [anyClientState, keysWithinItems, Bool.or_eq_false_iff, hasClientStateField_iff item,
      anyClientState_iff items, forall_mem_append]
lemma anyClientStateField_iff : ∀ fields : List (String × PlainValue),
    anyClientStateField fields = false ↔ ∀ key ∈ keysWithinFields fields, isClientStateKey key = false
  | [] => by simp [anyClientStateField, keysWithinFields]
  | (key, nested) :: fields => by
    rw [anyClientStateField, keysWithinFields, Bool.or_eq_false_iff, Bool.or_eq_false_iff,
      hasClientStateField_iff nested, anyClientStateField_iff fields, forall_mem_cons,
      forall_mem_append, and_assoc]
end

variable {fields entries : List (String × PlainValue)} {element : Element} {id : String}
  {elements : List (String × Element)} {α β : Type} {items : List α}

lemma unknownKeys_nil_iff {keys : List String} :
    (fields.map (·.1)).filter (· ∉ keys) = [] ↔ (PlainValue.obj fields).strict keys = true := by
  unfold strict
  simp [filter_eq_nil_iff]

lemma Element.ofPlain_eq (h : Element.ofPlain v = some element) :
    ∃ fields, v = .obj fields ∧ fields.lookup "props" = some element.props := by
  unfold Element.ofPlain at h
  simp only [Option.bind_eq_bind, bind_eq_some_iff] at h
  obtain ⟨type, htype, props, hprops, children, hchildren, h⟩ := h
  cases h
  obtain ⟨found, hfound, hread⟩ := bind_eq_some_iff.mp hprops
  cases v with
  | obj fields =>
    refine ⟨fields, rfl, ?_⟩
    cases found with
    | obj inner =>
      cases hread
      exact hfound
    | _ => cases hread
  | _ => cases hfound

lemma rawElementIssues_nil_iff (h : Element.ofPlain v = some element) :
    rawElementIssues id v = [] ↔ v.strict elementFields = true ∧
      ∀ key ∈ keysWithin element.props, isClientStateKey key = false := by
  obtain ⟨fields, rfl, hprops⟩ := Element.ofPlain_eq h
  rw [← hasClientStateField_iff, ← unknownKeys_nil_iff]
  unfold rawElementIssues
  rw [append_eq_nil_iff, map_eq_nil_iff, hprops, Option.any_some]
  refine and_congr_right fun _ => ?_
  cases hasClientStateField element.props with
  | false => exact iff_of_true rfl rfl
  | true => exact iff_of_false nofun nofun

lemma rawElements_nil_iff (h : readElements entries = some elements) :
    (entries.flatMap fun entry => rawElementIssues entry.1 entry.2) = [] ↔
      (∀ entry ∈ entries, entry.2.strict elementFields = true) ∧
        ∀ entry ∈ elements, ∀ key ∈ keysWithin entry.2.props, isClientStateKey key = false := by
  unfold readElements at h
  induction entries generalizing elements with
  | nil =>
    cases h
    simp
  | cons entry entries ih =>
    rw [mapM_cons] at h
    obtain ⟨first, hfirst, h⟩ := bind_eq_some_iff.mp h
    obtain ⟨rest, hrest, h⟩ := bind_eq_some_iff.mp h
    cases h
    obtain ⟨element, helement, rfl⟩ := map_eq_some_iff.mp hfirst
    rw [flatMap_cons, append_eq_nil_iff, rawElementIssues_nil_iff helement, ih hrest,
      forall_mem_cons, forall_mem_cons]
    tauto

lemma asStr_eq {v : PlainValue} {text : String} (h : v.asStr = some text) : v = .str text := by
  cases v with
  | str found =>
    cases h
    rfl
  | _ => cases h

lemma asObj_eq {v : PlainValue} (h : v.asObj = some fields) : v = .obj fields := by
  cases v with
  | obj found =>
    cases h
    rfl
  | _ => cases h

lemma Spec.ofPlain_iff : Spec.ofPlain v = some spec ↔ v.get? "root" = some (.str spec.root) ∧
    ∃ entries, v.get? "elements" = some (.obj entries) ∧ readElements entries = some spec.elements := by
  constructor
  · intro h
    unfold Spec.ofPlain at h
    obtain ⟨root, hroot, h⟩ := bind_eq_some_iff.mp h
    obtain ⟨elements, helements, h⟩ := bind_eq_some_iff.mp h
    cases h
    obtain ⟨foundRoot, hgetRoot, hstr⟩ := bind_eq_some_iff.mp hroot
    obtain ⟨entries, hentries, hread⟩ := bind_eq_some_iff.mp helements
    obtain ⟨found, hget, hobj⟩ := bind_eq_some_iff.mp hentries
    rw [asStr_eq hstr] at hgetRoot
    rw [asObj_eq hobj] at hget
    exact ⟨hgetRoot, entries, hget, hread⟩
  · rintro ⟨hroot, entries, hentries, hread⟩
    unfold Spec.ofPlain field
    rw [hroot, hentries]
    simp [hread]

lemma rawIssues_nil_iff (h : Spec.ofPlain v = some spec) : rawIssues v = [] ↔ ExactFields v ∧
    ∀ entry ∈ spec.elements, ∀ key ∈ keysWithin entry.2.props, isClientStateKey key = false := by
  obtain ⟨-, entries, hget, hread⟩ := Spec.ofPlain_iff.mp h
  cases v with
  | obj fields => ?_
  | _ => cases hget
  have hentries : fields.lookup "elements" = some (.obj entries) := hget
  unfold rawIssues ExactFields
  rw [append_eq_nil_iff, map_eq_nil_iff, unknownKeys_nil_iff, hentries, rawElements_nil_iff hread]
  rw [hget]
  constructor
  · rintro ⟨hspec, helements, hstate⟩
    refine ⟨⟨hspec, fun other hother => ?_⟩, hstate⟩
    cases hother
    exact helements
  · rintro ⟨⟨hspec, helements⟩, hstate⟩
    exact ⟨hspec, helements entries rfl, hstate⟩

def Props.type : Props → ElementType
  | .stack => .stack
  | .markdown _ => .markdown
  | .code .. => .code
  | .table .. => .table
  | .image .. => .image
  | .file .. => .file
  | .buttons => .buttons
  | .postback .. | .link .. => .button
  | .card .. => .card
  | .carousel => .carousel
  | .poll .. => .poll
  | .status .. => .status
  | .divider => .divider
  | .context _ => .context

variable {props : Props} {type : ElementType}

lemma readEmpty_some {component : Props} (h : readEmpty v component = some props) : props = component := by
  unfold readEmpty at h
  obtain ⟨-, -, h⟩ := bind_eq_some_iff.mp h
  exact (Option.some.inj h).symm

lemma Props.ofPlain_type (h : Props.ofPlain isUrl type v = some props) : props.type = type := by
  cases type with
  | stack | buttons | carousel | divider =>
    rw [readEmpty_some h]
    rfl
  | button =>
    unfold Props.ofPlain readPostback readLink at h
    simp only [Option.or_eq_some_iff, bind_eq_bind, bind_eq_some_iff, Option.pure_def,
      Option.some.injEq] at h
    grind [Props.type]
  | _ =>
    unfold Props.ofPlain at h
    simp only [bind_eq_bind, bind_eq_some_iff, Option.pure_def, Option.some.injEq] at h
    grind [Props.type]

lemma mapM_length {f : α → Option β} {values : List β} (h : items.mapM f = some values) :
    values.length = items.length := by
  induction items generalizing values with
  | nil =>
    cases h
    rfl
  | cons item items ih =>
    rw [mapM_cons] at h
    obtain ⟨first, -, h⟩ := bind_eq_some_iff.mp h
    obtain ⟨rest, hrest, h⟩ := bind_eq_some_iff.mp h
    cases h
    rw [length_cons, length_cons, ih hrest]

lemma asList_length {read : PlainValue → Option α} {values : List α} (h : asList read v = some values) :
    ∃ items, v = .arr items ∧ items.mapM read = some values ∧
      values.length = items.length := by
  obtain ⟨items, hitems, hread⟩ := bind_eq_some_iff.mp h
  cases v with
  | arr found =>
    cases hitems
    exact ⟨items, rfl, hread, mapM_length hread⟩
  | _ => cases hitems

theorem raggedRow_none_iff (width index : ℕ) {items : List PlainValue} {rows : List (List String)}
    (h : items.mapM (asList asStr) = some rows) :
    (∃ found, raggedRow (some (.num width)) index items = some found ∧
      (found = none ↔ ∀ row ∈ rows, row.length = width)) := by
  induction items generalizing rows index with
  | nil =>
    cases h
    exact ⟨none, rfl, by simp⟩
  | cons item items ih =>
    rw [mapM_cons] at h
    obtain ⟨first, hfirst, h⟩ := bind_eq_some_iff.mp h
    obtain ⟨rest, hrest, h⟩ := bind_eq_some_iff.mp h
    cases h
    obtain ⟨inner, rfl, -, hlength⟩ := asList_length hfirst
    have hsame : identical (some (.num inner.length)) (some (.num width)) = true ↔ first.length = width := by
      rw [hlength]
      simp [identical]
    unfold raggedRow
    dsimp only [lengthOf]
    rw [forall_mem_cons]
    by_cases hwidth : first.length = width
    · rw [if_pos (hsame.mpr hwidth)]
      obtain ⟨found, hfound, hiff⟩ := ih (index + 1) hrest
      exact ⟨found, hfound, hiff.trans (by simp [hwidth])⟩
    · rw [if_neg (mt hsame.mp hwidth)]
      exact ⟨some index, rfl, by simp [hwidth]⟩

lemma tableIssue_nil_iff (h : Props.ofPlain isUrl element.type element.props = some props) :
    tableIssue id element = some [] ↔ props.square := by
  have htype := Props.ofPlain_type h
  unfold tableIssue
  by_cases htable : element.type = .table
  · rw [if_neg (not_not.mpr htable)]
    rw [htable] at h
    unfold Props.ofPlain at h
    simp only [Option.bind_eq_bind, bind_eq_some_iff] at h
    obtain ⟨-, -, columns, hcolumns, rows, hrows, h⟩ := h
    cases h
    obtain ⟨foundColumns, hgetColumns, hreadColumns⟩ := bind_eq_some_iff.mp hcolumns
    obtain ⟨foundRows, hgetRows, hreadRows⟩ := bind_eq_some_iff.mp hrows
    obtain ⟨columnItems, rfl, -, hwidth⟩ := asList_length hreadColumns
    obtain ⟨rowItems, rfl, hitems, -⟩ := asList_length hreadRows
    obtain ⟨found, hfound, hiff⟩ := raggedRow_none_iff columns.length 0 hitems
    rw [hgetColumns, hgetRows]
    dsimp only [lengthOf, Props.square]
    rw [← hwidth, hfound, ← hiff]
    cases found with
    | none => exact iff_of_true rfl rfl
    | some ragged => exact iff_of_false nofun nofun
  · rw [if_pos htable]
    refine iff_of_true rfl ?_
    cases props with
    | table => exact absurd htype.symm htable
    | _ => trivial

lemma childCountIssue_none_iff {count : ℕ} : childCountIssue type count = none ↔ type.holds count = true := by
  cases type with
  | buttons =>
    unfold childCountIssue ElementType.holds
    by_cases hzero : count = 0
    · simp [hzero]
    · by_cases hmany : count > 5
      · simp [hzero, hmany]
      · simp [hzero, hmany]
        omega
  | stack =>
    simp [childCountIssue, ElementType.holds]
    omega
  | carousel =>
    unfold childCountIssue ElementType.holds
    rw [Bool.and_eq_true, decide_eq_true_eq, decide_eq_true_eq]
    by_cases hout : count < 2 ∨ count > 10
    · rw [if_pos hout]
      exact iff_of_false (by rintro ⟨⟩) (by omega)
    · rw [if_neg hout]
      exact iff_of_true rfl (by omega)
  | _ => simp [childCountIssue, ElementType.holds]

lemma nestingIssue_none_iff {parent : ElementType} {child : Option ElementType} :
    nestingIssue parent child = none ↔ ∀ type, child = some type → parent.nests type := by
  cases child with
  | none => simp [nestingIssue]
  | some type =>
    unfold nestingIssue ElementType.nests
    by_cases hbuttons : parent = .buttons
    · subst hbuttons
      simp
    · by_cases hcarousel : parent = .carousel
      · subst hcarousel
        cases type <;> simp
      · simp [hbuttons, hcarousel]

theorem elementIssues_nil_iff : elementIssues isUrl spec id element = some [] ↔
      (∃ props, Props.ofPlain isUrl element.type element.props = some props ∧ props.square) ∧
      (∀ child ∈ element.children, child ∈ spec.ids ∧
        ∀ type, spec.typeOf child = some type → element.type.nests type) ∧
      element.type.holds element.children.length = true := by
  have hchildren : (element.children.zipIdx.flatMap fun child =>
      childIssues spec id element.type child.1 child.2) = [] ↔ ∀ child ∈ element.children,
        child ∈ spec.ids ∧ ∀ type, spec.typeOf child = some type → element.type.nests type := by
    rw [flatMap_eq_nil_iff]
    have hone : ∀ child index, childIssues spec id element.type child index = [] ↔
        child ∈ spec.ids ∧ ∀ type, spec.typeOf child = some type → element.type.nests type := by
      intro child index
      rw [← nestingIssue_none_iff]
      unfold childIssues
      rw [append_eq_nil_iff, Option.toList_eq_nil_iff, Option.map_eq_none_iff]
      refine and_congr_left fun _ => ?_
      by_cases hin : child ∈ spec.ids
      · simp [hin]
      · simp [hin]
    constructor
    · intro hall child hchild
      obtain ⟨index, hindex⟩ := getElem?_of_mem hchild
      exact (hone child index).mp (hall (child, index) (mk_mem_zipIdx_iff_getElem?.mpr hindex))
    · intro hall child hchild
      exact (hone child.1 child.2).mpr (hall child.1 (fst_mem_of_mem_zipIdx hchild))
  have hcount : childCountIssue element.type element.children.length = none ↔
      element.type.holds element.children.length = true := childCountIssue_none_iff
  unfold elementIssues
  rw [map_eq_some_iff]
  constructor
  · rintro ⟨issues, htable, hissues⟩
    simp only [append_eq_nil_iff, Option.toList_eq_nil_iff, Option.map_eq_none_iff] at hissues
    obtain ⟨⟨⟨rfl, hprops⟩, hchild⟩, hcounts⟩ := hissues
    cases hread : Props.ofPlain isUrl element.type element.props with
    | none =>
      rw [hread] at hprops
      cases hprops
    | some props =>
      exact ⟨⟨props, rfl, (tableIssue_nil_iff hread).mp htable⟩, hchildren.mp hchild, hcount.mp hcounts⟩
  · rintro ⟨⟨props, hread, hsquare⟩, hchild, hcounts⟩
    refine ⟨[], (tableIssue_nil_iff hread).mpr hsquare, ?_⟩
    rw [hread, hchildren.mpr hchild, hcount.mpr hcounts]
    rfl

lemma distinct_get? {key : String} {found : PlainValue} (h : distinctKeys v = true)
    (hfound : v.get? key = some found) : distinctKeys found = true := by
  cases v with
  | obj fields =>
    rw [distinctKeys, Bool.and_eq_true] at h
    have hfields := h.2
    have hlookup : fields.lookup key = some found := hfound
    clear h hfound
    induction fields with
    | nil => cases hlookup
    | cons entry fields ih =>
      obtain ⟨name, nested⟩ := entry
      rw [distinctFields, Bool.and_eq_true] at hfields
      rw [lookup_cons] at hlookup
      split at hlookup
      · cases hlookup
        exact hfields.1
      · exact ih hfields.2 hlookup
  | _ => cases hfound

lemma readElements_ids (h : readElements entries = some elements) : elements.map (·.1) = entries.map (·.1) := by
  unfold readElements at h
  induction entries generalizing elements with
  | nil =>
    cases h
    rfl
  | cons entry entries ih =>
    rw [mapM_cons] at h
    obtain ⟨first, hfirst, h⟩ := bind_eq_some_iff.mp h
    obtain ⟨rest, hrest, h⟩ := bind_eq_some_iff.mp h
    cases h
    obtain ⟨element, -, rfl⟩ := map_eq_some_iff.mp hfirst
    rw [map_cons, map_cons, ih hrest]

theorem ids_nodup (input : JsonValue) (h : Spec.ofPlain input.value = some spec) : spec.ids.Nodup := by
  obtain ⟨-, entries, hentries, hread⟩ := Spec.ofPlain_iff.mp h
  have hinner := distinct_get? input.distinct hentries
  rw [distinctKeys, Bool.and_eq_true, decide_eq_true_eq] at hinner
  rw [Spec.ids, readElements_ids hread]
  exact hinner.1

lemma mapM_nil_iff {f : α → Option (List β)} :
    (∃ issues, items.mapM f = some issues ∧ issues.flatten = []) ↔ ∀ item ∈ items, f item = some [] := by
  induction items with
  | nil => exact iff_of_true ⟨[], rfl, rfl⟩ nofun
  | cons item items ih =>
    rw [forall_mem_cons, ← ih]
    constructor
    · rintro ⟨issues, h, hflat⟩
      rw [mapM_cons] at h
      obtain ⟨first, hfirst, h⟩ := bind_eq_some_iff.mp h
      obtain ⟨rest, hrest, h⟩ := bind_eq_some_iff.mp h
      cases h
      obtain ⟨rfl, hnil⟩ := append_eq_nil_iff.mp (flatten_cons ▸ hflat)
      exact ⟨hfirst, rest, hrest, hnil⟩
    · rintro ⟨hfirst, rest, hrest, hnil⟩
      refine ⟨[] :: rest, ?_, hnil⟩
      rw [mapM_cons, hfirst, hrest]
      rfl

lemma checkSpec_accepted_iff {spec' : Spec} : checkSpec isUrl spec = .accepted spec' ↔ spec' = spec ∧
    treeIssues spec = [] ∧ ∀ entry ∈ spec.elements, elementIssues isUrl spec entry.1 entry.2 = some [] := by
  rw [← mapM_nil_iff]
  unfold checkSpec
  cases hissues : spec.elements.mapM fun entry => elementIssues isUrl spec entry.1 entry.2 with
  | none => exact iff_of_false nofun fun ⟨_, _, _, hnone, _⟩ => nomatch hnone
  | some issues =>
    dsimp only
    by_cases hnil : treeIssues spec ++ issues.flatten = []
    · rw [if_pos hnil, Parsed.accepted.injEq]
      obtain ⟨htree, hflat⟩ := append_eq_nil_iff.mp hnil
      exact ⟨fun heq => ⟨heq.symm, htree, issues, rfl, hflat⟩, fun h => h.1.symm⟩
    · rw [if_neg hnil]
      refine iff_of_false nofun ?_
      rintro ⟨-, htree, found, hfound, hflat⟩
      cases hfound
      exact hnil (append_eq_nil_iff.mpr ⟨htree, hflat⟩)

section
variable {zodSchema : PlainValue → Option Spec}

lemma parseSpec_accepted_iff (h : Documented isUrl zodSchema) :
    parseSpec zodSchema isUrl v = .accepted spec ↔ Spec.ofPlain v = some spec ∧ rawIssues v = [] ∧
      treeIssues spec = [] ∧ ∀ entry ∈ spec.elements, elementIssues isUrl spec entry.1 entry.2 = some [] := by
  unfold parseSpec
  by_cases hraw : rawIssues v = []
  · rw [if_neg (not_not.mpr hraw)]
    cases hread : zodSchema v with
    | none =>
      refine iff_of_false nofun ?_
      rintro ⟨hshape, -, -, helements⟩
      have htaken := h.takes v spec hshape fun entry hentry => by
        obtain ⟨⟨props, hprops, -⟩, -⟩ := elementIssues_nil_iff.mp (helements entry hentry)
        rw [hprops]
        rfl
      rw [hread] at htaken
      cases htaken
    | some found =>
      dsimp only
      rw [checkSpec_accepted_iff]
      have hshape := h.reads v found hread
      constructor
      · rintro ⟨rfl, htree, helements⟩
        exact ⟨hshape, hraw, htree, helements⟩
      · rintro ⟨hsame, -, htree, helements⟩
        rw [hshape] at hsame
        cases hsame
        exact ⟨rfl, htree, helements⟩
  · rw [if_pos hraw]
    exact iff_of_false nofun fun hall => hraw hall.2.1

lemma lookup_some_of_id {id : String} (h : id ∈ spec.ids) :
    ∃ element, spec.elements.lookup id = some element := by
  cases hfound : spec.elements.lookup id with
  | some element => exact ⟨element, rfl⟩
  | none =>
    obtain ⟨entry, hentry, rfl⟩ := mem_map.mp h
    have hnot := lookup_eq_none_iff.mp hfound entry hentry
    simp at hnot

theorem children_closed (helements : ∀ entry ∈ spec.elements,
    elementIssues isUrl spec entry.1 entry.2 = some []) :
    ∀ id ∈ spec.ids, ∀ child ∈ spec.children id, child ∈ spec.ids := by
  intro id hid child hchild
  obtain ⟨element, hfound⟩ := lookup_some_of_id hid
  rw [Spec.children_eq, hfound] at hchild
  obtain ⟨-, hchildren, -⟩ := elementIssues_nil_iff.mp (helements (id, element) (mem_of_lookup hfound))
  exact (hchildren child hchild).1

theorem elements_nil_of_root (hroot : spec.root ∉ spec.ids) {order : List String}
    (h : Preorder (fun id => (spec.children id).reverse) [spec.root] order) (hall : spec.ids ⊆ order) :
    spec.elements = [] := by
  have hnone : spec.elements.lookup spec.root = none := by
    rw [lookup_eq_none_iff]
    intro entry hentry
    rw [bne_iff_ne]
    exact fun heq => hroot (heq ▸ mem_map_of_mem hentry)
  have hchildren : (spec.children spec.root).reverse = [] := by
    rw [Spec.children_eq, hnone]
    rfl
  have honly : Preorder (fun id => (spec.children id).reverse) [spec.root] [spec.root] :=
    preorder_cons_iff.mpr ⟨[], rfl, by rw [hchildren]; exact .nil⟩
  rw [h.unique honly] at hall
  have hids : spec.ids = [] := by
    rw [eq_nil_iff_forall_not_mem]
    intro id hid
    obtain rfl := mem_singleton.mp (hall hid)
    exact hroot hid
  exact map_eq_nil_iff.mp hids

theorem accepted_iff (h : Documented isUrl zodSchema) (input : JsonValue) :
    parseSpec zodSchema isUrl input.value = .accepted spec ↔ IsSpec isUrl input.value spec ∨
      (Spec.ofPlain input.value = some spec ∧ InheritedRoot input.value) := by
  rw [parseSpec_accepted_iff h, treeIssues_nil_iff]
  constructor
  · rintro ⟨hshape, hraw, ⟨hfound, hbutton, hwalk⟩, helements⟩
    have hids := ids_nodup input hshape
    obtain ⟨hfields, hstateless⟩ := (rawIssues_nil_iff hshape).mp hraw
    by_cases hroot : spec.root ∈ spec.ids
    · left
      have hchecked := fun entry hentry => elementIssues_nil_iff.mp (helements entry hentry)
      exact {
        shape := hshape
        fields := hfields
        tree := (rooted_walk_iff hids hroot (children_closed helements)).mp hwalk
        root := hbutton
        holds := fun entry hentry => (hchecked entry hentry).2.2
        nests := fun entry hentry child hchild => ((hchecked entry hentry).2.1 child hchild).2
        props := fun entry hentry => (hchecked entry hentry).1
        stateless := hstateless }
    · right
      obtain ⟨order, hpre, -, hall⟩ := hwalk
      have hnil := elements_nil_of_root hroot hpre hall
      refine ⟨hshape, hfields.1, ?_, spec.root, ?_, ?_⟩
      · obtain ⟨-, entries, hentries, hread⟩ := Spec.ofPlain_iff.mp hshape
        have hkeys := readElements_ids hread
        rw [hnil, map_nil] at hkeys
        rw [map_eq_nil_iff.mp hkeys.symm] at hentries
        exact hentries
      · unfold Spec.find at hfound
        rw [hnil, lookup_nil] at hfound
        dsimp only at hfound
        by_contra hname
        exact hfound (if_neg hname)
      · exact (Spec.ofPlain_iff.mp hshape).1
  · rintro (hspec | ⟨hshape, hfields, hempty, name, hname, hroot⟩)
    · have hids := ids_nodup input hspec.shape
      obtain ⟨rootElement, hrootElement⟩ := lookup_some_of_id hspec.tree.root_mem
      refine ⟨hspec.shape, (rawIssues_nil_iff hspec.shape).mpr ⟨hspec.fields, hspec.stateless⟩,
        ⟨?_, hspec.root, (rooted_walk_iff hids hspec.tree.root_mem hspec.tree.closed).mpr hspec.tree⟩,
        fun entry hentry => elementIssues_nil_iff.mpr
          ⟨hspec.props entry hentry, fun child hchild => ⟨?_, hspec.nests entry hentry child hchild⟩,
            hspec.holds entry hentry⟩⟩
      · unfold Spec.find
        rw [hrootElement]
        rintro ⟨⟩
      · refine hspec.tree.closed entry.1 (mem_map_of_mem hentry) child ?_
        rw [Spec.children_eq, lookup_mem hids hentry]
        exact hchild
    · obtain ⟨hgetRoot, entries, hentries, hread⟩ := Spec.ofPlain_iff.mp hshape
      rw [hempty] at hentries
      cases hentries
      rw [hroot] at hgetRoot
      cases hgetRoot
      have hnil : spec.elements = [] := (Option.some.inj hread).symm
      have hfind : spec.find spec.root = .inherited := by
        unfold Spec.find
        rw [hnil, lookup_nil]
        exact if_pos hname
      have hraw : ExactFields input.value := by
        refine ⟨hfields, fun other hother => ?_⟩
        rw [hempty] at hother
        cases hother
        rintro _ ⟨⟩
      have htype : spec.typeOf spec.root = none := by
        unfold Spec.typeOf
        rw [hfind]
      have hchildren : spec.children spec.root = [] := by
        unfold Spec.children
        rw [hfind]
      rw [rawIssues_nil_iff hshape, hnil, hfind, htype, Spec.ids, hnil]
      refine ⟨hshape, ⟨hraw, by rintro _ ⟨⟩⟩, ⟨by rintro ⟨⟩, by rintro ⟨⟩, [spec.root], ?_, nodup_singleton _, by rintro _ ⟨⟩⟩,
        by rintro _ ⟨⟩⟩
      exact preorder_cons_iff.mpr ⟨[], rfl, by rw [hchildren]; exact .nil⟩

end

end Gateway

end OpenOmni
