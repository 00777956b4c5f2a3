import OpenOmni.Store.Reads

/-! The rows a fork copies from a session into its child, and what of a row the copy keeps. -/
namespace OpenOmni
open List

open PlainValue

/-- Only `turn{terminal}`, `prompt` and `compaction` rows anchor a fork. -/
def isForkBoundary (action : Append) : Bool :=
  action.kind = .prompt || action.kind = .compaction ||
    (action.kind = .turn && action.effect.get? "phase" = some (.str "terminal"))

def isInputKind (kind : Kind) : Bool := kind = .prompt || kind = .signal || kind = .action

/-- Input rows carry the deliver door's idempotency key as their id. -/
def isInputRow (action : Append) : Bool :=
  isInputKind action.kind && ((action.effect.get? "deliveryKind").bind asStr).isSome

def isDeliveryRow (action : Append) : Bool :=
  isInputKind action.kind && action.effect.get? "phase" = some (.str "delivery")

def isArmRow (action : Append) : Bool :=
  action.kind = .alarm && action.intent.get? "op" = some (.str "arm")

def isForkExcluded (action : Append) : Bool := action.kind = .foldCheckpoint || isArmRow action

def isForkRenamed (action : Append) : Bool := isInputRow action || isDeliveryRow action

/-- `next[field] = text` of a field the object has. -/
def replaceField (v : PlainValue) (field text : String) : PlainValue :=
  match v with
  | .obj fields => .obj (fields.map fun f => if f.1 = field then (f.1, .str text) else f)
  | v => v

def remapField (renames : List (String × String)) (payload next : PlainValue) (field : String) :
    PlainValue :=
  match payload.get? field with
  | some (.str reference) => match renames.lookup reference with
    | some renamed => replaceField next field renamed
    | none => next
  | _ => next

/-- `remapPayload`: the renamed-row references inside one payload. -/
def remapPayload (renames : List (String × String)) (payload : PlainValue) : PlainValue :=
  remapField renames payload (remapField renames payload payload "deliveryId") "turnId"

def copyAction (node : Node) (childId : String) (ids renames : List (String × String)) : Append where
  id := (ids.lookup node.id).getD node.id
  parentId := node.parentId.bind (List.lookup · ids)
  sessionId := childId
  kind := node.kind
  intent := remapPayload renames node.intent
  effect := remapPayload renames node.effect
  revert := node.revert
  ts := node.ts

/-- `readParentPrefix`: the rows up to the anchor, and the anchor. -/
def readParentPrefix (anchorId : String) : List Node → Option (Node × List Node)
  | [] => none
  | node :: nodes =>
    if node.id = anchorId then some (node, [node])
    else (readParentPrefix anchorId nodes).map fun found => (found.1, node :: found.2)

/-- `renames` of `planFork`. -/
def forkRenames (source : String) (eligible : List Node) : List (String × String) :=
  (eligible.filter (isForkRenamed ·.toAppend)).map fun node => (node.id, "fork:" ++ source ++ ":" ++ node.id)

/-- `ids` of `planFork`. -/
def forkIds (renames : List (String × String)) (eligible : List Node) : List (String × String) :=
  eligible.map fun node => (node.id, (renames.lookup node.id).getD node.id)

/-- The copies of the rows `planFork` found eligible. -/
def copyActions (source childId : String) (eligible : List Node) : List Append :=
  let renames := forkRenames source eligible
  let ids := forkIds renames eligible
  eligible.map (copyAction · childId ids renames)

/-- `planFork`'s copies; `none` when the anchor is missing or no boundary. -/
def planCopies (source childId anchorId : String) (rows : List Node) : Option (List Append) :=
  match readParentPrefix anchorId rows with
  | none => none
  | some (anchor, nodes) =>
    if !isForkBoundary anchor.toAppend then none
    else some (copyActions source childId (nodes.filter fun node => !isForkExcluded node.toAppend))

def forkedRow (childId : String) (parent : Row) (pointers : GenerationPointers) : Row where
  toGenerationPointers := pointers
  id := childId
  parentId := some parent.id
  role := parent.role
  fenceOwner := none
  fence := 0
  revision := 0
  state := .idle

variable {field key source : String} {nodes rest : List Node} {f : Node → String} {node : Node} {db : Db}

@[simp] theorem replaceField_get? (v : PlainValue) (text : String) (h : key ≠ field) :
    (replaceField v field text).get? key = v.get? key := by
  cases v with
  | obj fields =>
    simp only [replaceField, get?_obj]
    induction fields with
    | nil => rfl
    | cons f fields ih =>
      obtain ⟨k, w⟩ := f
      by_cases hk : k = field
      · have hbeq : (key == k) = false := by simpa [hk] using h
        simp only [map_cons, hk, if_true, lookup_cons]
        rw [hk] at hbeq
        simpa [hbeq] using ih
      · simp only [map_cons, hk, if_false, lookup_cons]
        split
        · rfl
        · exact ih
  | _ => rfl

lemma remapField_get? (renames : List (String × String)) (payload next : PlainValue) (h : key ≠ field) :
    (remapField renames payload next field).get? key = next.get? key := by
  unfold remapField
  split
  · split
    · exact replaceField_get? _ _ h
    · rfl
  · rfl

theorem remapPayload_get? (renames : List (String × String)) (payload : PlainValue) (hdelivery : key ≠ "deliveryId")
    (hturn : key ≠ "turnId") : (remapPayload renames payload).get? key = payload.get? key := by
  rw [remapPayload, remapField_get? _ _ _ hturn, remapField_get? _ _ _ hdelivery]

theorem remapPayload_of_absent (renames : List (String × String)) {payload : PlainValue}
    (hdelivery : payload.get? "deliveryId" = none) (hturn : payload.get? "turnId" = none) :
    remapPayload renames payload = payload := by
  simp [remapPayload, remapField, hdelivery, hturn]

lemma readParentPrefix_some {anchorId : String} {rows : List Node} {anchor : Node}
    (h : readParentPrefix anchorId rows = some (anchor, nodes)) : ∃ rest, rows = nodes ++ rest := by
  induction rows generalizing nodes with
  | nil => simp [readParentPrefix] at h
  | cons node rows ih =>
    unfold readParentPrefix at h
    split at h
    · simp only [Option.some.injEq, Prod.mk.injEq] at h
      obtain ⟨-, rfl⟩ := h
      exact ⟨rows, rfl⟩
    · simp only [Option.map_eq_some_iff, Prod.mk.injEq] at h
      obtain ⟨⟨found, before⟩, hfound, rfl, rfl⟩ := h
      obtain ⟨rest, hrest⟩ := ih hfound
      exact ⟨rest, by rw [hrest, cons_append]⟩

lemma lookup_map_of_nodup (hids : (nodes.map (·.id)).Nodup) (hmem : node ∈ nodes) :
    (nodes.map fun node => (node.id, f node)).lookup node.id = some (f node) := by
  induction nodes with
  | nil => simp at hmem
  | cons first nodes ih =>
    obtain ⟨hfirst, hrest⟩ := nodup_cons.mp hids
    rcases mem_cons.mp hmem with rfl | hmem
    · simp
    · have hne : node.id ≠ first.id := by
        intro heq
        exact hfirst (mem_map.mpr ⟨node, hmem, heq⟩)
      have hbeq : (node.id == first.id) = false := by simpa using hne
      simpa [lookup_cons, hbeq] using ih hrest hmem

lemma lookup_map_of_not_mem {id : String} (h : ∀ node ∈ nodes, node.id ≠ id) :
    (nodes.map fun node => (node.id, f node)).lookup id = none := by
  induction nodes with
  | nil => rfl
  | cons first nodes ih =>
    have hbeq : (id == first.id) = false := by
      simpa using (h first mem_cons_self).symm
    simpa [lookup_cons, hbeq] using ih fun node hnode => h node (mem_cons_of_mem _ hnode)

section
variable {source childId anchorId : String} {nodes eligible : List Node} {node : Node}

theorem forkIds_kept (source : String) (hids : (eligible.map (·.id)).Nodup) (hmem : node ∈ eligible)
    (hkept : isForkRenamed node.toAppend = false) :
    (forkIds (forkRenames source eligible) eligible).lookup node.id = some node.id := by
  have hrenames : (forkRenames source eligible).lookup node.id = none := by
    refine lookup_map_of_not_mem fun other hother hid => ?_
    obtain ⟨hother, hrenamed⟩ := mem_filter.mp hother
    obtain rfl := inj_on_of_nodup_map hids hother hmem hid
    simp [hkept] at hrenamed
  rw [forkIds, lookup_map_of_nodup hids hmem, hrenames]
  rfl

lemma planCopies_some {rows : List Node} {copies : List Append}
    (h : planCopies source childId anchorId rows = some copies) :
    ∃ nodes rest, rows = nodes ++ rest ∧ copies = copyActions source childId
      (nodes.filter fun node => !isForkExcluded node.toAppend) := by
  unfold planCopies at h
  split at h
  · contradiction
  · rename_i anchor nodes hread
    split at h
    · contradiction
    · simp only [Option.some.injEq] at h
      obtain ⟨rest, hrest⟩ := readParentPrefix_some hread
      exact ⟨nodes, rest, hrest, h.symm⟩

structure CopyOf (childId : String) (node : Node) (copy : Append) : Prop where
  id : copy.id = node.id
  sessionId : copy.sessionId = childId
  kind : copy.kind = node.kind
  intent : ∀ key, key ≠ "deliveryId" → key ≠ "turnId" →
    copy.intent.get? key = node.intent.get? key
  ts : copy.ts = node.ts

theorem exists_copyOf (source childId : String) (hids : (eligible.map (·.id)).Nodup)
    (hmem : node ∈ eligible) (hkept : isForkRenamed node.toAppend = false) :
    ∃ copy ∈ copyActions source childId eligible, CopyOf childId node copy := by
  refine ⟨_, mem_map_of_mem hmem, ?_, rfl, rfl, ?_, rfl⟩
  · simp [copyAction, forkIds_kept source hids hmem hkept]
  · intro key hdelivery hturn
    exact remapPayload_get? _ _ hdelivery hturn

end

theorem ChainInv.mem_before (h : ChainInv db) (hrows : db.rows source = nodes ++ rest) {other : Node}
    (hnode : node ∈ nodes) (hother : other ∈ db.rows source) (hlt : other.ordinal < node.ordinal) : other ∈ nodes := by
  have hsorted : (db.rows source).Pairwise fun a b => a.ordinal < b.ordinal := by
    obtain ⟨hin, hsession⟩ : other ∈ db.actions ∧ other.sessionId = source := by
      simpa [Db.rows] using hother
    obtain ⟨s, hs, hid⟩ := h.owned other hin
    have hordinals := h.ordinals s hs
    rw [hid, hsession] at hordinals
    have hlt : ((db.rows source).map (·.ordinal)).Pairwise (· < ·) := by
      rw [hordinals]
      exact pairwise_lt_range'
    exact pairwise_map.mp hlt
  rw [hrows] at hother hsorted
  rcases mem_append.mp hother with hbefore | hafter
  · exact hbefore
  · have hle := (pairwise_append.mp hsorted).2.2 node hnode other hafter
    omega

lemma ChainInv.eligible_nodup (h : ChainInv db) (hrows : db.rows source = nodes ++ rest) (eligible : Node → Bool) :
    ((nodes.filter eligible).map (·.id)).Nodup := by
  have hnodes : nodes.Sublist (db.rows source) := by
    rw [hrows]
    exact sublist_append_left _ _
  have hsub : (nodes.filter eligible).Sublist db.actions :=
    filter_sublist.trans (hnodes.trans filter_sublist)
  exact (h.actionIds).sublist (hsub.map _)

variable [PlainCoding] {cap : ℕ}

theorem write_fork_rows {input : Materialize} {copies : List Append}
    (h : refused (write cap (.fork input copies) {}).1 = false) :
    (write cap (.fork input copies) {}).2.actions.map (·.toAppend) = input.initialAction :: copies := by
  unfold write transaction at h ⊢
  cases hrun : runWrite cap (.fork input copies) {} with
  | error refusal => simp [hrun, refused] at h
  | ok result =>
    obtain ⟨out, next⟩ := result
    obtain ⟨result, -, hfork⟩ := runWrite_fork hrun
    obtain ⟨row, receipt, mid, head, hmat, hcopies, -⟩ := forkSession_ok hfork
    have hwrote := (materializeSession_wrote hmat).trans (forkCopies_wrote hcopies)
    obtain ⟨new, hactions, hnew⟩ := hwrote.actions
    simpa [hactions] using hnew

end OpenOmni
