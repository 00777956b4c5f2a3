import OpenOmni.Lib.Paired
import OpenOmni.Session.Fork

/-! A fork's child beside the rows of its parent up to the anchor. -/
namespace OpenOmni
open List

open PlainValue

/-- `renames.get(id) ?? id`. -/
def renameId (renames : List (String × String)) (id : String) : String := (renames.lookup id).getD id

/-- The rows of a prefix that `planFork` copies. -/
def forkEligible (nodes : List Node) : List Node := nodes.filter fun node => !isForkExcluded node.toAppend

def forkNames (source : String) (nodes : List Node) : List (String × String) := forkRenames source (forkEligible nodes)

structure CopiedFrom (source childId : String) (nodes : List Node) (node copy : Node) : Prop where
  mem : node ∈ forkEligible nodes
  id : copy.id = renameId (forkNames source nodes) node.id
  sessionId : copy.sessionId = childId
  kind : copy.kind = node.kind
  intent : copy.intent = remapPayload (forkNames source nodes) node.intent
  effect : copy.effect = remapPayload (forkNames source nodes) node.effect
  ts : copy.ts = node.ts
  ordinal : 0 < copy.ordinal

/-- The child's rows are a genesis and the copies of the parent's rows. -/
structure ForkChild (source childId : String) (nodes rows : List Node) : Prop where
  split : ∃ genesis copied, rows = genesis :: copied ∧ genesis.kind = .sessionConfigure ∧
    List.Forall₂ (CopiedFrom source childId nodes) (forkEligible nodes) copied
  ids : (rows.map (·.id)).Nodup
  owned : ∀ row ∈ rows, row.sessionId = childId
  sourceIds : (nodes.map (·.id)).Nodup
  sourceOrdinals : ∀ node ∈ nodes, 0 < node.ordinal

def renameRef (renames : List (String × String)) : PlainValue → PlainValue
  | .str reference => .str (renameId renames reference)
  | v => v

lemma replaceField_get?_self (v : PlainValue) (field text : String) :
    (replaceField v field text).get? field = (v.get? field).map fun _ => .str text := by
  cases v with
  | obj fields =>
    simp only [replaceField, get?_obj]
    induction fields with
    | nil => rfl
    | cons f fields ih =>
      obtain ⟨key, w⟩ := f
      by_cases hkey : key = field
      · simp [hkey]
      · have hbeq : (field == key) = false := by simpa using fun heq : field = key => hkey heq.symm
        simp only [map_cons, hkey, if_false, lookup_cons, hbeq]
        exact ih
  | _ => rfl

lemma remapField_get?_self (renames : List (String × String)) {payload next : PlainValue} {field : String}
    (h : next.get? field = payload.get? field) :
    (remapField renames payload next field).get? field = (payload.get? field).map (renameRef renames) := by
  unfold remapField
  split
  · rename_i reference hget
    split
    · rename_i renamed hlookup
      rw [replaceField_get?_self, h, hget]
      simp [renameRef, renameId, hlookup]
    · rename_i hlookup
      rw [h, hget]
      simp [renameRef, renameId, hlookup]
  · rename_i hstr
    rw [h]
    cases hget : payload.get? field with
    | none => rfl
    | some value =>
      cases value with
      | str reference => exact absurd hget (hstr reference)
      | _ => rfl

theorem remapPayload_get?_ref (renames : List (String × String)) (payload : PlainValue) {key : String}
    (h : key = "deliveryId" ∨ key = "turnId") :
    (remapPayload renames payload).get? key = (payload.get? key).map (renameRef renames) := by
  rcases h with rfl | rfl
  · rw [remapPayload, remapField_get? _ _ _ (by decide)]
    exact remapField_get?_self renames rfl
  · rw [remapPayload]
    apply remapField_get?_self
    exact remapField_get? _ _ _ (by decide)

variable {source : String} {nodes : List Node} {db : Db} {input : Materialize} {copies : List Append}

lemma lookup_forkNames {id renamed : String} (h : (forkNames source nodes).lookup id = some renamed) :
    renamed = "fork:" ++ source ++ ":" ++ id ∧ ∃ node ∈ forkEligible nodes, node.id = id ∧
      isForkRenamed node.toAppend = true := by
  have hmem := lookup_eq_some_iff.mp h
  obtain ⟨before, after, hsplit, -⟩ := hmem
  have hin : (id, renamed) ∈ forkNames source nodes := by simp [hsplit]
  obtain ⟨node, hnode, heq⟩ := mem_map.mp hin
  obtain ⟨hmem, hrenamed⟩ := mem_filter.mp hnode
  cases heq
  exact ⟨rfl, node, hmem, rfl, hrenamed⟩

section
variable {source childId : String} {nodes rows : List Node} {node : Node}

lemma renameId_kept (hids : (nodes.map (·.id)).Nodup) (hnode : node ∈ forkEligible nodes)
    (hkept : isForkRenamed node.toAppend = false) : renameId (forkNames source nodes) node.id = node.id := by
  cases hlookup : (forkNames source nodes).lookup node.id with
  | none => simp [renameId, hlookup]
  | some renamed =>
    obtain ⟨-, other, hother, hid, hrenamed⟩ := lookup_forkNames hlookup
    have hsub : ((forkEligible nodes).map (·.id)).Nodup := hids.sublist (filter_sublist.map _)
    obtain rfl := inj_on_of_nodup_map hsub hother hnode hid
    rw [hkept] at hrenamed
    cases hrenamed

lemma copyAction_id (hids : (nodes.map (·.id)).Nodup) (hnode : node ∈ forkEligible nodes) :
    (copyAction node childId (forkIds (forkNames source nodes) (forkEligible nodes)) (forkNames source nodes)).id =
      renameId (forkNames source nodes) node.id := by
  have hsub : ((forkEligible nodes).map (·.id)).Nodup := hids.sublist (filter_sublist.map _)
  have hlookup : (forkIds (forkNames source nodes) (forkEligible nodes)).lookup node.id =
      some (renameId (forkNames source nodes) node.id) := by
    unfold forkIds
    exact lookup_map_of_nodup hsub hnode
  show ((forkIds (forkNames source nodes) (forkEligible nodes)).lookup node.id).getD node.id = _
  rw [hlookup]
  rfl

lemma forall₂_copiedFrom (hids : (nodes.map (·.id)).Nodup) {copied : List Node}
    (hordinals : ∀ copy ∈ copied, 0 < copy.ordinal)
    (h : copied.map (·.toAppend) = copyActions source childId (forkEligible nodes)) :
    List.Forall₂ (CopiedFrom source childId nodes) (forkEligible nodes) copied := by
  have hall : ∀ part : List Node, (∀ node ∈ part, node ∈ forkEligible nodes) → ∀ copied : List Node,
      (∀ copy ∈ copied, 0 < copy.ordinal) → copied.map (·.toAppend) = part.map (copyAction · childId
        (forkIds (forkNames source nodes) (forkEligible nodes)) (forkNames source nodes)) →
      List.Forall₂ (CopiedFrom source childId nodes) part copied := by
    intro part
    induction part with
    | nil =>
      intro _ copied _ heq
      obtain rfl := map_eq_nil_iff.mp heq
      exact List.Forall₂.nil
    | cons node part ih =>
      intro hpart copied hpositive heq
      cases copied with
      | nil => cases heq
      | cons copy copied =>
        rw [map_cons, map_cons, List.cons.injEq] at heq
        obtain ⟨hcopy, hrest⟩ := heq
        refine List.Forall₂.cons ?_ (ih (fun other hother => hpart other (mem_cons_of_mem _ hother)) copied
          (fun other hother => hpositive other (mem_cons_of_mem _ hother)) hrest)
        exact {
          mem := hpart node mem_cons_self
          id := (congrArg (·.id) hcopy).trans (copyAction_id hids (hpart node mem_cons_self))
          sessionId := congrArg (·.sessionId) hcopy
          kind := congrArg (·.kind) hcopy
          intent := congrArg (·.intent) hcopy
          effect := congrArg (·.effect) hcopy
          ts := congrArg (·.ts) hcopy
          ordinal := hpositive copy mem_cons_self }
  exact hall _ (fun _ hnode => hnode) copied hordinals h

end

section
variable {source childId : String} {nodes rows : List Node} {p q : Node → Bool}

section
variable (h : ForkChild source childId nodes rows) (hgenesis : ∀ row, row.kind = .sessionConfigure → p row = false)
  (hexcluded : ∀ node, isForkExcluded node.toAppend = true → q node = false)
  (hsame : ∀ node copy, CopiedFrom source childId nodes node copy → p copy = q node)
include h hgenesis hexcluded hsame

theorem ForkChild.filter : List.Forall₂ (CopiedFrom source childId nodes) (nodes.filter q) (rows.filter p) := by
  obtain ⟨genesis, copied, rfl, hkind, hcopied⟩ := h.split
  have hnodes : nodes.filter q = (forkEligible nodes).filter q := by
    unfold forkEligible
    rw [filter_filter]
    apply filter_congr
    intro node _
    cases hcase : isForkExcluded node.toAppend with
    | true => simp [hexcluded node hcase]
    | false => simp
  rw [filter_cons, hgenesis genesis hkind, if_neg Bool.false_ne_true, hnodes]
  refine rel_filter ?_ hcopied
  intro node copy hcopy
  dsimp only
  rw [hsame node copy hcopy]

lemma ForkChild.any : rows.any p = nodes.any q := by
  have hlength := (h.filter hgenesis hexcluded hsame).length_eq
  have hany : ∀ (part : List Node) (r : Node → Bool), part.any r = decide (0 < (part.filter r).length) := by
    intro part r
    rw [← countP_eq_length_filter, Bool.eq_iff_iff, decide_eq_true_iff, countP_pos_iff, any_eq_true]
  rw [hany, hany, hlength]

end

theorem ForkChild.filterMap {β : Type*} {f : Node → Option β} (h : ForkChild source childId nodes rows)
    (hgenesis : ∀ row, row.kind = .sessionConfigure → f row = none)
    (hexcluded : ∀ node, isForkExcluded node.toAppend = true → f node = none)
    (hsame : ∀ node copy, CopiedFrom source childId nodes node copy → f copy = f node) :
    rows.filterMap f = nodes.filterMap f := by
  obtain ⟨genesis, copied, rfl, hkind, hcopied⟩ := h.split
  have hnodes : nodes.filterMap f = (forkEligible nodes).filterMap f := by
    unfold forkEligible
    rw [filterMap_filter]
    apply filterMap_congr
    intro node _
    cases hcase : isForkExcluded node.toAppend with
    | true => simp [hexcluded node hcase]
    | false => simp
  rw [filterMap_cons, hgenesis genesis hkind, hnodes]
  exact (List.filterMap_of_forall₂ hcopied fun node copy hcopy => (hsame node copy hcopy).symm).symm

variable {node : Node}

section
variable (h : ForkChild source childId nodes rows)
include h

theorem ForkChild.renameId_inj {other : Node}
    (hnode : node ∈ forkEligible nodes) (hother : other ∈ forkEligible nodes)
    (heq : renameId (forkNames source nodes) node.id = renameId (forkNames source nodes) other.id) : node = other := by
  obtain ⟨genesis, copied, rfl, -, hcopied⟩ := h.split
  have hids : copied.map (·.id) = (forkEligible nodes).map fun node => renameId (forkNames source nodes) node.id := by
    rw [← List.forall₂_eq_eq_eq, List.forall₂_map_left_iff, List.forall₂_map_right_iff]
    exact hcopied.flip.imp fun _ _ hcopy => hcopy.id
  have hnodup : (copied.map (·.id)).Nodup := (nodup_cons.mp h.ids).2
  rw [hids] at hnodup
  exact inj_on_of_nodup_map hnodup hnode hother heq

theorem ForkChild.renameId_eq_kept (hnode : node ∈ forkEligible nodes)
    (hkept : isForkRenamed node.toAppend = false) (reference : String) :
    renameId (forkNames source nodes) reference = node.id ↔ reference = node.id := by
  constructor
  · intro heq
    cases hlookup : (forkNames source nodes).lookup reference with
    | none => simpa [renameId, hlookup] using heq
    | some renamed =>
      obtain ⟨-, other, hother, hid, -⟩ := lookup_forkNames hlookup
      rw [← hid] at heq ⊢
      have hsame := h.renameId_inj hother hnode (heq.trans (renameId_kept h.sourceIds hnode hkept).symm)
      rw [hsame]
  · rintro rfl
    exact renameId_kept h.sourceIds hnode hkept

lemma ForkChild.extractIs_kept (hnode : node ∈ forkEligible nodes)
    (hkept : isForkRenamed node.toAppend = false) (v : PlainValue) :
    extractIs (remapPayload (forkNames source nodes) v) "turnId" node.id = extractIs v "turnId" node.id := by
  unfold extractIs
  rw [remapPayload_get?_ref _ _ (Or.inr rfl)]
  cases v.get? "turnId" with
  | none => rfl
  | some value =>
    cases value with
    | str reference => simp [renameRef, h.renameId_eq_kept hnode hkept]
    | _ => rfl

end

end

lemma ChainInv.ordinal_pos (h : ChainInv db) {node : Node} (hnode : node ∈ db.actions) : 0 < node.ordinal := by
  obtain ⟨session, hsession, hid⟩ := h.owned node hnode
  have hmem : node ∈ db.rows session.id := by simp [Db.rows, hnode, hid]
  have hordinal : node.ordinal ∈ (db.rows session.id).map (·.ordinal) := mem_map_of_mem hmem
  rw [h.ordinals session hsession, List.mem_range'_1] at hordinal
  omega

lemma bumpRevision_state (sessionId : String) (revision : ℕ) (row : Row) :
    (bumpRevision sessionId revision row).state = row.state := by
  unfold bumpRevision
  split <;> rfl

variable [PlainCoding] {cap : ℕ}

lemma write_fork_genesis (h : refused (write cap (.fork input copies) {}).1 = false) :
    input.initialAction.sessionId = input.row.id ∧ input.initialAction.kind = .sessionConfigure := by
  unfold write transaction at h
  cases hrun : runWrite cap (.fork input copies) {} with
  | error refusal => simp [hrun, refused] at h
  | ok result =>
    obtain ⟨out, next⟩ := result
    obtain ⟨result, -, hfork⟩ := runWrite_fork hrun
    obtain ⟨row, receipt, mid, head, hmat, -⟩ := forkSession_ok hfork
    rcases materializeSession_ok hmat with ⟨row, hexisting, -⟩ | ⟨-, -, -, -, -, hsession, hkind, -⟩
    · cases hexisting
    · exact ⟨hsession, hkind⟩

lemma forkCopies_states {db' : Db} {receipt head : Receipt} {state : SessionState}
    (h : forkCopies cap db receipt copies = .ok (head, db')) (hdb : ∀ row ∈ db.sessions, row.state = state) :
    ∀ row ∈ db'.sessions, row.state = state := by
  induction copies generalizing db receipt with
  | nil =>
    simp only [forkCopies, Except.ok.injEq, Prod.mk.injEq] at h
    obtain ⟨-, rfl⟩ := h
    exact hdb
  | cons copy copies ih =>
    obtain ⟨appended, next, hfirst, hrest⟩ := forkCopies_cons h
    refine ih hrest fun row hrow => ?_
    rw [(appendAction_ok hfirst).2.2.sessions] at hrow
    obtain ⟨old, hold, rfl⟩ := mem_map.mp hrow
    rw [bumpRevision_state]
    exact hdb old hold

theorem write_fork_states : ∀ row ∈ (write cap (.fork input copies) {}).2.sessions, row.state = input.row.state := by
  intro row hrow
  unfold write transaction at hrow
  cases hrun : runWrite cap (.fork input copies) {} with
  | error refusal =>
    rw [hrun] at hrow
    cases hrow
  | ok result =>
    rw [hrun] at hrow
    obtain ⟨out, next⟩ := result
    obtain ⟨result, -, hfork⟩ := runWrite_fork hrun
    obtain ⟨created, receipt, mid, head, hmat, hcopies, -⟩ := forkSession_ok hfork
    rcases materializeSession_ok hmat with ⟨existing, hexisting, -⟩ | ⟨_, _, inserted, -, -, -, -, -, hins, happ, -⟩
    · cases hexisting
    · obtain ⟨-, rfl⟩ := insertSession_some hins
      refine forkCopies_states hcopies (fun other hother => ?_) row hrow
      rw [(appendAction_ok happ).2.2.sessions] at hother
      obtain ⟨old, hold, rfl⟩ := mem_map.mp hother
      rw [bumpRevision_state]
      obtain rfl : old = input.row := by simpa using hold
      rfl

theorem write_fork_child (hdb : ChainInv db) {anchorId : String} {anchor : Node}
    (hread : readParentPrefix anchorId (db.rows source) = some (anchor, nodes))
    (hplan : planCopies source input.row.id anchorId (db.rows source) = some copies)
    (hwrite : refused (write cap (.fork input copies) {}).1 = false) :
    ForkChild source input.row.id nodes ((write cap (.fork input copies) {}).2.rows input.row.id) := by
  have hcopies : copies = copyActions source input.row.id (forkEligible nodes) := by
    unfold planCopies at hplan
    rw [hread] at hplan
    dsimp only at hplan
    split at hplan
    · cases hplan
    · exact (Option.some.inj hplan).symm
  have hchain := (write_chainInv cap (.fork input copies) ChainInv.empty).1
  have hexact := write_fork_rows hwrite
  obtain ⟨hsession, hkind⟩ := write_fork_genesis hwrite
  have howned : ∀ row ∈ (write cap (.fork input copies) {}).2.actions, row.sessionId = input.row.id := by
    intro row hrow
    have hmem : row.toAppend ∈ input.initialAction :: copies := by
      rw [← hexact]
      exact mem_map_of_mem hrow
    rcases mem_cons.mp hmem with heq | hmem
    · rw [heq, hsession]
    · rw [hcopies] at hmem
      obtain ⟨node, -, heq⟩ := mem_map.mp hmem
      exact (congrArg (·.sessionId) heq).symm
  have hrows : (write cap (.fork input copies) {}).2.rows input.row.id = (write cap (.fork input copies) {}).2.actions := by
    unfold Db.rows
    rw [filter_eq_self]
    intro row hrow
    simpa using howned row hrow
  obtain ⟨rest, hsource⟩ := readParentPrefix_some hread
  have hnodes : nodes.Sublist db.actions := by
    have hsub : nodes.Sublist (db.rows source) := by
      rw [hsource]
      exact sublist_append_left _ _
    exact hsub.trans filter_sublist
  have hids : (nodes.map (·.id)).Nodup := hdb.actionIds.sublist (hnodes.map _)
  refine ⟨?_, ?_, ?_, hids, fun node hnode => hdb.ordinal_pos (hnodes.subset hnode)⟩
  · rw [hrows]
    cases hactions : (write cap (.fork input copies) {}).2.actions with
    | nil =>
      rw [hactions] at hexact
      cases hexact
    | cons genesis copied =>
      rw [hactions, map_cons, List.cons.injEq] at hexact
      obtain ⟨hgenesis, hcopied⟩ := hexact
      rw [hcopies] at hcopied
      refine ⟨genesis, copied, rfl, by rw [hgenesis, hkind], forall₂_copiedFrom hids (fun copy hcopy => ?_) hcopied⟩
      apply hchain.ordinal_pos
      rw [hactions]
      exact mem_cons_of_mem _ hcopy
  · rw [hrows]
    exact hchain.actionIds
  · rw [hrows]
    exact howned

end OpenOmni
