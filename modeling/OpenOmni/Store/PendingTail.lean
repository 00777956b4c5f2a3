import OpenOmni.Lib.Ordered
import OpenOmni.Store.Pending

/-! When reading on from a snapshot gives the pending inputs at the head. -/
namespace OpenOmni
open List
open Option (bind_eq_some_iff elim_some isSome_iff_exists map_some none_or)

open PlainValue SessionTransition

structure Decoded (row : StoredRow) (action : Node) : Prop where
  kind : row.kind = some action.kind
  id : action.id = row.id
  intent : action.intent = row.intent
  effect : action.effect = row.effect
  ordinal : action.ordinal = row.ordinal

lemma parsePlainJson_some {document value : PlainValue} (h : parsePlainJson document = some value) :
    value = document := by
  unfold parsePlainJson at h
  split at h
  · exact (Option.some.inj h).symm
  · cases h

variable {action : Node}

lemma decodeAction_some {row : StoredRow} (h : decodeAction row = some action) : Decoded row action := by
  unfold decodeAction at h
  obtain ⟨kind, hkind, h⟩ := bind_eq_some_iff.mp h
  obtain ⟨intent, hintent, h⟩ := bind_eq_some_iff.mp h
  obtain ⟨effect, heffect, h⟩ := bind_eq_some_iff.mp h
  obtain ⟨revert, -, h⟩ := bind_eq_some_iff.mp h
  dsimp only at h
  split at h
  · cases h
    exact ⟨hkind, rfl, parsePlainJson_some hintent, parsePlainJson_some heffect, rfl⟩
  · cases h

def tailRows (rows : List StoredRow) (after : ℕ) : List StoredRow := rows.filter fun row => after < row.ordinal

def rowsThrough (rows : List StoredRow) (revision : ℕ) : List StoredRow :=
  rows.filter fun row => row.ordinal ≤ revision

section
variable [PlainCoding] {rows page : List StoredRow} {row : StoredRow}

/-- What the tail consumes by a row: nothing by one that does not decode as it stands. -/
def StoredRow.consumes (row : StoredRow) : List String := (decodeAction row).elim [] tailConsumes

def StoredRow.dropped (row : StoredRow) : Bool := (decodeActionDegraded row).isNone

def inputsOf (rows : List StoredRow) : List Node := (rows.filter StoredRow.isInput).filterMap decodeAction

variable {action : Node} {tail : List StoredRow}

/-- Up to the end of the page in which the first dropped row stands. -/
def tailReach (tail : List StoredRow) : ℕ :=
  match tail.findIdx? StoredRow.dropped with
  | none => tail.length
  | some index => tailPage * (index / tailPage + 1)

def reached (tail : List StoredRow) : List StoredRow := tail.take (tailReach tail)

end

def numbered (rows : List DeliveryRow) : List DeliveryRow :=
  rows.mapIdx fun index row => { row with ordinal := index + 1 }

def unnumbered (row : DeliveryRow) : DeliveryRow := { row with ordinal := 1 }

lemma map_id_numbered (rows : List DeliveryRow) : (numbered rows).map (·.id) = rows.map (·.id) := by
  apply ext_getElem?
  intro index
  simp only [numbered, getElem?_mapIdx, getElem?_map, Option.map_map]
  rfl

/-- `openDeliveryRow` in the first place. -/
def firstRow (action : Node) : Option DeliveryRow := openDeliveryRow action 0

lemma openDeliveryRow_index (action : Node) (index : ℕ) :
    openDeliveryRow action index = (firstRow action).map fun row => { row with ordinal := index + 1 } := by
  unfold firstRow openDeliveryRow
  cases field action.effect "deliveryKind" (readEnum InputKind.members InputKind.text) with
  | none => rfl
  | some kind =>
    cases field action.effect "content" asStr with
    | none => rfl
    | some content =>
      cases optional (readEnum DeliveryWidth.members DeliveryWidth.text) (action.effect.get? "delivery") <;> rfl

lemma firstRow_id {row : DeliveryRow} (h : firstRow action = some row) :
    row.id = action.id ∧ unnumbered row = row := by
  unfold firstRow openDeliveryRow at h
  simp only [Option.bind_eq_bind, bind_eq_some_iff] at h
  obtain ⟨kind, -, content, -, delivery, -, h⟩ := h
  cases h
  exact ⟨rfl, rfl⟩

def numberedFrom (start : ℕ) (rows : List DeliveryRow) : List DeliveryRow :=
  rows.mapIdx fun index row => { row with ordinal := index + start + 1 }

lemma numberedFrom_cons (start : ℕ) (row : DeliveryRow) (rows : List DeliveryRow) :
    numberedFrom start (row :: rows) = { row with ordinal := start + 1 } :: numberedFrom (start + 1) rows := by
  unfold numberedFrom
  rw [mapIdx_cons]
  congr 1
  · rw [Nat.zero_add]
  · congr 1
    funext index next
    rw [show index + 1 + start + 1 = index + (start + 1) + 1 by omega]

lemma mapM_openDeliveryRow {actions : List Node} {start : ℕ} {out : List DeliveryRow} :
    (actions.mapIdx fun index action => openDeliveryRow action (index + start)).mapM id = some out ↔
      (∀ action ∈ actions, (firstRow action).isSome) ∧ out = numberedFrom start (actions.filterMap firstRow) := by
  induction actions generalizing start out with
  | nil =>
    constructor
    · intro hout
      exact ⟨by simp, (Option.some.inj hout).symm⟩
    · rintro ⟨-, rfl⟩
      rfl
  | cons action actions ih =>
    have hshift : (fun (index : ℕ) (next : Node) => openDeliveryRow next (index + 1 + start)) =
        fun index next => openDeliveryRow next (index + (start + 1)) := by
      funext index next
      rw [show index + 1 + start = index + (start + 1) by omega]
    rw [mapIdx_cons, mapM_cons, hshift, openDeliveryRow_index, Nat.zero_add]
    cases hfirst : firstRow action with
    | none =>
      constructor
      · intro hout
        obtain ⟨head, hhead, -⟩ := bind_eq_some_iff.mp hout
        cases hhead
      · rintro ⟨hall, -⟩
        have hsome := hall action mem_cons_self
        rw [hfirst] at hsome
        cases hsome
    | some row =>
      rw [filterMap_cons, hfirst, forall_mem_cons, hfirst]
      dsimp only
      rw [numberedFrom_cons]
      constructor
      · intro hout
        obtain ⟨head, hhead, hout⟩ := bind_eq_some_iff.mp hout
        obtain ⟨rest, hrest, hout⟩ := bind_eq_some_iff.mp hout
        obtain ⟨hall, rfl⟩ := ih.mp hrest
        cases hhead
        exact ⟨⟨rfl, hall⟩, (Option.some.inj hout).symm⟩
      · rintro ⟨⟨-, hall⟩, rfl⟩
        refine bind_eq_some_iff.mpr ⟨_, rfl, ?_⟩
        exact bind_eq_some_iff.mpr ⟨_, ih.mpr ⟨hall, rfl⟩, rfl⟩

theorem openDeliveryRows_eq_some {actions : List Node} {out : List DeliveryRow} :
    openDeliveryRows actions = some out ↔
      (∀ action ∈ actions, (firstRow action).isSome) ∧ out = numbered (actions.filterMap firstRow) :=
  @mapM_openDeliveryRow actions 0 out

theorem map_id_filterMap {actions : List Node} (h : ∀ action ∈ actions, (firstRow action).isSome) :
    (actions.filterMap firstRow).map (·.id) = actions.map (·.id) := by
  induction actions with
  | nil => rfl
  | cons action actions ih =>
    obtain ⟨row, hrow⟩ := isSome_iff_exists.mp (h action mem_cons_self)
    have hrest := ih fun next hnext => h next (mem_cons_of_mem action hnext)
    rw [filterMap_cons, hrow, map_cons, map_cons, hrest, (firstRow_id hrow).1]

section
variable [PlainCoding] {numText : ℚ → String} {rows : List StoredRow}

lemma pendingMessages_eq (rows : List StoredRow) :
    pendingMessages numText rows = (inputsOf rows).filter fun action => !isClosed numText rows action.id := by
  unfold pendingMessages inputsOf
  generalize isClosed numText rows = closed
  induction rows with
  | nil => rfl
  | cons row rows ih =>
    cases hdecode : decodeAction row with
    | none =>
      by_cases hinput : row.isInput <;> by_cases hclosed : closed row.id <;>
        simp [hinput, hclosed, hdecode, ih]
    | some action =>
      have hid := (decodeAction_some hdecode).id
      by_cases hinput : row.isInput <;> by_cases hclosed : closed row.id <;>
        simp [hinput, hclosed, hdecode, hid, ih]

variable {id : String} {revision : ℕ} {rows' : List StoredRow} {action : Node}

lemma asText_of_asStr {value : PlainValue} (h : value.asStr = some id) :
    (sqlValue value).map (SqlValue.asText numText) = some id := by
  cases value with
  | str text =>
    rw [asStr_str] at h
    simpa [sqlValue, SqlValue.asText] using h
  | _ => cases h

theorem consumes_subset_closes {row : StoredRow} (h : id ∈ row.consumes) : id ∈ row.closes numText := by
  unfold StoredRow.consumes at h
  cases hdecode : decodeAction row with
  | none => simp [hdecode] at h
  | some action =>
    have hrow := decodeAction_some hdecode
    rw [hdecode, elim_some] at h
    unfold tailConsumes at h
    unfold StoredRow.closes closedIds
    rw [hrow.kind, elim_some]
    rw [hrow.intent] at h
    by_cases hturn : action.kind = .turn
    · have hnot : ¬ inputRowKinds.contains action.kind := by simp [hturn, inputRowKinds]
      rw [if_pos hturn] at h
      rw [if_neg hnot, if_pos hturn]
      cases hstale : row.intent.get? "consumedStale" with
      | none => simp [hstale] at h
      | some stale =>
        cases stale with
        | arr items =>
          simp only [hstale, Option.bind_some, asArr_arr, elim_some] at h
          obtain ⟨item, hitem, hid⟩ := mem_filterMap.mp h
          exact mem_filterMap.mpr ⟨item, by simpa [jsonEach, hstale] using hitem, asText_of_asStr hid⟩
        | _ => simp [hstale, asArr] at h
    · rw [if_neg hturn] at h
      by_cases hinput : inputRowKinds.contains action.kind
      · rw [if_pos hinput] at h
        rw [if_pos hinput]
        cases hdelivery : row.intent.get? "deliveryId" with
        | none => simp [hdelivery] at h
        | some value =>
          have hid : value.asStr = some id := by simpa [hdelivery] using h
          have htext : (sqlValue value).map (SqlValue.asText numText) = some id := asText_of_asStr hid
          rw [Option.mem_toList]
          simpa [jsonExtract, hdelivery] using htext
      · rw [if_neg hinput] at h
        simp at h

lemma isClosed_iff : isClosed numText rows id ↔ ∃ row ∈ rows, id ∈ row.closes numText := by
  simp [isClosed]

/-- When reading on from a revision gives what a full read gives. -/
structure Advances (numText : ℚ → String) (rows : List StoredRow) (revision : ℕ) : Prop where
  payload : ∀ action ∈ inputsOf rows,
    ¬ isClosed numText rows action.id ∨ action ∈ inputsOf (reached (tailRows rows revision)) →
      (firstRow action).isSome
  reach : ∀ action ∈ inputsOf rows, revision < action.ordinal → ¬ isClosed numText rows action.id →
    action ∈ inputsOf (reached (tailRows rows revision))
  seen : ∀ action ∈ inputsOf rows,
    (action.ordinal ≤ revision → ¬ isClosed numText (rowsThrough rows revision) action.id) →
    (revision < action.ordinal → action ∈ inputsOf (reached (tailRows rows revision))) →
    isClosed numText rows action.id →
      ∃ row ∈ reached (tailRows rows revision), action.id ∈ row.consumes

/-- What is pending behind the tail: what was pending before it and what arrived, without what it consumes. -/
def advanced (numText : ℚ → String) (rows : List StoredRow) (revision : ℕ) : List Node :=
  (pendingMessages numText (rowsThrough rows revision) ++ inputsOf (reached (tailRows rows revision))).filter
    fun action => !((reached (tailRows rows revision)).flatMap StoredRow.consumes).contains action.id

lemma inputsOf_sublist {rows : List StoredRow} (h : rows.Sublist rows') :
    (inputsOf rows).Sublist (inputsOf rows') := (h.filter _).filterMap _

lemma mem_inputsOf_filter (q : ℕ → Bool) :
    action ∈ inputsOf (rows.filter fun row => q row.ordinal) ↔ action ∈ inputsOf rows ∧ q action.ordinal := by
  unfold inputsOf
  constructor
  · intro hmem
    obtain ⟨row, hrow, hdecode⟩ := mem_filterMap.mp hmem
    obtain ⟨hrow, hinput⟩ := mem_filter.mp hrow
    obtain ⟨hrow, hside⟩ := mem_filter.mp hrow
    rw [← (decodeAction_some hdecode).ordinal] at hside
    exact ⟨mem_filterMap.mpr ⟨row, mem_filter.mpr ⟨hrow, hinput⟩, hdecode⟩, hside⟩
  · rintro ⟨hmem, hside⟩
    obtain ⟨row, hrow, hdecode⟩ := mem_filterMap.mp hmem
    obtain ⟨hrow, hinput⟩ := mem_filter.mp hrow
    rw [(decodeAction_some hdecode).ordinal] at hside
    exact mem_filterMap.mpr ⟨row, mem_filter.mpr ⟨mem_filter.mpr ⟨hrow, hside⟩, hinput⟩, hdecode⟩

lemma mem_inputsOf_through :
    action ∈ inputsOf (rowsThrough rows revision) ↔ action ∈ inputsOf rows ∧ action.ordinal ≤ revision := by
  have hside : action ∈ inputsOf (rowsThrough rows revision) ↔
      action ∈ inputsOf rows ∧ decide (action.ordinal ≤ revision) = true :=
    mem_inputsOf_filter fun ordinal => ordinal ≤ revision
  rw [decide_eq_true_eq] at hside
  exact hside

lemma mem_inputsOf_tail :
    action ∈ inputsOf (tailRows rows revision) ↔ action ∈ inputsOf rows ∧ revision < action.ordinal := by
  have hside : action ∈ inputsOf (tailRows rows revision) ↔
      action ∈ inputsOf rows ∧ decide (revision < action.ordinal) = true :=
    mem_inputsOf_filter fun ordinal => revision < ordinal
  rw [decide_eq_true_eq] at hside
  exact hside

lemma inputsOf_reached {tail : List StoredRow} : (inputsOf (reached tail)).Sublist (inputsOf tail) :=
  inputsOf_sublist (take_sublist _ _)

lemma mem_advanced : action ∈ advanced numText rows revision ↔
    (action ∈ inputsOf (rowsThrough rows revision) ∧ ¬ isClosed numText (rowsThrough rows revision) action.id ∨
      action ∈ inputsOf (reached (tailRows rows revision))) ∧
    ¬ ∃ row ∈ reached (tailRows rows revision), action.id ∈ row.consumes := by
  unfold advanced
  rw [mem_filter, mem_append, pendingMessages_eq, mem_filter]
  apply and_congr
  · simp
  · simp [mem_flatMap]

lemma mem_pendingMessages : action ∈ pendingMessages numText rows ↔
    action ∈ inputsOf rows ∧ ¬ isClosed numText rows action.id := by
  simp [pendingMessages_eq, mem_filter]

lemma isClosed_mono {rows : List StoredRow} (hsub : ∀ row ∈ rows, row ∈ rows') (h : isClosed numText rows id) :
    isClosed numText rows' id := by
  obtain ⟨row, hrow, hid⟩ := isClosed_iff.mp h
  exact isClosed_iff.mpr ⟨row, hsub row hrow, hid⟩

lemma isClosed_of_consumes (h : ∃ row ∈ reached (tailRows rows revision), id ∈ row.consumes) :
    isClosed numText rows id := by
  obtain ⟨row, hrow, hid⟩ := h
  have hmem : row ∈ rows := (mem_filter.mp (mem_of_mem_take hrow)).1
  exact isClosed_iff.mpr ⟨row, hmem, consumes_subset_closes hid⟩

theorem Advances.mem_iff (h : Advances numText rows revision) (hmem : action ∈ inputsOf rows) :
    action ∈ pendingMessages numText rows ↔ action ∈ advanced numText rows revision := by
  rw [mem_pendingMessages, mem_advanced, mem_inputsOf_through]
  constructor
  · rintro ⟨-, hopen⟩
    refine ⟨?_, fun hconsumed => hopen (isClosed_of_consumes hconsumed)⟩
    by_cases hside : action.ordinal ≤ revision
    · refine Or.inl ⟨⟨hmem, hside⟩, fun hclosed => hopen (isClosed_mono ?_ hclosed)⟩
      intro row hrow
      exact (mem_filter.mp hrow).1
    · exact Or.inr (h.reach action hmem (by omega) hopen)
  · rintro ⟨hbefore, hkept⟩
    refine ⟨hmem, fun hclosed => hkept (h.seen action hmem ?_ ?_ hclosed)⟩
    · intro hside
      rcases hbefore with ⟨-, hopen⟩ | hlate
      · exact hopen
      · have hafter := (mem_inputsOf_tail.mp (inputsOf_reached.subset hlate)).2
        omega
    · intro hside
      rcases hbefore with ⟨⟨-, hearly⟩, -⟩ | hlate
      · omega
      · exact hlate

end

end OpenOmni

namespace OpenOmni.PendingSample

open PlainValue

attribute [local instance] textCoding

def numText (q : ℚ) : String := PlainValue.text (.num q)

def inputRow (id : String) (ordinal : ℕ) (intent effect : PlainValue) : StoredRow where
  id := id
  parentId := none
  sessionId := "s"
  kind := some .prompt
  intent := intent
  effect := effect
  revert := none
  irreversible := true
  encodingVersion := 1
  ts := 0
  ordinal := ordinal

def received (id : String) (ordinal : ℕ) : StoredRow :=
  inputRow id ordinal (.obj []) (record [("deliveryKind", some (.str "prompt")), ("content", some (.str "hello"))])

def delivered (id : String) (ordinal : ℕ) : StoredRow :=
  inputRow (id ++ ":delivery") ordinal (record [("deliveryId", some (.str id))]) (.obj [])

/-- The delivery of `p` with an encoding version that is not read. -/
def damaged : List StoredRow := [received "p" 1, { delivered "p" 2 with encodingVersion := 99 }]

end OpenOmni.PendingSample
