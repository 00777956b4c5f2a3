import OpenOmni.Gate.Compiled
import OpenOmni.Gate.Consult
import OpenOmni.Lib.KeySort

/-! What a compiled policy answers does not depend on the order its rows are read in, unless two rows tie. -/
namespace OpenOmni
open List

open PlainValue

def PolicyRow.key (row : PolicyRow) : String × String × Phase := (row.name, row.kind, row.phase)

/-- Nothing about the set is refused: no handler, no missing rule, and no row on its own account. -/
structure AdmittedRows (options : CompileOptions) (rows : List PolicyRow) : Prop where
  handlers : handlerTableFault [] options.registry.refs = none
  mandatory : missingRule options rows = none
  rows : ∀ row ∈ rows, (rowPlan options row).isSome = true

/-- No two rows share priority and name, which is all the sort compares. -/
def Untied (rows : List PolicyRow) : Prop :=
  ∀ a ∈ rows, ∀ b ∈ rows, a.priority = b.priority → a.name = b.name → a = b

instance : DecidablePred Untied := fun rows =>
  inferInstanceAs (Decidable (∀ a ∈ rows, ∀ b ∈ rows, a.priority = b.priority → a.name = b.name → a = b))

section Sorting
variable (collation : Collation)

def sortedRows (rows : List PolicyRow) : List PolicyRow := rows.insertionSort (rowBefore collation)

lemma orderedRows_fst (rows : List PolicyRow) :
    (orderedRows collation rows).map Prod.fst = sortedRows collation rows := by
  unfold orderedRows sortedRows
  rw [map_insertionSort _ (rowBefore collation) _ _ fun _ _ _ _ => Iff.rfl, zipIdx_map_fst]

lemma rowBefore_total : Std.Total (rowBefore collation) := by
  refine ⟨fun a b => ?_⟩
  unfold rowBefore
  rcases lt_trichotomy a.priority b.priority with h | h | h
  · exact Or.inr (Or.inl h)
  · rcases collation.total a.name b.name with hle | hle
    · exact Or.inl (Or.inr ⟨h, hle⟩)
    · exact Or.inr (Or.inr ⟨h.symm, hle⟩)
  · exact Or.inl (Or.inl h)

lemma rowBefore_trans : IsTrans PolicyRow (rowBefore collation) := by
  refine ⟨fun a b c hab hbc => ?_⟩
  unfold rowBefore at hab hbc ⊢
  rcases hab with hab | ⟨hab, hleab⟩
  · rcases hbc with hbc | ⟨hbc, _⟩
    · exact Or.inl (lt_trans hbc hab)
    · exact Or.inl (hbc ▸ hab)
  · rcases hbc with hbc | ⟨hbc, hlebc⟩
    · exact Or.inl (hab ▸ hbc)
    · exact Or.inr ⟨hab.trans hbc, collation.trans hleab hlebc⟩

lemma sortedRows_perm {rows rows' : List PolicyRow} (hperm : rows.Perm rows') (huntied : Untied rows) :
    sortedRows collation rows = sortedRows collation rows' := by
  have := rowBefore_total collation
  have := rowBefore_trans collation
  apply KeySort.insertionSort_eq_of_perm hperm
  intro a ha b hb hab hba
  have hpriority : a.priority = b.priority := by
    rcases hab with hab | ⟨hab, _⟩
    · rcases hba with hba | ⟨hba, _⟩
      · omega
      · exact hba.symm
    · exact hab
  have hname : a.name = b.name := by
    apply collation.antisymm
    · rcases hab with hab | ⟨_, hab⟩
      · omega
      · exact hab
    · rcases hba with hba | ⟨_, hba⟩
      · omega
      · exact hba
  exact huntied a ha b hb hpriority hname

theorem sortedRows_tie {a b : PolicyRow} (hpriority : a.priority = b.priority) (hname : a.name = b.name)
    (rest : List PolicyRow) : ∃ hi lo, sortedRows collation (a :: b :: rest) = hi ++ a :: b :: lo ∧
      sortedRows collation (b :: a :: rest) = hi ++ b :: a :: lo := by
  have hrefl : ∀ text, collation.le text text = true := by
    intro text
    rcases collation.total text text with h | h <;> exact h
  apply KeySort.insertionSort_swap
  · intro x
    unfold rowBefore
    rw [hpriority, hname]
  · exact Or.inr ⟨rfl, hrefl a.name⟩
  · exact Or.inr ⟨hpriority, hname ▸ hrefl a.name⟩

end Sorting

variable {kind kind' : String} {phase phase' : Phase} {point : PointId} {row source a b : PolicyRow}
  {options : CompileOptions} {plan : RowPlan} {rows rows' : List PolicyRow}

lemma operation_inj (h : kind ++ "." ++ phase.text = kind' ++ "." ++ phase'.text) :
    kind = kind' ∧ phase = phase' := by
  have hlist := congrArg String.toList h
  simp only [String.toList_append, append_assoc] at hlist
  have hlast := congrArg List.getLast? hlist
  have hphase : phase = phase' := by
    cases phase <;> cases phase' <;> simp [Phase.text] at hlast ⊢
  subst hphase
  exact ⟨String.toList_inj.mp (append_cancel_right hlist), rfl⟩

lemma parse_operation (h : PointId.parse (kind ++ "." ++ phase.text) = some point) :
    point ≠ .sessionOpen ∧ point ≠ .alarmFired := by
  have hid := congrArg (fun text => text.toList.getLast?) (PointId.id_of_parse h)
  simp only [String.toList_append] at hid
  constructor
  · rintro rfl
    cases phase <;> simp [Phase.text, PointId.id] at hid
  · rintro rfl
    cases phase <;> simp [Phase.text, PointId.id] at hid

theorem policyPoint_inj (h : policyPoint kind phase = some point) (h' : policyPoint kind' phase' = some point) :
    kind = kind' ∧ phase = phase' := by
  unfold policyPoint at h h'
  split at h
  · rename_i hopen
    cases h
    split at h'
    · rename_i hopen'
      exact ⟨hopen.1.trans hopen'.1.symm, hopen.2.trans hopen'.2.symm⟩
    · split at h'
      · cases h'
      · exact absurd rfl (parse_operation h').1
  · split at h
    · rename_i hfired
      cases h
      split at h'
      · cases h'
      · split at h'
        · rename_i hfired'
          exact ⟨hfired.1.trans hfired'.1.symm, hfired.2.trans hfired'.2.symm⟩
        · exact absurd rfl (parse_operation h').2
    · split at h'
      · cases h'
        exact absurd rfl (parse_operation h).1
      · split at h'
        · cases h'
          exact absurd rfl (parse_operation h).2
        · exact operation_inj ((PointId.id_of_parse h).symm.trans (PointId.id_of_parse h'))

/-- What an admitted row compiles to keeps its name and stands at its point. -/
structure PlannedRow (options : CompileOptions) (source : PolicyRow) (plan : RowPlan) (point : PointId) : Prop where
  name : plan.row.name = source.name
  operation : policyPoint source.kind source.phase = some point
  table : options.table.contains point = true
  points : plan.points = rowPoints options.table plan.row point

lemma parseRow_fields {generation : ℕ} {kinds : List String} {registry : HandlerTable} {compiled : CompiledRow}
    (h : parseRow row generation kinds registry = .ok compiled) :
    compiled.name = row.name ∧ compiled.kind = row.kind ∧ compiled.phase = row.phase := by
  unfold parseRow at h
  split at h
  · cases h
  · split at h
    · cases h
    · split at h
      · cases h
      · split at h
        · cases h
        · rcases ite_eq_iff.mp h with ⟨_, h⟩ | ⟨_, h⟩
          · cases h
          · split at h
            · cases h
            · cases h
              exact ⟨rfl, rfl, rfl⟩

lemma planned (h : rowPlan options source = some plan) : ∃ point, PlannedRow options source plan point := by
  unfold rowPlan at h
  split at h
  · cases h
  · split at h
    · cases h
    · rename_i row hparse
      obtain ⟨hname, hkind, hphase⟩ := parseRow_fields hparse
      split at h
      · cases h
      · rename_i point hfilter
        obtain ⟨hpoint, htable⟩ := Option.filter_eq_some_iff.mp hfilter
        rw [hkind, hphase] at hpoint
        split at h
        · cases h
        · split at h
          · cases h
            exact ⟨point, hname, hpoint, htable, rfl⟩
          · cases h

lemma PlannedRow.mem_points (h : PlannedRow options source plan point) : point ∈ plan.points := by
  rw [h.points]
  unfold rowPoints
  split <;> exact mem_cons_self

lemma PlannedRow.eq_or {on : PointId} (h : PlannedRow options source plan point) (hon : on ∈ plan.points) :
    on = point ∨ (point = .turnPost ∧ on = .compactionPre) := by
  rw [h.points] at hon
  unfold rowPoints at hon
  split at hon
  · rename_i hturn
    rcases mem_cons.mp hon with rfl | hon
    · exact Or.inl rfl
    · exact Or.inr ⟨hturn.1, mem_singleton.mp hon⟩
  · exact Or.inl (mem_singleton.mp hon)

theorem apart {planA planB : RowPlan} {pointA pointB : PointId} (ha : PlannedRow options a planA pointA)
    (hb : PlannedRow options b planB pointB) (hne : ¬ (a.kind = b.kind ∧ a.phase = b.phase)) :
    pointA ∉ planB.points ∨ pointB ∉ planA.points := by
  have hpoints : pointA ≠ pointB := by
    rintro rfl
    exact hne (policyPoint_inj ha.operation hb.operation)
  by_contra hboth
  rw [not_or, not_not, not_not] at hboth
  rcases hb.eq_or hboth.1 with heq | ⟨hturn, hcompaction⟩
  · exact hpoints heq
  · rcases ha.eq_or hboth.2 with heq | ⟨hturn', _⟩
    · exact hpoints heq.symm
    · rw [hcompaction] at hturn'
      cases hturn'

lemma policyPoint_kind (h : policyPoint kind phase = some point) : '\x00' ∉ kind.toList := by
  unfold policyPoint at h
  split at h
  · rename_i hopen
    rw [hopen.1]
    decide
  · split at h
    · rename_i hfired
      rw [hfired.1]
      decide
    · intro hmem
      have hid : '\x00' ∈ point.id.toList := by
        rw [PointId.id_of_parse h, String.toList_append, String.toList_append, append_assoc]
        exact mem_append_left _ hmem
      revert hid
      cases point <;> decide

theorem rowKey_inj (ha : '\x00' ∉ a.kind.toList) (hb : '\x00' ∉ b.kind.toList) (h : rowKey a = rowKey b) :
    a.key = b.key := by
  have hphase : ∀ phase : Phase, '\x00' ∉ phase.text.toList.reverse := by
    intro phase
    cases phase <;> decide
  have hlist := congrArg (fun text => text.toList.reverse) h
  have hnul : "\x00".toList = ['\x00'] := rfl
  simp only [rowKey, String.toList_append, reverse_append, hnul, reverse_singleton,
    cons_append] at hlist
  obtain ⟨hphases, hrest⟩ := append_cons_inj (hphase a.phase) (hphase b.phase) hlist
  rw [← mem_reverse] at ha hb
  obtain ⟨hkinds, hnames⟩ := append_cons_inj ha hb hrest
  have hname : a.name = b.name := String.toList_inj.mp (reverse_inj.mp hnames)
  have hkind : a.kind = b.kind := String.toList_inj.mp (reverse_inj.mp hkinds)
  have hphase' : a.phase = b.phase := by
    have htext := reverse_inj.mp hphases
    revert htext
    cases a.phase <;> cases b.phase <;> decide
  rw [PolicyRow.key, PolicyRow.key, hname, hkind, hphase']

lemma contentIdentity_perm (collation : Collation) (hperm : rows.Perm rows')
    (hdistinct : (rows.map PolicyRow.key).Nodup) (hkinds : ∀ row ∈ rows, '\x00' ∉ row.kind.toList) :
    contentIdentity collation rows = contentIdentity collation rows' := by
  have : Std.Total fun a b => collation.le (rowKey a) (rowKey b) = true :=
    ⟨fun a b => collation.total (rowKey a) (rowKey b)⟩
  have : IsTrans PolicyRow fun a b => collation.le (rowKey a) (rowKey b) = true := ⟨fun _ _ _ => collation.trans⟩
  unfold contentIdentity
  rw [KeySort.insertionSort_eq_of_perm hperm]
  intro a ha b hb hab hba
  have hkey := rowKey_inj (hkinds a ha) (hkinds b hb) (collation.antisymm hab hba)
  exact inj_on_of_nodup_map hdistinct ha hb hkey

lemma missingRule_perm (hperm : rows.Perm rows') : missingRule options rows = missingRule options rows' := by
  unfold missingRule
  congr 1
  funext name
  rw [hperm.any_eq]

lemma AdmittedRows.perm (hperm : rows.Perm rows') (h : AdmittedRows options rows) : AdmittedRows options rows' where
  handlers := h.handlers
  mandatory := (missingRule_perm hperm) ▸ h.mandatory
  rows := fun row hrow => h.rows row (hperm.mem_iff.mpr hrow)

lemma isOk_iff {ε α : Type*} {x : Except ε α} : isOk x = true ↔ ∃ a, x = .ok a := by
  cases x with
  | error error =>
    constructor
    · intro h
      cases h
    · rintro ⟨a, h⟩
      cases h
  | ok a => exact ⟨fun _ => ⟨a, rfl⟩, fun _ => rfl⟩

lemma seenBefore_empty : SeenBefore {} 0 := fun _ hid => nomatch hid

section Compiles
variable [PlainCoding] {collation : Collation} {options : CompileOptions} {rows : List PolicyRow}

variable {s : PolicySnapshot}

lemma compile_ok (h : compile collation options rows = .ok s) :
    handlerTableFault [] options.registry.refs = none ∧ missingRule options rows = none ∧
      ∃ c, compileRows options {} 0 (orderedRows collation rows) = .ok c ∧ s = {
        generation := options.generation
        contentHash := canonicalDigest (contentIdentity collation rows)
        pointTable := options.table
        byPoint := c.byPoint
        rowById := c.rowById
        handlers := ⟨options.registry.handlers⟩
        consultants := ⟨options.registry.consultants⟩
        ids_nodup := c.nodup } := by
  unfold compile compileStored at h
  cases hhandlers : handlerTableFault [] options.registry.refs with
  | some fault => simp [hhandlers] at h
  | none =>
    cases hmissing : missingRule options rows with
    | some name => simp [hhandlers, hmissing] at h
    | none =>
      simp only [hhandlers, hmissing] at h
      cases hrows : compileRows options {} 0 (orderedRows collation rows) with
      | error error => simp [hrows] at h
      | ok c =>
        rw [hrows] at h
        exact ⟨rfl, rfl, c, rfl, (Except.ok.inj h).symm⟩

theorem compile_isOk : isOk (compile collation options rows) = true ↔ AdmittedRows options rows := by
  have hbuilt : isOk (compileRows options {} 0 (orderedRows collation rows)) =
      ((orderedRows collation rows).map Prod.fst).all fun source => (rowPlan options source).isSome :=
    (compileRows_built _ built_empty seenBefore_empty).1
  rw [orderedRows_fst] at hbuilt
  have hall : isOk (compileRows options {} 0 (orderedRows collation rows)) = true ↔
      ∀ row ∈ rows, (rowPlan options row).isSome = true := by
    rw [hbuilt, all_eq_true]
    apply forall_congr'
    intro row
    rw [sortedRows, mem_insertionSort]
  constructor
  · intro h
    obtain ⟨s, hs⟩ := isOk_iff.mp h
    obtain ⟨hhandlers, hmissing, c, hc, _⟩ := compile_ok hs
    exact ⟨hhandlers, hmissing, hall.mp (isOk_iff.mpr ⟨c, hc⟩)⟩
  · intro h
    obtain ⟨c, hc⟩ := isOk_iff.mp (hall.mpr h.rows)
    unfold compile compileStored
    simp only [h.handlers, h.mandatory, hc]
    rfl

/-- The tables of a compiled set hold the entries of its rows, in the order of the sort. -/
structure CompiledFrom (options : CompileOptions) (s : PolicySnapshot) (flat : List StoredEntry) : Prop where
  generation : s.generation = options.generation
  pointTable : s.pointTable = options.table
  entries : ∀ point, s.entries point = flat.filter (·.row.on = point)
  rows : ∀ id, s.rowById.get? id = (flat.find? (·.id = id)).bind (·.policy)

lemma compile_from (h : compile collation options rows = .ok s) :
    CompiledFrom options s (planEntries options 0 (sortedRows collation rows)) := by
  obtain ⟨_, _, c, hc, rfl⟩ := compile_ok h
  have hbuilt := (compileRows_built (orderedRows collation rows) built_empty seenBefore_empty).2 c hc
  rw [orderedRows_fst, nil_append] at hbuilt
  exact ⟨rfl, rfl, hbuilt.entries, hbuilt.rows⟩

theorem compile_perm {rows' : List PolicyRow} (hperm : rows.Perm rows') (hdistinct : (rows.map PolicyRow.key).Nodup)
    (huntied : Untied rows) (h : compile collation options rows = .ok s) : compile collation options rows' = .ok s := by
  have hadmitted := compile_isOk.mp (isOk_iff.mpr ⟨s, h⟩)
  obtain ⟨hhandlers, hmissing, c, hc, rfl⟩ := compile_ok h
  have hsorted : (orderedRows collation rows).map Prod.fst = (orderedRows collation rows').map Prod.fst := by
    rw [orderedRows_fst, orderedRows_fst, sortedRows_perm collation hperm huntied]
  have hkinds : ∀ row ∈ rows, '\x00' ∉ row.kind.toList := by
    intro row hrow
    obtain ⟨plan, hplan⟩ := Option.isSome_iff_exists.mp (hadmitted.rows row hrow)
    obtain ⟨point, hplanned⟩ := planned hplan
    exact policyPoint_kind hplanned.operation
  unfold compile compileStored
  simp only [hhandlers, ← missingRule_perm hperm, hmissing, compileRows_index hsorted hc,
    contentIdentity_perm collation hperm hdistinct hkinds]

/-- The part of an answer that is asked to be the same in every order. -/
structure PolicyAnswer where
  verdict : EffectiveRowVerdict
  value : PlainValue
  matched : List String
  obligations : List CompiledObligation

def PolicyEvaluation.answer (evaluation : PolicyEvaluation) : PolicyAnswer where
  verdict := evaluation.verdict
  value := evaluation.value
  matched := evaluation.matchedRuleIds
  obligations := evaluation.obligations

structure PointAnswer where
  verdict : GateVerdict
  value : PlainValue
  matched : List String
  obligations : List Obligation
  emissions : List String

def GateOutcome.answer (s : PolicySnapshot) (outcome : GateOutcome) : PointAnswer where
  verdict := outcome.decision.verdict
  value := outcome.value
  matched := (matchedRows s outcome.decision).map (·.name)
  obligations := outcome.decision.obligations
  emissions := outcome.emissions.map (·.key)

/-- The answer of an effect; `none` where it died. -/
def ConsultRun.answer (run : ConsultRun) : Option PolicyAnswer :=
  match run.exit with
  | .success evaluation => some evaluation.answer
  | .died => none

/-- Every input is evaluated to one answer: an operation at once or by its consults, and a point input. -/
structure SameAnswers (s t : PolicySnapshot) : Prop where
  operation : ∀ input options,
    (evaluate s input options).map PolicyEvaluation.answer = (evaluate t input options).map PolicyEvaluation.answer
  effect : ∀ input fuel,
    (evaluateEffect s input fuel).map ConsultRun.answer = (evaluateEffect t input fuel).map ConsultRun.answer
  point : ∀ input options,
    (decidePoint s input options).map (GateOutcome.answer s) = (decidePoint t input options).map (GateOutcome.answer t)

lemma SameAnswers.refl (s : PolicySnapshot) : SameAnswers s s := ⟨fun _ _ => rfl, fun _ _ => rfl, fun _ _ => rfl⟩

lemma SameAnswers.symm {t : PolicySnapshot} (h : SameAnswers s t) : SameAnswers t s where
  operation := fun input options => (h.operation input options).symm
  effect := fun input fuel => (h.effect input fuel).symm
  point := fun input options => (h.point input options).symm

/-- Any two orders of the rows are refused alike or compile to one hash and one answer to every input. -/
def OrderIndependent (collation : Collation) (options : CompileOptions) (rows : List PolicyRow) : Prop :=
  ∀ l l', l.Perm rows → l'.Perm rows →
    isOk (compile collation options l) = isOk (compile collation options l') ∧
      ∀ s t, compile collation options l = .ok s → compile collation options l' = .ok t →
        s.contentHash = t.contentHash ∧ SameAnswers s t

def PolicyRow.input (row : PolicyRow) : PolicyEvaluationInput where
  kind := row.kind
  phase := row.phase
  value := .null

def recordedDecision (row : PolicyRow) (point : PointId) (generation : ℕ) (rowIds : List String)
    (output : PlainValue) : GateDecision where
  point := point
  verdict := .allow
  rowIds := rowIds
  obligations := []
  consulted := []
  annotations := []
  facts := []
  output := output
  inputHash := row.input.hash
  generation := generation

def freshFold (s : PolicySnapshot) (row : PolicyRow) (point : PointId) : Option (FoldState × Option PendingConsult) :=
  foldEntries (foldContext s (row.input.pointInput point) { inputHash := some row.input.hash }) (s.entries point)
    (initialFoldState .null)

theorem replays_recorded {flat : List StoredEntry} (hs : CompiledFrom options s flat)
    (hflat : ∀ entry ∈ flat, entry.matcher = none) (row : PolicyRow) (point : PointId) (rowIds : List String)
    (output : PlainValue) : replays s (row.input.pointInput point) row.input.hash
      (recordedDecision row point options.generation rowIds output) = true ↔
      ∀ entry ∈ s.entries point, entry.readsContext = true → entry.id ∉ rowIds := by
  have hgeneration : (recordedDecision row point options.generation rowIds output).generation = s.generation :=
    hs.generation.symm
  have hmatches : ∀ entry ∈ s.entries point, entry.readsContext = true →
      entryMatches entry (row.input.pointInput point) = false := by
    intro entry hentry hreads
    rw [hs.entries point] at hentry
    have hmatcher := hflat entry (mem_filter.mp hentry).1
    unfold CompiledEntry.readsContext at hreads
    rw [hmatcher, Option.isSome_none, Bool.false_or] at hreads
    obtain ⟨rule, hrule⟩ := Option.isSome_iff_exists.mp hreads
    unfold entryMatches
    rw [hrule]
    change (whenMatches entry _ && matchesMessage rule none && _) = false
    simp [matchesMessage]
  unfold replays
  rw [decide_eq_true hgeneration]
  change (true && decide (point = point) && decide (row.input.hash = row.input.hash) && _) = true ↔ _
  rw [decide_eq_true rfl, decide_eq_true rfl, Bool.and_true, Bool.and_true, Bool.true_and, all_eq_true]
  apply forall_congr'
  intro entry
  apply forall_congr'
  intro hentry
  cases hreads : entry.readsContext with
  | false => simp
  | true =>
    rw [hmatches entry hentry hreads]
    change (!true || false == rowIds.contains entry.id) = true ↔ _
    simp

lemma evaluate_recorded {row : PolicyRow} {point : PointId} (hpoint : policyPoint row.kind row.phase = some point)
    (htable : s.pointTable.contains point = true) (d : GateDecision) :
    (evaluate s { row.input with recorded := some d } {}).map PolicyEvaluation.answer =
      if replays s (row.input.pointInput point) row.input.hash d then
        some (projectOutcome s row.input ⟨d, d.output, [], true, none⟩).answer
      else (freshFold s row point).map fun folded =>
        (projectOutcome s row.input (outcomeOf s (row.input.pointInput point) row.input.hash folded)).answer := by
  have hevaluation : evaluationPoint s { row.input with recorded := some d } = .ok point := by
    unfold evaluationPoint
    rw [show policyPoint row.input.kind row.input.phase = some point from hpoint]
    have hop : ¬ (row.input.kind = "message" ∧ row.input.op = some "send_message" ∧ row.input.message = none) := by
      rintro ⟨-, ⟨⟩, -⟩
    simp only [htable, Bool.not_true, Bool.false_eq_true, if_false, if_neg hop]
  unfold evaluate
  rw [hevaluation]
  simp only []
  have hkept : Option.filter (replays s (PolicyEvaluationInput.pointInput { row.input with recorded := some d } point)
      (PolicyEvaluationInput.hash { row.input with recorded := some d })) (some d) =
        if replays s (row.input.pointInput point) row.input.hash d then some d else none := rfl
  rw [decidePoint, options_filter rfl hkept]
  split_ifs
  · rfl
  · change ((freshFold s row point).map _ |>.map _ |>.map _) = _
    rw [Option.map_map, Option.map_map]
    rfl

end Compiles

theorem entry_at {hi lo : List PolicyRow} {entry : StoredEntry} {name : String}
    (hentry : entry ∈ planEntries options 0 (hi ++ row :: lo)) (hid : entry.id = gateRowId name point hi.length) :
    ∃ plan, rowPlan options row = some plan ∧
      point ∈ plan.points ∧ entry = ⟨plan.gateRow options hi.length point, none, none, some plan.row⟩ := by
  obtain ⟨i, source, plan, hsource, hplan, hentry⟩ := mem_planEntries.mp hentry
  obtain ⟨on, hon, rfl⟩ := RowPlan.mem_entries.mp hentry
  obtain ⟨rfl, hplace⟩ := gateRowId_inj hid
  rw [Nat.zero_add] at hplace
  subst hplace
  obtain rfl : row = source := by simpa using hsource
  rw [Nat.zero_add]
  exact ⟨plan, hplan, hon, rfl⟩

lemma matcher_of_planEntries : ∀ entry ∈ planEntries options 0 rows, entry.matcher = none := by
  intro entry hentry
  obtain ⟨i, source, plan, _, _, hentry⟩ := mem_planEntries.mp hentry
  obtain ⟨on, _, rfl⟩ := RowPlan.mem_entries.mp hentry
  rfl

section Ties
variable {options : CompileOptions} {a b : PolicyRow} {hi lo lo' : List PolicyRow} {planA planB : RowPlan} {point : PointId}
  {s t : PolicySnapshot}

def RowPlan.own (options : CompileOptions) (plan : RowPlan) (order : ℕ) (point : PointId) : StoredEntry :=
  ⟨plan.gateRow options order point, none, none, some plan.row⟩

lemma own_of_id (hplanA : rowPlan options a = some planA) : ∀ entry ∈ planEntries options 0 (hi ++ a :: lo),
    entry.id = gateRowId a.name point hi.length → entry = planA.own options hi.length point := by
  intro entry hentry hid
  obtain ⟨plan, hplan, _, rfl⟩ := entry_at hentry hid
  rw [hplanA] at hplan
  cases hplan
  rfl

lemma own_id (ha : PlannedRow options a planA point) :
    (planA.own options hi.length point).id = gateRowId a.name point hi.length := by
  rw [← ha.name]
  rfl

lemma own_mem (hplanA : rowPlan options a = some planA) (ha : PlannedRow options a planA point) :
    planA.own options hi.length point ∈ planEntries options 0 (hi ++ a :: lo) := by
  refine mem_planEntries.mpr ⟨hi.length, a, planA, by simp, hplanA, ?_⟩
  rw [Nat.zero_add]
  exact RowPlan.mem_entries.mpr ⟨point, ha.mem_points, rfl⟩

theorem id_unknown {name : String} (hplanB : rowPlan options b = some planB) (hapart : point ∉ planB.points) :
    ∀ entry ∈ planEntries options 0 (hi ++ b :: lo), entry.id ≠ gateRowId name point hi.length := by
  intro entry hentry hid
  obtain ⟨plan, hplan, hmem, _⟩ := entry_at hentry hid
  rw [hplanB] at hplan
  cases hplan
  exact hapart hmem

lemma row_known (hs : CompiledFrom options s (planEntries options 0 (hi ++ a :: lo)))
    (hplanA : rowPlan options a = some planA) (ha : PlannedRow options a planA point) :
    s.rowById.get? (gateRowId a.name point hi.length) = some planA.row := by
  rw [hs.rows]
  cases hfind : (planEntries options 0 (hi ++ a :: lo)).find? (·.id = gateRowId a.name point hi.length) with
  | none =>
    rw [find?_eq_none] at hfind
    exact absurd (decide_eq_true (own_id ha)) (hfind _ (own_mem hplanA ha))
  | some entry =>
    have hid : entry.id = gateRowId a.name point hi.length := by
      simpa using find?_some hfind
    obtain rfl := own_of_id hplanA entry (mem_of_find?_eq_some hfind) hid
    rfl

lemma row_unknown (ht : CompiledFrom options t (planEntries options 0 (hi ++ b :: lo)))
    (hplanB : rowPlan options b = some planB) (hapart : point ∉ planB.points) (name : String) :
    t.rowById.get? (gateRowId name point hi.length) = none := by
  have hfind : (planEntries options 0 (hi ++ b :: lo)).find? (·.id = gateRowId name point hi.length) = none := by
    rw [find?_eq_none]
    intro entry hentry hid
    exact id_unknown hplanB hapart entry hentry (of_decide_eq_true hid)
  rw [ht.rows, hfind]
  rfl

lemma own_readsContext (order : ℕ) (on : PointId) :
    (planA.own options order on).readsContext = planA.row.match.message.isSome := rfl

variable [PlainCoding]

theorem replays_other (ht : CompiledFrom options t (planEntries options 0 (hi ++ b :: lo)))
    (hplanB : rowPlan options b = some planB) (hapart : point ∉ planB.points) (row : PolicyRow) (name : String)
    (output : PlainValue) : replays t (row.input.pointInput point) row.input.hash
      (recordedDecision row point options.generation [gateRowId name point hi.length] output) = true := by
  rw [replays_recorded ht matcher_of_planEntries]
  intro entry hentry _ hid
  rw [ht.entries point] at hentry
  exact id_unknown hplanB hapart entry (mem_filter.mp hentry).1 (mem_singleton.mp hid)

theorem replays_own (hs : CompiledFrom options s (planEntries options 0 (hi ++ a :: lo)))
    (hplanA : rowPlan options a = some planA) (ha : PlannedRow options a planA point) (row : PolicyRow)
    (output : PlainValue) : replays s (row.input.pointInput point) row.input.hash
      (recordedDecision row point options.generation [gateRowId a.name point hi.length] output) = true ↔
      planA.row.match.message = none := by
  rw [replays_recorded hs matcher_of_planEntries]
  constructor
  · intro h
    have hentry : planA.own options hi.length point ∈ s.entries point := by
      rw [hs.entries point]
      exact mem_filter.mpr ⟨own_mem hplanA ha, decide_eq_true rfl⟩
    by_contra hmessage
    rw [← ne_eq, ← Option.isSome_iff_ne_none] at hmessage
    exact h _ hentry hmessage (mem_singleton.mpr (own_id ha))
  · intro hmessage entry hentry hreads hid
    rw [hs.entries point] at hentry
    obtain rfl := own_of_id hplanA entry (mem_filter.mp hentry).1 (mem_singleton.mp hid)
    rw [own_readsContext, hmessage] at hreads
    cases hreads

theorem swapped_differ (hs : CompiledFrom options s (planEntries options 0 (hi ++ a :: lo)))
    (ht : CompiledFrom options t (planEntries options 0 (hi ++ b :: lo'))) (hplanA : rowPlan options a = some planA)
    (ha : PlannedRow options a planA point) (hplanB : rowPlan options b = some planB) (hapart : point ∉ planB.points) :
    ¬ SameAnswers s t := by
  intro hsame
  have htable : s.pointTable.contains point = true := hs.pointTable ▸ ha.table
  have htable' : t.pointTable.contains point = true := ht.pointTable ▸ ha.table
  have hanswers := fun output => hsame.operation { a.input with
    recorded := some (recordedDecision a point options.generation [gateRowId a.name point hi.length] output) } {}
  simp only [evaluate_recorded ha.operation htable, evaluate_recorded ha.operation htable',
    replays_own hs hplanA ha, replays_other ht hplanB hapart, if_true] at hanswers
  by_cases hmessage : planA.row.match.message = none
  · -- Both orders take the decision, and only one knows the row it names.
    simp only [hmessage, if_true] at hanswers
    have hmatched := congrArg PolicyAnswer.matched (Option.some.inj (hanswers .null))
    change ([gateRowId a.name point hi.length].filterMap s.rowById.get?).map (·.name) =
      ([gateRowId a.name point hi.length].filterMap t.rowById.get?).map (·.name) at hmatched
    simp [row_known hs hplanA ha, row_unknown ht hplanB hapart] at hmatched
  · -- The row reads a message and there is none, so its own order takes a new decision.
    simp only [hmessage, if_false] at hanswers
    obtain ⟨output, hother⟩ : ∃ output, (freshFold s a point).map (·.1.value) ≠ some output := by
      by_cases hnull : (freshFold s a point).map (·.1.value) = some .null
      · exact ⟨.bool true, by simp [hnull]⟩
      · exact ⟨.null, hnull⟩
    obtain ⟨folded, hfold, hfolded⟩ := Option.map_eq_some_iff.mp (hanswers output)
    apply hother
    rw [hfold]
    exact congrArg (fun answer => some answer.value) hfolded

theorem tied_differ {collation : Collation} {rest : List PolicyRow} (hpriority : a.priority = b.priority)
    (hname : a.name = b.name) (hoperation : ¬ (a.kind = b.kind ∧ a.phase = b.phase))
    (hs : compile collation options (a :: b :: rest) = .ok s) (ht : compile collation options (b :: a :: rest) = .ok t) :
    ¬ SameAnswers s t := by
  have hadmitted := (compile_isOk.mp (isOk_iff.mpr ⟨s, hs⟩)).rows
  obtain ⟨planA, hplanA⟩ := Option.isSome_iff_exists.mp (hadmitted a (by simp))
  obtain ⟨planB, hplanB⟩ := Option.isSome_iff_exists.mp (hadmitted b (by simp))
  obtain ⟨pointA, ha⟩ := planned hplanA
  obtain ⟨pointB, hb⟩ := planned hplanB
  obtain ⟨hi, lo, hsorted, hsorted'⟩ := sortedRows_tie collation hpriority hname rest
  have hfrom := hsorted ▸ compile_from hs
  have hfrom' := hsorted' ▸ compile_from ht
  rcases apart ha hb hoperation with hapart | hapart
  · exact swapped_differ hfrom hfrom' hplanA ha hplanB hapart
  · intro hsame
    exact swapped_differ hfrom' hfrom hplanB hb hplanA hapart hsame.symm

end Ties

/-- The order of the rows does not show exactly where the set is refused or no two of its rows share priority and
name. -/
theorem policy_order_independent [PlainCoding] (collation : Collation) (options : CompileOptions)
    (rows : List PolicyRow) (hdistinct : (rows.map PolicyRow.key).Nodup) :
    OrderIndependent collation options rows ↔ (AdmittedRows options rows → Untied rows) := by
  constructor
  · intro h hadmitted a ha b hb hpriority hname
    by_contra hne
    have hoperation : ¬ (a.kind = b.kind ∧ a.phase = b.phase) := by
      intro heq
      apply hne
      apply inj_on_of_nodup_map hdistinct ha hb
      rw [PolicyRow.key, PolicyRow.key, hname, heq.1, heq.2]
    have hrest : b ∈ rows.erase a := (mem_erase_of_ne fun heq => hne heq.symm).mpr hb
    have hperm : (a :: b :: (rows.erase a).erase b).Perm rows :=
      ((perm_cons_erase hrest).symm.cons a).trans (perm_cons_erase ha).symm
    have hperm' : (b :: a :: (rows.erase a).erase b).Perm rows := (List.Perm.swap a b _).trans hperm
    have hcompiles : ∀ l : List PolicyRow, l.Perm rows → ∃ s, compile collation options l = .ok s :=
      fun l hl => isOk_iff.mp (compile_isOk.mpr (hadmitted.perm hl.symm))
    obtain ⟨s, hs⟩ := hcompiles _ hperm
    obtain ⟨t, ht⟩ := hcompiles _ hperm'
    exact tied_differ hpriority hname hoperation hs ht ((h _ _ hperm hperm').2 s t hs ht).2
  · intro h l l' hl hl'
    have hperm := hl.trans hl'.symm
    have hokay : isOk (compile collation options l) = isOk (compile collation options l') := by
      rw [Bool.eq_iff_iff, compile_isOk, compile_isOk]
      exact ⟨fun hadmitted => hadmitted.perm hperm, fun hadmitted => hadmitted.perm hperm.symm⟩
    refine ⟨hokay, ?_⟩
    intro s t hs ht
    have hadmitted : AdmittedRows options rows := (compile_isOk.mp (isOk_iff.mpr ⟨s, hs⟩)).perm hl
    have huntied : Untied l := fun a ha b hb =>
      h hadmitted a (hl.mem_iff.mp ha) b (hl.mem_iff.mp hb)
    have hkeys : (l.map PolicyRow.key).Nodup := ((hl.map PolicyRow.key).nodup_iff).mpr hdistinct
    rw [compile_perm hperm hkeys huntied hs] at ht
    cases ht
    exact ⟨rfl, .refl s⟩

namespace GateSample

attribute [local instance] textCoding

def byCode : Collation where
  le := fun a b => a ≤ b
  total := fun a b => by simpa using le_total a b
  trans := fun hab hbc => by simpa using le_trans (of_decide_eq_true hab) (of_decide_eq_true hbc)
  antisymm := fun hab hba => le_antisymm (of_decide_eq_true hab) (of_decide_eq_true hba)

def budgets : CompileOptions where
  generation := 1
  kinds := defaultKinds
  mandatory := []
  table := kernelPointTable
  registry := ⟨[], ["kernel/budget-clamp"], [], []⟩

def compactionRow : PolicyRow := ⟨"compaction", "compaction", .pre, .obj [], .obj [("type", .str "allow")], 1000, 1⟩

def cap (kind : String) (phase : Phase) (op metric : String) (limit : ℕ) : PolicyRow where
  name := "cap"
  kind := kind
  phase := phase
  «match» := .obj [("op", .str op)]
  verdict := .obj [("type", .str "obligation"), ("ref", .str "kernel/budget-clamp"), ("metric", .str metric),
    ("limit", .num limit)]
  priority := 900
  generation := 1

def turnCap : PolicyRow := cap "turn" .post "continue" "continuation" 8
def toolCap : PolicyRow := cap "tool" .pre "send_message" "fanout" 8

def continued : PolicyEvaluationInput where
  kind := "turn"
  phase := .post
  op := some "continue"
  value := .null

def underOrder (rows : List PolicyRow) (input : PolicyEvaluationInput) : Option PolicyEvaluation :=
  match compile byCode budgets rows with
  | .error _ => none
  | .ok s => evaluate s input {}

/-- One cap on turns and one on tools under one name: a decision recorded under one order of the two is replayed under
the other one without the obligation it was made for. -/
theorem recorded_obligation_lost : ([compactionRow, turnCap, toolCap].map PolicyRow.key).Nodup ∧
    ¬ OrderIndependent byCode budgets [compactionRow, turnCap, toolCap] := by
  refine ⟨by decide, fun h => ?_⟩
  have hperm : [compactionRow, toolCap, turnCap].Perm [compactionRow, turnCap, toolCap] :=
    (List.Perm.swap turnCap toolCap []).cons compactionRow
  have hdiffer : ∃ decision, (underOrder [compactionRow, turnCap, toolCap] continued).bind (·.gate) = some decision ∧
      (underOrder [compactionRow, turnCap, toolCap] { continued with recorded := some decision }).map (·.verdict) =
        some .obligation ∧
      (underOrder [compactionRow, toolCap, turnCap] { continued with recorded := some decision }).map (·.verdict) =
        some .allow := by
    have hfacts : ((underOrder [compactionRow, turnCap, toolCap] continued).bind (·.gate)).map (fun decision =>
        ((underOrder [compactionRow, turnCap, toolCap] { continued with recorded := some decision }).map (·.verdict),
          (underOrder [compactionRow, toolCap, turnCap] { continued with recorded := some decision }).map (·.verdict))) =
        some (some .obligation, some .allow) := by
      decide
    obtain ⟨decision, hdecision, hverdicts⟩ := Option.map_eq_some_iff.mp hfacts
    exact ⟨decision, hdecision, congrArg Prod.fst hverdicts, congrArg Prod.snd hverdicts⟩
  obtain ⟨decision, _, hfirst, hsecond⟩ := hdiffer
  unfold underOrder at hfirst hsecond
  cases hs : compile byCode budgets [compactionRow, turnCap, toolCap] with
  | error error => simp [hs] at hfirst
  | ok s =>
    cases ht : compile byCode budgets [compactionRow, toolCap, turnCap] with
    | error error => simp [ht] at hsecond
    | ok t =>
      have hanswers := ((h _ _ (List.Perm.refl _) hperm).2 s t hs ht).2.operation
        { continued with recorded := some decision } {}
      have hverdicts := congrArg (Option.map PolicyAnswer.verdict) hanswers
      rw [Option.map_map, Option.map_map] at hverdicts
      simp only [hs, ht] at hfirst hsecond
      have hsame := hfirst.symm.trans (hverdicts.trans hsecond)
      cases hsame

/-- The same caps under two names. -/
theorem policy_order_independent_caps :
    OrderIndependent byCode budgets [compactionRow, { turnCap with name := "continuation-cap" }, toolCap] := by
  apply (policy_order_independent byCode budgets _ (by decide)).mpr
  intro _
  decide

end GateSample
end OpenOmni
