import OpenOmni.Gate.Compile

/-! What a compilation accepts, row by row, and the tables it builds. -/
namespace OpenOmni
open List

open PlainValue

/-- What an accepted row compiles to, at any place in the order. -/
structure RowPlan where
  row : CompiledRow
  «do» : PointDo
  how : GateHow
  points : List PointId

def isOk {ε α : Type*} : Except ε α → Bool
  | .ok _ => true
  | .error _ => false

/-- The plan of a row; `none` where the row is refused on its own account. -/
def rowPlan (options : CompileOptions) (source : PolicyRow) : Option RowPlan :=
  if isLegacyRow source then none
  else match parseRow source options.generation options.kinds options.registry with
    | .error _ => none
    | .ok row =>
      match (policyPoint row.kind row.phase).filter options.table.contains with
      | none => none
      | some point =>
        match projectedDoHow row with
        | .error _ => none
        | .ok doHow =>
          if (rowPoints options.table row point).all fun on =>
              isOk (admitRow options.table options.registry.names (storedGateRow options row doHow 0 on)) then
            some ⟨row, doHow.1, doHow.2, rowPoints options.table row point⟩
          else none

def RowPlan.gateRow (options : CompileOptions) (plan : RowPlan) (order : ℕ) (on : PointId) : GateRow :=
  storedGateRow options plan.row (plan.do, plan.how) order on

def RowPlan.entries (options : CompileOptions) (plan : RowPlan) (order : ℕ) : List StoredEntry :=
  plan.points.map fun on => ⟨plan.gateRow options order on, none, none, some plan.row⟩

variable {table : Dict PointId PointRecord} {names : List String} {row row' : GateRow} {doHow : PointDo × GateHow}
  {c c' : Compiling} {flat : List StoredEntry} {options : CompileOptions} {order rowIndex : ℕ} {entry : StoredEntry}
  {source : PolicyRow}

theorem isOk_admitRow (h : row.do ≠ .emit) : isOk (admitRow table names row) =
      ((table.get? row.on).elim false fun record => (actionFault record row).isNone && (howFault names row).isNone) := by
  have hnone : ∀ record, emitOf record row = .ok none := by
    intro record
    unfold emitOf
    rw [if_pos h]
  unfold admitRow
  cases table.get? row.on with
  | none => rfl
  | some record =>
    simp only [hnone, Option.elim_some]
    cases actionFault record row with
    | some fault => rfl
    | none =>
      cases howFault names row with
      | some fault | none => rfl

lemma admitRow_emit (h : row.do ≠ .emit) {emit : Option EmitKind} (hadmitted : admitRow table names row = .ok emit) :
    emit = none := by
  unfold admitRow at hadmitted
  split at hadmitted
  · cases hadmitted
  · split at hadmitted
    · cases hadmitted
    · have hnone : ∀ record, emitOf record row = .ok none := by
        intro record
        unfold emitOf
        rw [if_pos h]
      rw [hnone] at hadmitted
      simp only [] at hadmitted
      split at hadmitted
      · cases hadmitted
      · exact (Except.ok.inj hadmitted).symm

lemma actionFault_congr {record : PointRecord} (hdo : row.do = row'.do) (hwhen : row.when = row'.when)
    (hhow : row.how = row'.how) : actionFault record row = actionFault record row' := by
  unfold actionFault
  rw [hdo, hwhen, hhow]

lemma howFault_congr (hdo : row.do = row'.do) (hhow : row.how = row'.how) :
    howFault names row = howFault names row' := by
  unfold howFault GateRow.allowedRefs
  rw [hdo, hhow]

theorem admitRow_order (table : Dict PointId PointRecord) (names : List String) (options : CompileOptions)
    (row : CompiledRow) (hemit : doHow.1 ≠ .emit) (order : ℕ) (on : PointId) :
    isOk (admitRow table names (storedGateRow options row doHow order on)) =
      isOk (admitRow table names (storedGateRow options row doHow 0 on)) := by
  have haction : ∀ record, actionFault record (storedGateRow options row doHow order on) =
      actionFault record (storedGateRow options row doHow 0 on) := fun _ => actionFault_congr rfl rfl rfl
  have hhow : howFault names (storedGateRow options row doHow order on) =
      howFault names (storedGateRow options row doHow 0 on) := howFault_congr rfl rfl
  have hon : (storedGateRow options row doHow order on).on = (storedGateRow options row doHow 0 on).on := rfl
  have hdo : (storedGateRow options row doHow order on).do ≠ .emit := hemit
  have hdo' : (storedGateRow options row doHow 0 on).do ≠ .emit := hemit
  rw [isOk_admitRow hdo, isOk_admitRow hdo', hhow, hon]
  simp only [haction]

lemma projectedDoHow_emit {row : CompiledRow} (h : projectedDoHow row = .ok doHow) : doHow.1 ≠ .emit := by
  unfold projectedDoHow at h
  split at h
  · split at h
    · cases h
    · cases h
      simp
  · cases h
    simp only []
    split <;> simp
  all_goals
    cases h
    simp

structure Built (c : Compiling) (flat : List StoredEntry) : Prop where
  entries : ∀ point, c.entries point = flat.filter (·.row.on = point)
  rows : ∀ id, c.rowById.get? id = (flat.find? (·.id = id)).bind (·.policy)
  seen : ∀ id, id ∈ c.seen ↔ id ∈ flat.map CompiledEntry.id

lemma built_empty : Built {} [] := ⟨fun _ => rfl, fun _ => rfl, fun _ => by simp⟩

lemma Built.push (hb : Built c flat) (row : GateRow) (emit : Option EmitKind) (policy : CompiledRow)
    (h : row.id ∉ c.seen) : Built (c.push row emit policy h) (flat ++ [⟨row, emit, none, some policy⟩]) where
  entries := by
    intro point
    change (((c.byPoint.set row.on _).get? point).getD []) = _
    rw [Dict.get?_set, filter_append]
    by_cases hpoint : point = row.on
    · subst hpoint
      have hold := hb.entries row.on
      rw [if_pos rfl, Option.getD_some, hold]
      simp
    · have hold := hb.entries point
      have hne : ¬ row.on = point := fun heq => hpoint heq.symm
      rw [if_neg hpoint]
      change c.entries point = _
      rw [hold]
      simp [hne]
  rows := by
    intro id
    change (c.rowById.set row.id policy).get? id = _
    rw [Dict.get?_set, find?_append]
    by_cases hid : id = row.id
    · subst hid
      have hnone : flat.find? (fun e => decide (e.id = row.id)) = none := by
        rw [find?_eq_none]
        intro e he heq
        rw [hb.seen] at h
        exact h (mem_map.mpr ⟨e, he, of_decide_eq_true heq⟩)
      rw [if_pos rfl, hnone]
      simp [CompiledEntry.id]
    · have hne : ¬ row.id = id := fun heq => hid heq.symm
      rw [if_neg hid, hb.rows id]
      simp [CompiledEntry.id, hne]
  seen := by
    intro id
    change id ∈ row.id :: c.seen ↔ _
    rw [mem_cons, hb.seen, map_append, mem_append]
    simp [CompiledEntry.id, or_comm]

theorem insert_points {row : CompiledRow} (hemit : doHow.1 ≠ .emit) (order : ℕ) (points : List PointId)
    (hpoints : points.Nodup) (hb : Built c flat) (hnew : ∀ on ∈ points, gateRowId row.name on order ∉ c.seen) :
    (isOk (points.foldlM (fun c on => c.insert options.table options.registry.names
        (storedGateRow options row doHow order on) row) c) =
      points.all fun on => isOk (admitRow options.table options.registry.names (storedGateRow options row doHow 0 on))) ∧
      ∀ c', points.foldlM (fun c on => c.insert options.table options.registry.names
          (storedGateRow options row doHow order on) row) c = .ok c' →
        Built c' (flat ++ points.map fun on => ⟨storedGateRow options row doHow order on, none, none, some row⟩) := by
  induction points generalizing c flat with
  | nil =>
    refine ⟨rfl, fun c' h => ?_⟩
    cases h
    simpa using hb
  | cons on points ih =>
    have hok := admitRow_order options.table options.registry.names options row hemit order on
    have hon : (storedGateRow options row doHow order on).id ∉ c.seen := hnew on mem_cons_self
    have hinsert : c.insert options.table options.registry.names (storedGateRow options row doHow order on) row =
        (admitRow options.table options.registry.names (storedGateRow options row doHow order on)).map
          fun emit => c.push (storedGateRow options row doHow order on) emit row hon := by
      unfold Compiling.insert
      rw [dif_neg hon]
      cases admitRow options.table options.registry.names (storedGateRow options row doHow order on) <;> rfl
    rw [foldlM_cons, hinsert, all_cons, ← hok]
    cases hadmitted : admitRow options.table options.registry.names (storedGateRow options row doHow order on) with
    | error error => exact ⟨rfl, fun c' h => nomatch h⟩
    | ok emit =>
      have hdo : (storedGateRow options row doHow order on).do ≠ .emit := hemit
      obtain rfl := admitRow_emit hdo hadmitted
      have hpushed := hb.push (storedGateRow options row doHow order on) none row hon
      have hnot := (nodup_cons.mp hpoints).1
      have hrest : ∀ other ∈ points, gateRowId row.name other order ∉
          (c.push (storedGateRow options row doHow order on) none row hon).seen := by
        intro other hother hmem
        rcases mem_cons.mp hmem with heq | hmem
        · obtain ⟨rfl, _⟩ := gateRowId_inj heq
          exact hnot hother
        · exact hnew other (mem_cons_of_mem on hother) hmem
      obtain ⟨hall, hbuilt⟩ := ih (nodup_cons.mp hpoints).2 hpushed hrest
      refine ⟨hall, fun c' h => ?_⟩
      have hc' := hbuilt c' h
      rwa [append_assoc] at hc'

def planEntries (options : CompileOptions) : ℕ → List PolicyRow → List StoredEntry
  | _, [] => []
  | order, source :: rows =>
    ((rowPlan options source).elim [] (·.entries options order)) ++ planEntries options (order + 1) rows

def SeenBefore (c : Compiling) (order : ℕ) : Prop :=
  ∀ id ∈ c.seen, ∃ name on k, id = gateRowId name on k ∧ k < order

lemma rowPoints_nodup (table : Dict PointId PointRecord) (row : CompiledRow) (point : PointId) :
    (rowPoints table row point).Nodup := by
  unfold rowPoints
  split
  · rename_i h
    rw [h.1]
    decide
  · simp

lemma compileRow_built (hb : Built c flat) (hseen : SeenBefore c order) (source : PolicyRow) (rowIndex : ℕ) :
    (isOk (compileRow options c source rowIndex order) = (rowPlan options source).isSome) ∧
      ∀ c', compileRow options c source rowIndex order = .ok c' →
        Built c' (flat ++ (rowPlan options source).elim [] (·.entries options order)) := by
  unfold compileRow rowPlan
  by_cases hlegacy : isLegacyRow source = true
  · simp only [hlegacy, if_true]
    exact ⟨rfl, by rintro _ ⟨⟩⟩
  · rw [if_neg hlegacy, if_neg hlegacy]
    cases parseRow source options.generation options.kinds options.registry with
    | error error => exact ⟨rfl, by rintro _ ⟨⟩⟩
    | ok row =>
      simp only []
      cases (policyPoint row.kind row.phase).filter options.table.contains with
      | none => exact ⟨rfl, by rintro _ ⟨⟩⟩
      | some point =>
        simp only []
        cases hdo : projectedDoHow row with
        | error error => exact ⟨rfl, by rintro _ ⟨⟩⟩
        | ok doHow =>
          simp only []
          have hnew : ∀ on ∈ rowPoints options.table row point, gateRowId row.name on order ∉ c.seen := by
            intro on _ hmem
            obtain ⟨name, on', k, heq, hk⟩ := hseen _ hmem
            obtain ⟨_, rfl⟩ := gateRowId_inj heq
            exact lt_irrefl _ hk
          obtain ⟨hok, hbuilt⟩ := insert_points (projectedDoHow_emit hdo) order _
            (rowPoints_nodup options.table row point) hb hnew
          rw [← hok]
          cases hfold : (rowPoints options.table row point).foldlM (fun c on => c.insert options.table
              options.registry.names (storedGateRow options row doHow order on) row) c with
          | error error => exact ⟨rfl, by rintro _ ⟨⟩⟩
          | ok last =>
            refine ⟨rfl, fun c' h => ?_⟩
            cases h
            exact hbuilt _ hfold

lemma mem_planEntries {rows : List PolicyRow} :
    entry ∈ planEntries options order rows ↔ ∃ i source plan, rows[i]? = some source ∧
      rowPlan options source = some plan ∧ entry ∈ plan.entries options (order + i) := by
  induction rows generalizing order with
  | nil => simp [planEntries]
  | cons first rows ih =>
    unfold planEntries
    rw [mem_append, ih]
    constructor
    · rintro (hfirst | ⟨i, source, plan, hsource, hplan, hentry⟩)
      · cases hplan : rowPlan options first with
        | none => simp [hplan] at hfirst
        | some plan =>
          rw [hplan] at hfirst
          exact ⟨0, first, plan, rfl, hplan, hfirst⟩
      · refine ⟨i + 1, source, plan, hsource, hplan, ?_⟩
        rwa [Nat.add_comm i 1, ← Nat.add_assoc]
    · rintro ⟨i, source, plan, hsource, hplan, hentry⟩
      cases i with
      | zero =>
        left
        obtain rfl : first = source := by simpa using hsource
        rw [hplan]
        exact hentry
      | succ i =>
        right
        refine ⟨i, source, plan, by simpa using hsource, hplan, ?_⟩
        rwa [Nat.add_assoc, Nat.add_comm 1 i]

lemma RowPlan.mem_entries {plan : RowPlan} : entry ∈ plan.entries options order ↔
      ∃ on ∈ plan.points, entry = ⟨plan.gateRow options order on, none, none, some plan.row⟩ := by
  unfold RowPlan.entries
  rw [mem_map]
  exact exists_congr fun on => and_congr_right fun _ => eq_comm

lemma compileRow_seen (hb : Built c flat) (hseen : SeenBefore c order)
    (h : compileRow options c source rowIndex order = .ok c') : SeenBefore c' (order + 1) := by
  have hbuilt := (compileRow_built hb hseen source rowIndex).2 c' h
  intro id hid
  rw [hbuilt.seen, map_append, mem_append] at hid
  rcases hid with hold | hnew
  · obtain ⟨name, on, k, heq, hk⟩ := hseen id ((hb.seen id).mpr hold)
    exact ⟨name, on, k, heq, Nat.lt_succ_of_lt hk⟩
  · obtain ⟨entry, hentry, rfl⟩ := mem_map.mp hnew
    cases hplan : rowPlan options source with
    | none => simp [hplan] at hentry
    | some plan =>
      rw [hplan] at hentry
      obtain ⟨on, _, rfl⟩ := RowPlan.mem_entries.mp hentry
      exact ⟨plan.row.name, on, order, rfl, Nat.lt_succ_self order⟩

theorem compileRows_built (rows : List (PolicyRow × ℕ)) (hb : Built c flat) (hseen : SeenBefore c order) :
    (isOk (compileRows options c order rows) = (rows.map Prod.fst).all fun source => (rowPlan options source).isSome) ∧
      ∀ c', compileRows options c order rows = .ok c' →
        Built c' (flat ++ planEntries options order (rows.map Prod.fst)) := by
  induction rows generalizing c flat order with
  | nil =>
    refine ⟨rfl, fun c' h => ?_⟩
    cases h
    simpa [planEntries] using hb
  | cons source rows ih =>
    obtain ⟨hok, hbuilt⟩ := compileRow_built hb hseen source.1 source.2
    unfold compileRows
    rw [map_cons, all_cons, ← hok]
    cases hrow : compileRow options c source.1 source.2 order with
    | error error => exact ⟨rfl, fun c' h => nomatch h⟩
    | ok next =>
      obtain ⟨hall, hrest⟩ := ih (hbuilt next hrow) (compileRow_seen hb hseen hrow)
      refine ⟨hall, fun c' h => ?_⟩
      have hc' := hrest c' h
      rwa [append_assoc] at hc'

theorem compileRow_index (h : compileRow options c source rowIndex order = .ok c') (other : ℕ) :
    compileRow options c source other order = .ok c' := by
  unfold compileRow at h ⊢
  split at h
  · cases h
  · rename_i hlegacy
    rw [if_neg hlegacy]
    exact h

lemma compileRows_index {rows rows' : List (PolicyRow × ℕ)} (hrows : rows.map Prod.fst = rows'.map Prod.fst)
    (h : compileRows options c order rows = .ok c') : compileRows options c order rows' = .ok c' := by
  induction rows generalizing rows' c order with
  | nil =>
    obtain rfl : rows' = [] := by simpa using hrows.symm
    exact h
  | cons source rows ih =>
    cases rows' with
    | nil => cases hrows
    | cons source' rows' =>
      obtain ⟨hfirst, hrest⟩ := List.cons.inj hrows
      unfold compileRows at h ⊢
      cases hrow : compileRow options c source.1 source.2 order with
      | error error =>
        rw [hrow] at h
        cases h
      | ok next =>
        rw [hrow] at h
        rw [← hfirst, compileRow_index hrow source'.2]
        exact ih hrest h

end OpenOmni
