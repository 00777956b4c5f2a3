import OpenOmni.Session.RequestInputs

/-! The latest row of a request and what a write does to it and to its deadline's armed row. -/
namespace OpenOmni
open List
open Option (bind_eq_some_iff)

open SessionTransition PlainValue

theorem fields_of_ofPlain {v : PlainValue} {request : Request} (h : Request.ofPlain v = some request) :
    field v "requestId" readId = some request.requestId ∧
      field v "sessionId" readId = some request.sessionId ∧
      field v "deadline" readEpoch = some request.deadline ∧
      field v "state" (readEnum RequestState.members RequestState.text) = some request.state := by
  obtain ⟨-, -, h⟩ := bind_eq_some_iff.mp h
  obtain ⟨requestId, hid, h⟩ := bind_eq_some_iff.mp h
  obtain ⟨sessionId, hsession, h⟩ := bind_eq_some_iff.mp h
  iterate 11 obtain ⟨_, -, h⟩ := bind_eq_some_iff.mp h
  obtain ⟨deadline, hdeadline, h⟩ := bind_eq_some_iff.mp h
  iterate 8 obtain ⟨_, -, h⟩ := bind_eq_some_iff.mp h
  obtain ⟨state, hstate, h⟩ := bind_eq_some_iff.mp h
  iterate 3 obtain ⟨_, -, h⟩ := bind_eq_some_iff.mp h
  cases h
  exact ⟨hid, hsession, hdeadline, hstate⟩

theorem ofPlain_toPlain_fields {request read : Request} (h : Request.ofPlain request.toPlain = some read) :
    read.requestId = request.requestId ∧ read.sessionId = request.sessionId ∧
      read.deadline = request.deadline ∧ read.state = request.state := by
  obtain ⟨hid, hsession, hdeadline, hstate⟩ := fields_of_ofPlain h
  simp only [field, Request.get?_toPlain] at hid hsession hdeadline hstate
  have hid' : readId (.str request.requestId) = some read.requestId := by
    simpa [Request.slots, List.lookup] using hid
  have hsession' : readId (.str request.sessionId) = some read.sessionId := by
    simpa [Request.slots, List.lookup] using hsession
  have hdeadline' : readEpoch (.num request.deadline) = some read.deadline := by
    simpa [Request.slots, List.lookup] using hdeadline
  have hstate' : readEnum RequestState.members RequestState.text (.str request.state.text) =
      some read.state := by
    simpa [Request.slots, List.lookup] using hstate
  have hmember : request.state ∈ RequestState.members := by cases request.state <;> decide
  rw [readEnum_text (by decide) hmember, Option.some.injEq] at hstate'
  refine ⟨?_, ?_, ?_, hstate'.symm⟩
  · exact (PlainValue.str.inj (readId_some hid')).symm
  · exact (PlainValue.str.inj (readId_some hsession')).symm
  · rw [readEpoch, asNum_num, Option.filter] at hdeadline'
    split at hdeadline'
    · exact (Option.some.inj hdeadline').symm
    · contradiction

section
variable [PlainCoding] {db db' : Db} {rows : List Append} {requestId : String}

def carriesRequest (requestId : String) (action : Append) : Bool :=
  action.kind = .request &&
    jsonExtract action.effect ["request", "requestId"] = some (.text requestId)

lemma Wrote.requestStates (h : Wrote rows db db') (requestId : String) :
    ∃ new : List Node, db'.actions = db.actions ++ new ∧ new.map (·.toAppend) = rows ∧
      db'.requestStates requestId = db.requestStates requestId ++
        new.filter (carriesRequest requestId ·.toAppend) := by
  obtain ⟨new, hactions, hnew⟩ := h.actions
  refine ⟨new, hactions, hnew, ?_⟩
  rw [Db.requestStates, hactions, filter_append, Db.requestStates]
  rfl

theorem Wrote.requestStateById_eq (h : Wrote rows db db')
    (hother : ∀ a ∈ rows, carriesRequest requestId a = false) :
    db'.requestStateById requestId = db.requestStateById requestId := by
  obtain ⟨new, -, rfl, hstates⟩ := h.requestStates requestId
  have hnil : new.filter (carriesRequest requestId ·.toAppend) = [] := by
    rw [filter_eq_nil_iff]
    intro node hnode
    simpa using hother node.toAppend (mem_map_of_mem hnode)
  rw [Db.requestStateById, hstates, hnil, append_nil, Db.requestStateById]

theorem Wrote.requestStateById_new (h : Wrote rows db db')
    (hsome : ∃ a ∈ rows, carriesRequest requestId a = true) :
    ∃ row ∈ db'.actions, db'.requestStateById requestId = some row ∧ row.toAppend ∈ rows ∧
      carriesRequest requestId row.toAppend = true := by
  obtain ⟨new, hactions, rfl, hstates⟩ := h.requestStates requestId
  obtain ⟨a, ha, hcarries⟩ := hsome
  obtain ⟨node, hnode, rfl⟩ := mem_map.mp ha
  have hne : new.filter (carriesRequest requestId ·.toAppend) ≠ [] := by
    intro hnil
    have hfalse := filter_eq_nil_iff.mp hnil node hnode
    simp [hcarries] at hfalse
  obtain ⟨last, hlast⟩ := Option.isSome_iff_exists.mp (getLast?_isSome.mpr hne)
  have hmem := mem_filter.mp (mem_of_getLast? hlast)
  refine ⟨last, ?_, ?_, mem_map_of_mem hmem.1, hmem.2⟩
  · rw [hactions]
    exact mem_append_right _ hmem.1
  · rw [Db.requestStateById, hstates, getLast?_append, hlast]
    rfl

end

def ArmedKeys (armed : List ArmedRow) : Prop := (armed.map (·.alarmId)).Nodup

section
variable {armed armed' : List ArmedRow}

lemma ArmedKeys.find? (h : ArmedKeys armed) {row : ArmedRow} (hrow : row ∈ armed) :
    armed.find? (·.alarmId = row.alarmId) = some row := by
  cases hfind : armed.find? (·.alarmId = row.alarmId) with
  | none =>
    have hnone := find?_eq_none.mp hfind row hrow
    simp at hnone
  | some found =>
    have hid : found.alarmId = row.alarmId := by simpa using find?_some hfind
    rw [inj_on_of_nodup_map h (mem_of_find?_eq_some hfind) hrow hid]

lemma ArmedKeys.map {f : ArmedRow → ArmedRow} (h : ArmedKeys armed)
    (halarm : ∀ row, (f row).alarmId = row.alarmId) : ArmedKeys (armed.map f) := by
  have hkeys : (armed.map f).map (·.alarmId) = armed.map (·.alarmId) := by
    rw [map_map]
    exact map_congr_left fun row _ => halarm row
  rw [ArmedKeys, hkeys]
  exact h

lemma ArmedKeys.filter (h : ArmedKeys armed) (keep : ArmedRow → Bool) :
    ArmedKeys (armed.filter keep) := List.Nodup.sublist (filter_sublist.map _) h

lemma ArmedKeys.applyArmedAlarmDelta (h : ArmedKeys armed) {delta : ArmedAlarmDelta}
    (hdelta : applyArmedAlarmDelta armed delta = .ok armed') : ArmedKeys armed' := by
  cases delta with
  | upsert alarmId occurrence fireAt =>
    simp only [OpenOmni.applyArmedAlarmDelta] at hdelta
    split at hdelta
    · contradiction
    · split at hdelta
      · cases hdelta
        refine h.map fun row => ?_
        split
        · rename_i heq
          exact heq.symm
        · rfl
      · rename_i hany
        cases hdelta
        rw [ArmedKeys, map_append, nodup_append]
        refine ⟨h, by simp, ?_⟩
        rintro a ha b hb rfl
        obtain ⟨row, hrow, rfl⟩ := mem_map.mp ha
        obtain hid : row.alarmId = alarmId := by simpa using hb
        exact hany (any_eq_true.mpr ⟨row, hrow, by simpa using hid⟩)
  | retire alarmId | fired occurrence =>
    cases hdelta
    exact h.filter _

lemma ArmedKeys.applyDelta (h : ArmedKeys armed) {action : Append}
    (hdelta : applyDelta armed action = .ok armed') : ArmedKeys armed' := by
  unfold OpenOmni.applyDelta at hdelta
  split at hdelta
  · cases hdelta
    exact h
  · exact h.applyArmedAlarmDelta hdelta

lemma ArmedKeys.foldlM {actions : List Append} (h : ArmedKeys armed)
    (hdeltas : actions.foldlM OpenOmni.applyDelta armed = .ok armed') : ArmedKeys armed' := by
  induction actions generalizing armed with
  | nil =>
    cases hdeltas
    exact h
  | cons action actions ih =>
    rw [foldlM_cons] at hdeltas
    cases hfirst : OpenOmni.applyDelta armed action with
    | error refusal => simp [hfirst, bind, Except.bind] at hdeltas
    | ok next =>
      rw [hfirst] at hdeltas
      exact ih (h.applyDelta hfirst) hdeltas

end

def ArmedAlarmDelta.spares (alarmId occurrenceId : String) : ArmedAlarmDelta → Prop
  | .upsert other _ _ => other ≠ alarmId
  | .retire other => other ≠ alarmId
  | .fired other => other ≠ occurrenceId

def IsArmed (alarmId occurrenceId : String) (armed : List ArmedRow) : Prop :=
  ∃ row ∈ armed, row.alarmId = alarmId ∧ row.occurrenceId = occurrenceId

section
variable {alarmId occurrenceId : String} {armed armed' : List ArmedRow}

lemma IsArmed.applyArmedAlarmDelta {delta : ArmedAlarmDelta} (h : IsArmed alarmId occurrenceId armed)
    (hspares : delta.spares alarmId occurrenceId)
    (hdelta : applyArmedAlarmDelta armed delta = .ok armed') : IsArmed alarmId occurrenceId armed' := by
  obtain ⟨row, hrow, halarm, hoccurrence⟩ := h
  cases delta with
  | upsert other occurrence fireAt =>
    have hne : row.alarmId ≠ other := by
      rw [halarm]
      exact Ne.symm hspares
    simp only [OpenOmni.applyArmedAlarmDelta] at hdelta
    split at hdelta
    · contradiction
    · split at hdelta
      · cases hdelta
        exact ⟨row, mem_map.mpr ⟨row, hrow, if_neg hne⟩, halarm, hoccurrence⟩
      · cases hdelta
        exact ⟨row, mem_append_left _ hrow, halarm, hoccurrence⟩
  | retire other =>
    cases hdelta
    refine ⟨row, mem_filter.mpr ⟨hrow, ?_⟩, halarm, hoccurrence⟩
    simpa [halarm] using Ne.symm hspares
  | fired other =>
    cases hdelta
    refine ⟨row, mem_filter.mpr ⟨hrow, ?_⟩, halarm, hoccurrence⟩
    simpa [hoccurrence] using Ne.symm hspares

/-- The row's effect on the armed index touches neither the alarm nor the occurrence. -/
def SparesArmed (alarmId occurrenceId : String) (action : Append) : Prop :=
  ∀ delta, armedAlarmDelta action = some delta → delta.spares alarmId occurrenceId

lemma IsArmed.applyDelta {action : Append} (h : IsArmed alarmId occurrenceId armed)
    (hspares : SparesArmed alarmId occurrenceId action)
    (hdelta : applyDelta armed action = .ok armed') : IsArmed alarmId occurrenceId armed' := by
  unfold OpenOmni.applyDelta at hdelta
  split at hdelta
  · cases hdelta
    exact h
  · rename_i delta hsome
    exact h.applyArmedAlarmDelta (hspares delta hsome) hdelta

lemma IsArmed.foldlM {actions : List Append} (h : IsArmed alarmId occurrenceId armed)
    (hspares : ∀ a ∈ actions, SparesArmed alarmId occurrenceId a)
    (hdeltas : actions.foldlM OpenOmni.applyDelta armed = .ok armed') :
    IsArmed alarmId occurrenceId armed' := by
  induction actions generalizing armed with
  | nil =>
    cases hdeltas
    exact h
  | cons action actions ih =>
    rw [foldlM_cons] at hdeltas
    cases hfirst : OpenOmni.applyDelta armed action with
    | error refusal => simp [hfirst, bind, Except.bind] at hdeltas
    | ok next =>
      rw [hfirst] at hdeltas
      exact ih (h.applyDelta (hspares action mem_cons_self) hfirst)
        (fun a ha => hspares a (mem_cons_of_mem _ ha)) hdeltas

lemma IsArmed.map {f : ArmedRow → ArmedRow} (h : IsArmed alarmId occurrenceId armed)
    (halarm : ∀ row, (f row).alarmId = row.alarmId)
    (hoccurrence : ∀ row, (f row).occurrenceId = row.occurrenceId) :
    IsArmed alarmId occurrenceId (armed.map f) := by
  obtain ⟨row, hrow, hid, hocc⟩ := h
  exact ⟨f row, mem_map_of_mem hrow, (halarm row).trans hid, (hoccurrence row).trans hocc⟩

theorem isArmed_of_upsert {before after : List Append} {arm : Append} {fireAt : ℚ}
    (harm : armedAlarmDelta arm = some (.upsert alarmId occurrenceId fireAt))
    (hafter : ∀ a ∈ after, SparesArmed alarmId occurrenceId a)
    (hdeltas : (before ++ arm :: after).foldlM OpenOmni.applyDelta armed = .ok armed') :
    IsArmed alarmId occurrenceId armed' := by
  rw [foldlM_append] at hdeltas
  cases hbefore : before.foldlM OpenOmni.applyDelta armed with
  | error refusal => simp [hbefore, bind, Except.bind] at hdeltas
  | ok mid =>
    rw [hbefore] at hdeltas
    change (arm :: after).foldlM OpenOmni.applyDelta mid = .ok armed' at hdeltas
    rw [foldlM_cons] at hdeltas
    cases hupsert : OpenOmni.applyDelta mid arm with
    | error refusal => simp [hupsert, bind, Except.bind] at hdeltas
    | ok next =>
      rw [hupsert] at hdeltas
      refine IsArmed.foldlM ?_ hafter hdeltas
      simp only [OpenOmni.applyDelta, harm, OpenOmni.applyArmedAlarmDelta] at hupsert
      split at hupsert
      · contradiction
      · split at hupsert
        · rename_i hany
          obtain ⟨row, hrow, hid⟩ := any_eq_true.mp hany
          cases hupsert
          exact ⟨_, mem_map.mpr ⟨row, hrow, if_pos (by simpa using hid)⟩, rfl, rfl⟩
        · cases hupsert
          exact ⟨_, mem_append_right _ (mem_singleton.mpr rfl), rfl, rfl⟩

end

end OpenOmni
