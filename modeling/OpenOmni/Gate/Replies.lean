import OpenOmni.Gate.Evaluate

/-! What each matched row says of the value it is shown, and the fold of the replies. -/
namespace OpenOmni
open List

open PlainValue

lemma foldVerdict_eq_max (a b : GateVerdict) : foldVerdict a b = max a b := by
  cases a <;> cases b <;> rfl

inductive RowReply where
  | silent
  /-- The answer carries no payload, so it is not recorded. -/
  | unrecorded
  | unusable
  | verdict (verdict : GateVerdict)
  | rewritten (value : PlainValue)

def RowReply.counts : RowReply → GateVerdict
  | unusable => .deny
  | verdict v => v
  | _ => .allow

def RowReply.valueAfter (value : PlainValue) : RowReply → PlainValue
  | rewritten next => next
  | _ => value

/-- The reply that an answer is; `prepared` tells where it came from. -/
def answerReply (row : GateRow) (value : PlainValue) (result : GateHandlerResult) (prepared : Bool) : RowReply :=
  match result.payload with
  | none => .unrecorded
  | some _ =>
    if row.do = .rewrite then
      if prepared && !containedRewrite (row.how.fields.getD []) result.value then .unusable
      else .rewritten (applyRewrite value (row.how.fields.getD []) (result.value.getD .null))
    else match result.verdict with
      | none => .unusable
      | some v => .verdict v

section Replies
variable {Context : Type}

/-- The answer of a consulted row: the prepared one, else the registered handler's. -/
def consultReply (context : FoldContext Context) (row : GateRow) (ref : String) (value : PlainValue) : Option RowReply :=
  match context.prepared.get? row.id with
  | some result => some (answerReply row value result true)
  | none =>
    match context.handlers ref with
    | none => some .unusable
    | some handler =>
      match invokeGuarded row handler value context.handlers context.input.when with
      | .escaped _ => some .unusable
      | .threw => none
      | .returned result => some (answerReply row value result false)

/-- The reply of a matched row; `none` is its handler's throw. -/
def rowReply (context : FoldContext Context) (entry : CompiledEntry Context) (value : PlainValue) : Option RowReply :=
  if entry.row.do = .observe ∨ entry.emit ≠ none then some .silent
  else match entry.row.how.verdict with
    | some v => some (.verdict v)
    | none =>
      match entry.row.how.ref with
      | none => some .silent
      | some ref => consultReply context entry.row ref value

/-- The replies of the matched rows, each to the value the rows before it leave. -/
def replies (context : FoldContext Context) : List (CompiledEntry Context) → PlainValue → Option (List RowReply)
  | [], _ => some []
  | entry :: entries, value =>
    (rowReply context entry value).bind fun reply =>
      (replies context entries (reply.valueAfter value)).map (reply :: ·)

variable {context : FoldContext Context} {entries : List (CompiledEntry Context)} {state last : FoldState}

lemma replies_length {value : PlainValue} {rs : List RowReply} (h : replies context entries value = some rs) :
    rs.length = entries.length := by
  induction entries generalizing value rs with
  | nil =>
    cases h
    rfl
  | cons entry entries ih =>
    obtain ⟨reply, _, htail⟩ := Option.bind_eq_some_iff.mp h
    obtain ⟨tail, hrest, rfl⟩ := Option.map_eq_some_iff.mp htail
    have hlen := ih hrest
    simp [hlen]

structure Core where
  verdict : GateVerdict
  value : PlainValue
  obligations : List Obligation

def FoldState.core (state : FoldState) : Core := ⟨state.verdict, state.value, state.obligations⟩

def CompiledEntry.obligations (entry : CompiledEntry Context) : List Obligation :=
  if entry.row.do = .observe then [] else entry.row.obligation.toList

def Core.hears (core : Core) (reply : RowReply) : Core where
  verdict := max core.verdict reply.counts
  value := reply.valueAfter core.value
  obligations := core.obligations

def Core.after (core : Core) (entry : CompiledEntry Context) (reply : RowReply) : Core :=
  { core.hears reply with obligations := core.obligations ++ entry.obligations }

@[simp] theorem hears_silent (core : Core) : core.hears .silent = core := by
  simp [Core.hears, RowReply.counts, RowReply.valueAfter]

@[simp] theorem hears_unrecorded (core : Core) : core.hears .unrecorded = core := by
  simp [Core.hears, RowReply.counts, RowReply.valueAfter]

def stepCore (context : FoldContext Context) (core : Core) (entry : CompiledEntry Context) : Option Core :=
  (rowReply context entry core.value).map (core.after entry)

@[simp] theorem core_note (state : FoldState) (row : GateRow) (ref code : String) :
    (state.note row ref code).core = state.core := rfl
@[simp] theorem core_annotate (state : FoldState) (row : GateRow) (ref : String) (payload : PlainValue) :
    (state.annotate row ref payload).core = state.core := rfl
@[simp] theorem core_matched (state : FoldState) (row : GateRow) : (state.matched row).core = state.core := rfl
@[simp] theorem core_refuse (state : FoldState) (row : GateRow) (ref code : String) :
    (state.refuse row ref code).core = state.core.hears .unusable := by
  change Core.mk (foldVerdict state.verdict .deny) _ _ = _
  rw [foldVerdict_eq_max]
  rfl

lemma core_observeRow (row : GateRow) (state : FoldState) (handlers : HandlerResolver)
    (when : List (String × PlainValue)) (prepared : PreparedResults) :
    (observeRow row state handlers when prepared).core = state.core := by
  unfold observeRow
  split
  · rfl
  · split
    · split <;> rfl
    · split
      · rfl
      · split
        · rfl
        · rfl
        · split <;> rfl

variable [PlainCoding]

@[simp] theorem core_consult (state : FoldState) (ref : String) (payload : PlainValue) :
    (state.consult ref payload).core = state.core := rfl

lemma core_applyAnswer (row : GateRow) (ref : String) (state : FoldState) (result : GateHandlerResult)
    (prepared : Bool) : (applyAnswer row ref state result prepared).core =
      state.core.hears (answerReply row state.value result prepared) := by
  unfold applyAnswer answerReply
  cases result.payload with
  | none => rw [core_note, hears_unrecorded]
  | some payload =>
    simp only []
    split
    · split
      · rw [core_refuse, core_consult]
      · simp [Core.hears, RowReply.counts, RowReply.valueAfter, FoldState.core, FoldState.consult]
    · cases result.verdict with
      | none => rw [core_refuse, core_consult]
      | some v => simp [Core.hears, RowReply.counts, RowReply.valueAfter, FoldState.core, foldVerdict_eq_max, FoldState.consult]

lemma core_consultRow (context : FoldContext Context) (row : GateRow) (ref : String) (state : FoldState) :
    (consultRow row ref state context.handlers context.input.when context.prepared).map FoldState.core =
      (consultReply context row ref state.value).map state.core.hears := by
  unfold consultRow consultReply
  cases context.prepared.get? row.id with
  | some result => simp [core_applyAnswer]
  | none =>
    cases context.handlers ref with
    | none => simp
    | some handler =>
      simp only []
      cases invokeGuarded row handler state.value context.handlers context.input.when with
      | escaped requested => simp
      | threw => rfl
      | returned result => simp [core_applyAnswer]

theorem core_applyRow (context : FoldContext Context) (entry : CompiledEntry Context) (state : FoldState) :
    (applyRow entry.row entry.emit state context.inputHash context.handlers context.input.when
      context.prepared).map FoldState.core = stepCore context state.core entry := by
  unfold applyRow stepCore rowReply
  by_cases hobserve : entry.row.do = .observe
  · have hnone : entry.obligations = [] := by simp [CompiledEntry.obligations, hobserve]
    simp [hobserve, core_observeRow, Core.after, hnone]
  · have hobliged : ((state.matched entry.row).oblige entry.row).core =
        { state.core with obligations := state.core.obligations ++ entry.obligations } := by
      simp [FoldState.oblige, FoldState.matched, CompiledEntry.obligations, hobserve, FoldState.core]
    have hvalue : ((state.matched entry.row).oblige entry.row).value = state.core.value := rfl
    simp only [hobserve, if_false, false_or, ne_eq]
    cases entry.emit with
    | some kind =>
      change some ((state.matched entry.row).oblige entry.row).core = _
      simp [hobliged, Core.after]
    | none =>
      simp only [not_true_eq_false, if_false]
      cases entry.row.how.verdict with
      | some v =>
        simp only [Option.map_some]
        change some { ((state.matched entry.row).oblige entry.row).core with
          verdict := foldVerdict state.verdict v } = _
        rw [hobliged, foldVerdict_eq_max]
        rfl
      | none =>
        simp only []
        cases entry.row.how.ref with
        | none => simp [hobliged, Core.after]
        | some ref =>
          simp only []
          rw [core_consultRow, hobliged, hvalue]
          rfl

def matchedEntries (context : FoldContext Context) (entries : List (CompiledEntry Context)) :
    List (CompiledEntry Context) := entries.filter (entryMatches · context.input)

def applyEntry (context : FoldContext Context) (state : FoldState) (entry : CompiledEntry Context) : Option FoldState :=
  applyRow entry.row entry.emit state context.inputHash context.handlers context.input.when context.prepared

theorem foldEntries_done_iff : foldEntries context entries state = some (last, none) ↔
      (∀ entry ∈ matchedEntries context entries, awaitedConsultRef entry context.pendingAsync context.prepared = none) ∧
        (matchedEntries context entries).foldlM (applyEntry context) state = some last := by
  induction entries generalizing state with
  | nil => simp [foldEntries, matchedEntries]
  | cons entry entries ih =>
    unfold foldEntries
    by_cases hmatch : entryMatches entry context.input = true
    · have hmatched : matchedEntries context (entry :: entries) = entry :: matchedEntries context entries := by
        simp [matchedEntries, hmatch]
      rw [if_pos hmatch, hmatched]
      cases hawait : awaitedConsultRef entry context.pendingAsync context.prepared with
      | some ref => simp [hawait]
      | none =>
        simp only [forall_mem_cons, hawait, true_and, foldlM_cons]
        change (applyEntry context state entry).bind _ = _ ↔ _
        cases happly : applyEntry context state entry with
        | none => simp
        | some next => simpa using ih
    · have hmatched : matchedEntries context (entry :: entries) = matchedEntries context entries := by
        simp [matchedEntries, hmatch]
      rw [if_neg hmatch, hmatched]
      exact ih

lemma core_foldlM (context : FoldContext Context) (entries : List (CompiledEntry Context)) (state : FoldState) :
    (entries.foldlM (applyEntry context) state).map FoldState.core = entries.foldlM (stepCore context) state.core := by
  induction entries generalizing state with
  | nil => rfl
  | cons entry entries ih =>
    have hstep := core_applyRow context entry state
    change (applyEntry context state entry).map FoldState.core = _ at hstep
    rw [foldlM_cons, foldlM_cons, ← hstep]
    cases applyEntry context state entry with
    | none => rfl
    | some next => exact ih next

theorem rowIds_applyEntry {entry : CompiledEntry Context} {next : FoldState}
    (h : applyEntry context state entry = some next) : next.rowIds = state.rowIds ++ [entry.id] := by
  have hobserve : ∀ (state : FoldState), (observeRow entry.row state context.handlers context.input.when
      context.prepared).rowIds = state.rowIds := by
    intro state
    unfold observeRow
    split
    · rfl
    · split
      · split <;> rfl
      · split
        · rfl
        · split
          · rfl
          · rfl
          · split <;> rfl
  have hanswer : ∀ (ref : String) (state : FoldState) (result : GateHandlerResult) (prepared : Bool),
      (applyAnswer entry.row ref state result prepared).rowIds = state.rowIds := by
    intro ref state result prepared
    unfold applyAnswer
    split
    · rfl
    · simp only []
      split
      · split <;> rfl
      · split <;> rfl
  have hconsult : ∀ (ref : String) (state last : FoldState), consultRow entry.row ref state context.handlers
      context.input.when context.prepared = some last → last.rowIds = state.rowIds := by
    intro ref state last hlast
    unfold consultRow at hlast
    split at hlast
    · cases hlast
      exact hanswer _ _ _ _
    · split at hlast
      · cases hlast
        rfl
      · split at hlast
        · cases hlast
          rfl
        · cases hlast
        · cases hlast
          exact hanswer _ _ _ _
  unfold applyEntry applyRow at h
  simp only [] at h
  split at h
  · cases h
    exact hobserve _
  · split at h
    · cases h
      rfl
    · split at h
      · cases h
        rfl
      · split at h
        · exact hconsult _ _ _ h
        · cases h
          rfl

lemma rowIds_foldlM (h : entries.foldlM (applyEntry context) state = some last) :
    last.rowIds = state.rowIds ++ entries.map CompiledEntry.id := by
  induction entries generalizing state with
  | nil =>
    cases h
    simp
  | cons entry entries ih =>
    rw [foldlM_cons] at h
    obtain ⟨next, happly, hrest⟩ := Option.bind_eq_some_iff.mp h
    rw [ih hrest, rowIds_applyEntry happly]
    simp

omit [PlainCoding] in
theorem verdict_of_replies {core last : Core} (h : entries.foldlM (stepCore context) core = some last) :
    ∃ rs, replies context entries core.value = some rs ∧
      last.verdict = (rs.map RowReply.counts).foldl max core.verdict ∧
      last.value = rs.foldl (fun value reply => reply.valueAfter value) core.value := by
  induction entries generalizing core with
  | nil =>
    cases h
    exact ⟨[], rfl, rfl, rfl⟩
  | cons entry entries ih =>
    rw [foldlM_cons] at h
    obtain ⟨next, hnext, hrest⟩ := Option.bind_eq_some_iff.mp h
    obtain ⟨reply, hreply, rfl⟩ := Option.map_eq_some_iff.mp hnext
    obtain ⟨rs, hrs, hverdict, hvalue⟩ := ih hrest
    refine ⟨reply :: rs, ?_, hverdict, hvalue⟩
    change replies context entries (reply.valueAfter core.value) = some rs at hrs
    simp [replies, hreply, hrs]

end Replies
end OpenOmni
