import OpenOmni.Gate.Replies

/-! Gate decisions are a fail-closed maximum of what the matched rows say. -/
namespace OpenOmni
open List

open PlainValue

variable {key : String} {fields : List String}

lemma get?_rewriteField (source next : Dict String PlainValue) (field : String) (h : key ≠ field) :
    (rewriteField source next field).get? key = next.get? key := by
  unfold rewriteField
  split
  · rw [Dict.get?_erase, if_neg h]
  · exact Dict.get?_set_of_ne next _ h

lemma get?_rewriteFields (source base : Dict String PlainValue) (h : key ∉ fields) :
    (fields.foldl (rewriteField source) base).get? key = base.get? key := by
  induction fields generalizing base with
  | nil => rfl
  | cons field fields ih =>
    have hne : key ≠ field := ne_of_not_mem_cons h
    have htail := ih (rewriteField source base field) (not_mem_of_not_mem_cons h)
    rw [foldl_cons, htail, get?_rewriteField source base field hne]

theorem get?_eq_plainRecord (v : PlainValue) (key : String) : v.get? key = (plainRecord v).bind (·.get? key) := by
  cases v with
  | obj fields =>
    induction fields with
    | nil => rfl
    | cons field fields ih =>
      obtain ⟨k, w⟩ := field
      by_cases hkey : key = k
      · subst hkey
        simp [plainRecord, Dict.get?]
      · have hbeq : (key == k) = false := by simpa using hkey
        have hne : ¬ k = key := fun heq => hkey heq.symm
        simp only [get?_obj, plainRecord, Option.bind_some, Dict.get?] at ih ⊢
        rw [lookup_cons, hbeq, find?_cons_of_neg (by simpa using hne)]
        exact ih
  | _ => rfl

lemma get?_applyRewrite (prior : PlainValue) (output : PlainValue) (h : key ∉ fields) :
    (applyRewrite prior fields output).get? key = prior.get? key := by
  unfold applyRewrite
  split
  · rfl
  · rename_i base hbase
    rw [get?_eq_plainRecord, get?_eq_plainRecord, hbase]
    exact get?_rewriteFields _ base h

theorem plainRecord_applyRewrite (prior : PlainValue) (fields : List String) (output : PlainValue) :
    (plainRecord prior = none → applyRewrite prior fields output = prior) ∧
      ((plainRecord (applyRewrite prior fields output)).isSome = (plainRecord prior).isSome) := by
  unfold applyRewrite
  cases h : plainRecord prior with
  | none => exact ⟨fun _ => rfl, by rw [h]⟩
  | some base => exact ⟨(fun hnone => by simp at hnone), rfl⟩

section Fold
variable {Context : Type}

def declaredFields (entries : List (CompiledEntry Context)) : List String :=
  (entries.filter (·.row.do = .rewrite)).flatMap (·.row.how.fields.getD [])

/-- The value of one row differs from the prior one in its declared fields only. -/
structure Within (fields : List String) (prior next : PlainValue) : Prop where
  get? : ∀ key, key ∉ fields → next.get? key = prior.get? key
  whole : plainRecord prior = none → next = prior
  record : (plainRecord next).isSome = (plainRecord prior).isSome

lemma Within.refl (fields : List String) (v : PlainValue) : Within fields v v :=
  ⟨fun _ _ => rfl, fun _ => rfl, rfl⟩

variable {fields : List String} {a b : PlainValue} {context : FoldContext Context} {entry : CompiledEntry Context}
  {core last : Core} {v : GateVerdict}

lemma Within.trans {c : PlainValue} (hab : Within fields a b) (hbc : Within fields b c) : Within fields a c where
  get? key hkey := (hbc.get? key hkey).trans (hab.get? key hkey)
  whole ha := by
    have hb := hab.whole ha
    subst hb
    exact hbc.whole ha
  record := hbc.record.trans hab.record

lemma Within.mono {fields' : List String} (h : Within fields a b) (hsub : ∀ field ∈ fields, field ∈ fields') :
    Within fields' a b where
  get? key hkey := h.get? key fun hmem => hkey (hsub key hmem)
  whole := h.whole
  record := h.record

lemma answerReply_within (row : GateRow) (value : PlainValue) (result : GateHandlerResult) (prepared : Bool)
    (fields : List String) (h : row.do = .rewrite → ∀ field ∈ row.how.fields.getD [], field ∈ fields) :
    Within fields value ((answerReply row value result prepared).valueAfter value) := by
  unfold answerReply
  split
  · exact Within.refl fields value
  · split
    · rename_i hrewrite
      split
      · exact Within.refl fields value
      · have hplain := plainRecord_applyRewrite value (row.how.fields.getD []) (result.value.getD .null)
        have hown : Within (row.how.fields.getD []) value
            (applyRewrite value (row.how.fields.getD []) (result.value.getD .null)) :=
          ⟨fun key hkey => get?_applyRewrite value _ hkey, hplain.1, hplain.2⟩
        exact hown.mono (h hrewrite)
    · split <;> exact Within.refl fields value

lemma rowReply_within {value : PlainValue} {reply : RowReply} (h : rowReply context entry value = some reply)
    (hfields : entry.row.do = .rewrite → ∀ field ∈ entry.row.how.fields.getD [], field ∈ fields) :
    Within fields value (reply.valueAfter value) := by
  unfold rowReply at h
  split at h
  · obtain rfl := Option.some.inj h
    exact Within.refl fields value
  · split at h
    · obtain rfl := Option.some.inj h
      exact Within.refl fields value
    · split at h
      · obtain rfl := Option.some.inj h
        exact Within.refl fields value
      · unfold consultReply at h
        split at h
        · obtain rfl := Option.some.inj h
          exact answerReply_within _ _ _ _ _ hfields
        · split at h
          · obtain rfl := Option.some.inj h
            exact Within.refl fields value
          · split at h
            · obtain rfl := Option.some.inj h
              exact Within.refl fields value
            · cases h
            · obtain rfl := Option.some.inj h
              exact answerReply_within _ _ _ _ _ hfields

lemma foldlM_within {entries : List (CompiledEntry Context)}
    (h : entries.foldlM (stepCore context) core = some last) :
    Within (declaredFields entries) core.value last.value := by
  have hgen : ∀ (fields : List String) (core : Core), (∀ field ∈ declaredFields entries, field ∈ fields) →
      entries.foldlM (stepCore context) core = some last → Within fields core.value last.value := by
    intro fields
    clear h
    induction entries with
    | nil =>
      intro core _ h
      obtain rfl := Option.some.inj h
      exact Within.refl fields core.value
    | cons entry entries ih =>
      intro core hfields h
      rw [foldlM_cons] at h
      obtain ⟨next, hnext, hrest⟩ := Option.bind_eq_some_iff.mp h
      obtain ⟨reply, hreply, rfl⟩ := Option.map_eq_some_iff.mp hnext
      have hhead : Within fields core.value (reply.valueAfter core.value) := by
        apply rowReply_within hreply
        intro hrewrite field hfield
        apply hfields
        simp only [declaredFields, mem_flatMap, mem_filter]
        exact ⟨entry, ⟨mem_cons_self, by simpa using hrewrite⟩, hfield⟩
      refine hhead.trans (ih _ (fun field hfield => hfields field ?_) hrest)
      simp only [declaredFields, mem_flatMap, mem_filter] at hfield ⊢
      obtain ⟨other, ⟨hother, hrewrite⟩, hmem⟩ := hfield
      exact ⟨other, ⟨mem_cons_of_mem entry hother, hrewrite⟩, hmem⟩
  exact hgen _ core (fun _ hfield => hfield) h

structure StaticGate (entry : CompiledEntry Context) (verdict : GateVerdict) : Prop where
  gate : entry.row.do = .gate
  emit : entry.emit = none
  verdict : entry.row.how.verdict = some verdict

lemma StaticGate.rowReply (h : StaticGate entry v) (context : FoldContext Context) (value : PlainValue) :
    rowReply context entry value = some (.verdict v) := by
  simp [OpenOmni.rowReply, h.gate, h.emit, h.verdict]

theorem foldlM_raise (context : FoldContext Context) (v : GateVerdict) (entries : List (CompiledEntry Context))
    {core' : Core} (hverdict : core'.verdict = max core.verdict v) (hvalue : core'.value = core.value)
    (h : entries.foldlM (stepCore context) core = some last) :
    ∃ last', entries.foldlM (stepCore context) core' = some last' ∧
      last'.verdict = max last.verdict v ∧ last'.value = last.value := by
  induction entries generalizing core core' with
  | nil =>
    obtain rfl := Option.some.inj h
    exact ⟨core', rfl, hverdict, hvalue⟩
  | cons entry entries ih =>
    rw [foldlM_cons] at h
    obtain ⟨next, hnext, hrest⟩ := Option.bind_eq_some_iff.mp h
    obtain ⟨reply, hreply, rfl⟩ := Option.map_eq_some_iff.mp hnext
    have hstep : stepCore context core' entry = some (core'.after entry reply) := by
      simp [stepCore, hvalue, hreply]
    have hraised : (core'.after entry reply).verdict = max (core.after entry reply).verdict v := by
      change max core'.verdict reply.counts = max (max core.verdict reply.counts) v
      rw [hverdict, max_right_comm]
    have hkept : (core'.after entry reply).value = (core.after entry reply).value := by
      change reply.valueAfter core'.value = reply.valueAfter core.value
      rw [hvalue]
    obtain ⟨last', hlast', hv, hval⟩ := ih hraised hkept hrest
    refine ⟨last', ?_, hv, hval⟩
    rw [foldlM_cons, hstep]
    exact hlast'

lemma foldlM_insert (hstatic : StaticGate entry v) (above below : List (CompiledEntry Context))
    (h : (above ++ below).foldlM (stepCore context) core = some last) :
    ∃ last', (above ++ entry :: below).foldlM (stepCore context) core = some last' ∧
      last'.verdict = max last.verdict v ∧ last'.value = last.value := by
  rw [foldlM_append] at h
  obtain ⟨middle, habove, hbelow⟩ := Option.bind_eq_some_iff.mp h
  have hstep : stepCore context middle entry = some (middle.after entry (.verdict v)) := by
    simp [stepCore, hstatic.rowReply]
  have hraised : (middle.after entry (.verdict v)).verdict = max middle.verdict v := rfl
  obtain ⟨last', hlast', hv, hval⟩ := foldlM_raise context v below hraised rfl hbelow
  refine ⟨last', ?_, hv, hval⟩
  rw [foldlM_append, habove]
  change (entry :: below).foldlM (stepCore context) middle = some last'
  rw [foldlM_cons, hstep]
  exact hlast'

lemma stepCore_observe (context : FoldContext Context) (core : Core) (h : entry.row.do = .observe) :
    stepCore context core entry = some core := by
  simp [stepCore, rowReply, h, Core.after, CompiledEntry.obligations]

lemma foldlM_without_observers (context : FoldContext Context) (entries : List (CompiledEntry Context)) (core : Core) :
    (entries.filter (·.row.do ≠ .observe)).foldlM (stepCore context) core = entries.foldlM (stepCore context) core := by
  induction entries generalizing core with
  | nil => rfl
  | cons entry entries ih =>
    by_cases hobserve : entry.row.do = .observe
    · rw [filter_cons_of_neg (by simpa using hobserve), foldlM_cons, stepCore_observe context core hobserve]
      exact ih core
    · rw [filter_cons_of_pos (by simpa using hobserve), foldlM_cons, foldlM_cons]
      cases stepCore context core entry with
      | none => rfl
      | some next => exact ih next

end Fold

section Decisions
variable [PlainCoding] {Context : Type}

def GateOutcome.core (outcome : GateOutcome) : Core :=
  ⟨outcome.decision.verdict, outcome.value, outcome.decision.obligations⟩

def initialCore (value : PlainValue) : Core := ⟨.allow, value, []⟩

def matchedOf (snapshot : CompiledPolicySnapshot Context) (input : PointInput Context) : List (CompiledEntry Context) :=
  (snapshot.entries input.point).filter (entryMatches · input)

variable {snapshot : CompiledPolicySnapshot Context} {input : PointInput Context} {options : EvaluationOptions}

theorem decidePoint_done {outcome : GateOutcome} (hfresh : options.recorded = none)
    (h : decidePoint snapshot input options = some outcome) (hdone : outcome.pending = none) :
    (∀ entry ∈ matchedOf snapshot input, awaitedConsultRef entry options.pendingAsync options.prepared = none) ∧
      (matchedOf snapshot input).foldlM (stepCore (foldContext snapshot input options)) (initialCore input.value) =
        some outcome.core ∧
      outcome.decision.rowIds = (matchedOf snapshot input).map CompiledEntry.id := by
  simp only [decidePoint, hfresh, Option.filter_none] at h
  obtain ⟨⟨state, pending⟩, hfold, rfl⟩ := Option.map_eq_some_iff.mp h
  obtain rfl : pending = none := hdone
  obtain ⟨hawaited, hrun⟩ := foldEntries_done_iff.mp hfold
  have hcore := core_foldlM (foldContext snapshot input options)
    (matchedEntries (foldContext snapshot input options) (snapshot.entries input.point)) (initialFoldState input.value)
  rw [hrun] at hcore
  exact ⟨hawaited, hcore.symm, rowIds_foldlM hrun⟩

theorem decidePoint_of_core {core : Core} (hfresh : options.recorded = none)
    (hawaited : ∀ entry ∈ matchedOf snapshot input, awaitedConsultRef entry options.pendingAsync options.prepared = none)
    (h : (matchedOf snapshot input).foldlM (stepCore (foldContext snapshot input options)) (initialCore input.value) =
      some core) : ∃ outcome, decidePoint snapshot input options = some outcome ∧ outcome.pending = none ∧
        outcome.replayed = false ∧ outcome.core = core := by
  have hcore := core_foldlM (foldContext snapshot input options) (matchedOf snapshot input) (initialFoldState input.value)
  change _ = (matchedOf snapshot input).foldlM _ (initialCore input.value) at hcore
  rw [h] at hcore
  obtain ⟨state, hrun, rfl⟩ := Option.map_eq_some_iff.mp hcore
  have hfold : foldEntries (foldContext snapshot input options) (snapshot.entries input.point)
      (initialFoldState input.value) = some (state, none) := foldEntries_done_iff.mpr ⟨hawaited, hrun⟩
  refine ⟨outcomeOf snapshot input (options.hashOf input) (state, none), ?_, rfl, rfl, rfl⟩
  simp [decidePoint, hfresh, hfold]

structure FailsClosed (snapshot : CompiledPolicySnapshot Context) (input : PointInput Context)
    (options : EvaluationOptions) (outcome : GateOutcome) : Prop where
  /-- The verdict is the maximum of what the replies of the matched rows count as. -/
  maximum : ∃ rs, replies (foldContext snapshot input options) (matchedOf snapshot input) input.value = some rs ∧
    rs.length = (matchedOf snapshot input).length ∧
    outcome.decision.verdict = (rs.map RowReply.counts).foldl max .allow
  /-- A snapshot with one more matching static gate row folds to the maximum with its verdict, on the same value. -/
  static : ∀ (more : CompiledPolicySnapshot Context) (above below : List (CompiledEntry Context)) entry verdict,
    more.handlers = snapshot.handlers → snapshot.entries input.point = above ++ below →
      more.entries input.point = above ++ entry :: below → StaticGate entry verdict → entryMatches entry input = true →
        ∃ raised, decidePoint more input options = some raised ∧ raised.pending = none ∧
          raised.decision.verdict = max outcome.decision.verdict verdict ∧
          outcome.decision.verdict ≤ raised.decision.verdict ∧ raised.value = outcome.value
  /-- A snapshot without the observe rows folds to the same verdict, value and obligations. -/
  observers : ∀ fewer : CompiledPolicySnapshot Context, fewer.handlers = snapshot.handlers →
    fewer.entries input.point = (snapshot.entries input.point).filter (·.row.do ≠ .observe) →
      ∃ same, decidePoint fewer input options = some same ∧ same.pending = none ∧
        same.decision.verdict = outcome.decision.verdict ∧ same.value = outcome.value ∧
        same.decision.obligations = outcome.decision.obligations
  /-- The value differs from the input in fields that matched rewrite rows declare, and nowhere else. -/
  within : Within (declaredFields (matchedOf snapshot input)) input.value outcome.value

theorem gate_fails_closed {snapshot : CompiledPolicySnapshot Context} {input : PointInput Context}
    {options : EvaluationOptions} {outcome : GateOutcome} (hfresh : options.recorded = none)
    (h : decidePoint snapshot input options = some outcome) (hdone : outcome.pending = none) :
    FailsClosed snapshot input options outcome := by
  obtain ⟨hawaited, hfold, _⟩ := decidePoint_done hfresh h hdone
  refine ⟨?maximum, ?static, ?observers, foldlM_within hfold⟩
  case maximum =>
    obtain ⟨rs, hrs, hverdict, _⟩ := verdict_of_replies hfold
    exact ⟨rs, hrs, replies_length hrs, hverdict⟩
  case static =>
    intro more above below entry verdict hhandlers hentries hmore hstatic hmatch
    have hcontext : foldContext more input options = foldContext snapshot input options := by
      simp [foldContext, hhandlers]
    have hmatched : matchedOf snapshot input =
        above.filter (entryMatches · input) ++ below.filter (entryMatches · input) := by
      rw [matchedOf, hentries, filter_append]
    have hraised : matchedOf more input =
        above.filter (entryMatches · input) ++ entry :: below.filter (entryMatches · input) := by
      rw [matchedOf, hmore, filter_append, filter_cons, if_pos hmatch]
    rw [hmatched] at hfold hawaited
    obtain ⟨last, hlast, hverdict, hvalue⟩ := foldlM_insert hstatic _ _ hfold
    rw [← hraised, ← hcontext] at hlast
    have hnone : ∀ e ∈ matchedOf more input, awaitedConsultRef e options.pendingAsync options.prepared = none := by
      intro e he
      rw [hraised] at he
      rcases mem_append.mp he with habove | hbelow
      · exact hawaited e (mem_append_left _ habove)
      · rcases mem_cons.mp hbelow with rfl | hbelow
        · simp [awaitedConsultRef, hstatic.verdict]
          split <;> rfl
        · exact hawaited e (mem_append_right _ hbelow)
    obtain ⟨raised, hdecided, hpending, _, rfl⟩ := decidePoint_of_core hfresh hnone hlast
    refine ⟨raised, hdecided, hpending, hverdict, ?_, hvalue⟩
    have hle : outcome.decision.verdict ≤ max outcome.decision.verdict verdict := le_max_left _ _
    exact hle.trans_eq hverdict.symm
  case observers =>
    intro fewer hhandlers hentries
    have hcontext : foldContext fewer input options = foldContext snapshot input options := by
      simp [foldContext, hhandlers]
    have hmatched : matchedOf fewer input = (matchedOf snapshot input).filter (·.row.do ≠ .observe) := by
      rw [matchedOf, matchedOf, hentries, filter_comm]
    have hfewer := foldlM_without_observers (foldContext snapshot input options) (matchedOf snapshot input)
      (initialCore input.value)
    rw [hfold, ← hmatched, ← hcontext] at hfewer
    have hnone : ∀ e ∈ matchedOf fewer input, awaitedConsultRef e options.pendingAsync options.prepared = none := by
      intro e he
      rw [hmatched] at he
      exact hawaited e (mem_of_mem_filter he)
    obtain ⟨same, hdecided, hpending, _, hcore⟩ := decidePoint_of_core hfresh hnone hfewer
    refine ⟨same, hdecided, hpending, congrArg Core.verdict hcore, congrArg Core.value hcore, ?_⟩
    exact congrArg Core.obligations hcore

end Decisions

namespace GateSample

attribute [local instance] textCoding

def atPoint {Context : Type} (point : PointId) (entries : List (CompiledEntry Context))
    (handlers : List (String × GateHandler)) (consultants : List (String × Consultant))
    (h : (entries.map CompiledEntry.id).Nodup) : CompiledPolicySnapshot Context where
  generation := 1
  contentHash := "content"
  pointTable := ⟨[]⟩
  byPoint := Dict.empty.set point entries
  rowById := ⟨[]⟩
  handlers := ⟨handlers⟩
  consultants := ⟨consultants⟩
  ids_nodup := by
    intro p
    rw [Dict.get?_set]
    split
    · exact h
    · simp

def entry (id : String) («do» : PointDo) (how : GateHow) (order : ℤ) : CompiledEntry Unit where
  row := ⟨id, .toolPre, [], «do», how, order, 1⟩
  emit := none
  matcher := none
  policy := none

def input : PointInput Unit where
  point := .toolPre
  when := []
  value := record [("command", some (.str "rm")), ("cwd", some (.str "/"))]

def silent : GateHandler := fun _ => .returned { verdict := some .deny }

def blank : GateHandler := fun _ => .returned { payload := some (.str "output") }

def guarded : CompiledPolicySnapshot Unit :=
  atPoint .toolPre [entry "guard/tool.pre#9" .gate { ref := some "guard/silent" } 1] [("guard/silent", silent)] [] (by decide)

def blanked : CompiledPolicySnapshot Unit :=
  atPoint .toolPre [entry "mask/tool.pre#1" .rewrite { ref := some "demo/mask", fields := some ["command"] } 1]
    [("demo/mask", blank)] [] (by decide)

/-- The guard's deny without a payload leaves the verdict at allow, and the rewrite without a value is applied: the
declared field is gone. -/
theorem silent_deny_allows :
    ((decidePoint guarded input {}).map fun outcome => (outcome.decision.verdict, outcome.decision.rowIds)) =
        some (.allow, ["guard/tool.pre#9"]) ∧
      silent ⟨input.value, .null, [], fun _ => true⟩ = .returned { verdict := some .deny } ∧
      ((decidePoint blanked input {}).map fun outcome => (outcome.decision.verdict, outcome.value)) =
        some (.allow, record [("cwd", some (.str "/"))]) := by
  decide

def refusing : CompiledPolicySnapshot Unit :=
  atPoint .toolPre
    [entry "ask/tool.pre#1" .gate { verdict := some .requireApproval } 1,
      entry "guard/tool.pre#2" .gate { ref := some "guard/gone" } 2] [] [] (by decide)

theorem gate_fails_closed_unavailable : ∃ outcome, decidePoint refusing input {} = some outcome ∧
    outcome.decision.verdict = .deny ∧ FailsClosed refusing input {} outcome := by
  have hfacts : (decidePoint refusing input {}).map (fun outcome => (outcome.pending, outcome.decision.verdict)) =
      some (none, .deny) := by
    decide
  obtain ⟨outcome, h, hpair⟩ := Option.map_eq_some_iff.mp hfacts
  obtain ⟨hdone, hverdict⟩ := Prod.mk.inj hpair
  exact ⟨outcome, h, hverdict, gate_fails_closed rfl h hdone⟩

end GateSample
end OpenOmni
