import OpenOmni.Gate.FailClosed
import OpenOmni.Gate.PolicyEvaluation
import OpenOmni.Protocol.Same

/-! A recorded decision that is replayed is the one a new evaluation would make. -/
namespace OpenOmni
open List

open PlainValue

structure SameInput (a b : GateHandlerInput) : Prop where
  value : PlainValue.Same a.value b.value
  params : a.params = b.params
  when : PlainValue.SameFields a.when b.when
  service : a.service = b.service

structure SameResult (a b : GateHandlerResult) : Prop where
  verdict : a.verdict = b.verdict
  value : SameSlot a.value b.value
  payload : a.payload.isSome = b.payload.isSome

inductive SameInvocation : Invocation → Invocation → Prop where
  | returned {a b : GateHandlerResult} : SameResult a b → SameInvocation (.returned a) (.returned b)
  | escaped (ref : String) : SameInvocation (.escaped ref) (.escaped ref)
  | threw : SameInvocation .threw .threw

/-- The handler reads its input as a JSON value: the order of an object's keys does not change its answer. -/
def ReadsJson (handler : GateHandler) : Prop := ∀ a b, SameInput a b → SameInvocation (handler a) (handler b)

lemma plainRecord_same {a b : PlainValue} (h : PlainValue.Same a b) : (plainRecord a = none ∧ plainRecord b = none) ∨
    ∃ d e, plainRecord a = some d ∧ plainRecord b = some e ∧ SameDict d e := by
  cases b with
  | obj g =>
    obtain ⟨f, rfl⟩ := h.obj_of_obj
    exact Or.inr ⟨⟨f⟩, ⟨g⟩, rfl, rfl, same_obj_iff.mp h⟩
  | _ =>
    cases a with
    | obj f =>
      obtain ⟨_, hobj⟩ := (PlainValue.Same.symm h).obj_of_obj
      cases hobj
    | _ => exact Or.inl ⟨rfl, rfl⟩

lemma PlainValue.SameDict.get? {d e : Dict String PlainValue} (h : SameDict d e) (key : String) :
    SameSlot (d.get? key) (e.get? key) := by
  have hlookup := PlainValue.SameFields.lookup h key
  have hobj : ∀ c : Dict String PlainValue, c.entries.lookup key = c.get? key := fun c =>
    get?_eq_plainRecord (.obj c.entries) key
  rwa [hobj, hobj] at hlookup

variable {source source' : Dict String PlainValue} {a b : RowReply} {v w : PlainValue}

lemma rewriteField_same {next next' : Dict String PlainValue} (hsource : SameDict source source')
    (hnext : SameDict next next') (field : String) :
    SameDict (rewriteField source next field) (rewriteField source' next' field) := by
  have hslot := hsource.get? field
  unfold rewriteField
  rcases hslot.eq_or with ⟨hs, hs'⟩ | ⟨v, w, hs, hs', hsame⟩
  · rw [hs, hs']
    exact hnext.erase field
  · rw [hs, hs']
    exact hnext.set field hsame

lemma rewriteFields_same (hsource : SameDict source source') (fields : List String)
    {base base' : Dict String PlainValue} (hbase : SameDict base base') :
    SameDict (fields.foldl (rewriteField source) base) (fields.foldl (rewriteField source') base') := by
  induction fields generalizing base base' with
  | nil => exact hbase
  | cons field fields ih => exact ih (rewriteField_same hsource hbase field)

lemma applyRewrite_same {prior prior' output output' : PlainValue} (fields : List String)
    (hprior : PlainValue.Same prior prior') (houtput : PlainValue.Same output output') :
    PlainValue.Same (applyRewrite prior fields output) (applyRewrite prior' fields output') := by
  have hsource : SameDict ((plainRecord output).getD Dict.empty) ((plainRecord output').getD Dict.empty) := by
    rcases plainRecord_same houtput with ⟨ho, ho'⟩ | ⟨d, e, ho, ho', hsame⟩
    · rw [ho, ho']
      exact fun _ => rfl
    · rw [ho, ho']
      exact hsame
  unfold applyRewrite
  rcases plainRecord_same hprior with ⟨hp, hp'⟩ | ⟨d, e, hp, hp', hsame⟩
  · rw [hp, hp']
    exact hprior
  · rw [hp, hp']
    exact same_obj_iff.mpr (rewriteFields_same hsource fields hsame)

lemma containedRewrite_same (fields : List String) {value value' : Option PlainValue} (h : SameSlot value value') :
    containedRewrite fields value = containedRewrite fields value' := by
  unfold containedRewrite
  rcases plainRecord_same (h.getD .null) with ⟨hv, hv'⟩ | ⟨d, e, hv, hv', hsame⟩
  · rw [hv, hv']
  · rw [hv, hv']
    have hall : ∀ c : Dict String PlainValue, c.entries.all (fun entry => fields.contains entry.1) = true ↔
        ∀ key, key ∉ fields → c.entries.any (·.1 = key) = false := by
      intro c
      rw [all_eq_true]
      constructor
      · intro hc key hkey
        rw [any_eq_false]
        intro entry hentry heq
        have hmem := hc entry hentry
        rw [of_decide_eq_true heq] at hmem
        exact hkey (contains_iff_mem.mp hmem)
      · intro hc entry hentry
        rw [contains_iff_mem]
        by_contra hnot
        have hnone := hc entry.1 hnot
        rw [any_eq_false] at hnone
        exact hnone entry hentry (by simp)
    simp only []
    rw [Bool.eq_iff_iff, hall, hall]
    apply forall_congr'
    intro key
    rw [PlainValue.SameFields.contains hsame key]

inductive SameReply : RowReply → RowReply → Prop where
  | refl (reply : RowReply) : SameReply reply reply
  | rewritten {a b : PlainValue} : PlainValue.Same a b → SameReply (.rewritten a) (.rewritten b)

lemma SameReply.counts (h : SameReply a b) : a.counts = b.counts := by
  cases h <;> rfl

lemma SameReply.valueAfter (h : SameReply a b) (hv : PlainValue.Same v w) :
    PlainValue.Same (a.valueAfter v) (b.valueAfter w) := by
  cases h with
  | refl =>
    cases a with
    | rewritten next => exact PlainValue.Same.refl next
    | _ => exact hv
  | rewritten hnext => exact hnext

lemma answerReply_same (row : GateRow) (hv : PlainValue.Same v w) {result result' : GateHandlerResult}
    (h : SameResult result result') (prepared : Bool) :
    SameReply (answerReply row v result prepared) (answerReply row w result' prepared) := by
  have hpayload := h.payload
  unfold answerReply
  rw [← h.verdict, containedRewrite_same _ h.value]
  cases hp : result.payload with
  | none =>
    cases hp' : result'.payload with
    | none => exact .refl _
    | some payload => simp [hp, hp'] at hpayload
  | some payload =>
    cases hp' : result'.payload with
    | none => simp [hp, hp'] at hpayload
    | some payload' =>
      simp only []
      split
      · split
        · exact .refl _
        · exact .rewritten (applyRewrite_same _ hv (h.value.getD .null))
      · exact .refl _

section Contexts
variable {Context : Type}

structure SameContext (a b : FoldContext Context) : Prop where
  handlers : a.handlers = b.handlers
  when : PlainValue.SameFields a.input.when b.input.when
  prepared : ∀ id, Option.Rel SameResult (a.prepared.get? id) (b.prepared.get? id)

variable {a b : FoldContext Context} {core core' : Core}

lemma rowReply_same (h : SameContext a b) (hjson : ∀ ref handler, b.handlers ref = some handler → ReadsJson handler)
    (entry : CompiledEntry Context) {v w : PlainValue} (hv : PlainValue.Same v w) :
    Option.Rel SameReply (rowReply a entry v) (rowReply b entry w) := by
  unfold rowReply
  split
  · exact .some (.refl _)
  · split
    · exact .some (.refl _)
    · split
      · exact .some (.refl _)
      · rename_i ref _
        unfold consultReply
        have hprepared := h.prepared entry.row.id
        cases hb : b.prepared.get? entry.row.id with
        | some result =>
          rw [hb] at hprepared
          cases ha : a.prepared.get? entry.row.id with
          | none =>
            rw [ha] at hprepared
            cases hprepared
          | some result' =>
            rw [ha] at hprepared
            cases hprepared with
            | some hsame => exact .some (answerReply_same entry.row hv hsame true)
        | none =>
          rw [hb] at hprepared
          cases ha : a.prepared.get? entry.row.id with
          | some result' =>
            rw [ha] at hprepared
            cases hprepared
          | none =>
            simp only []
            rw [h.handlers]
            cases hhandler : b.handlers ref with
            | none => exact .some (.refl _)
            | some handler =>
              have hinput : SameInvocation (invokeGuarded entry.row handler v b.handlers a.input.when)
                  (invokeGuarded entry.row handler w b.handlers b.input.when) :=
                hjson ref handler hhandler _ _ ⟨hv, rfl, h.when, rfl⟩
              simp only []
              revert hinput
              generalize invokeGuarded entry.row handler v b.handlers a.input.when = ended
              generalize invokeGuarded entry.row handler w b.handlers b.input.when = ended'
              intro hinput
              cases hinput with
              | returned hsame => exact .some (answerReply_same entry.row hv hsame false)
              | escaped requested => exact .some (.refl _)
              | threw => exact .none

structure SameCore (a b : Core) : Prop where
  verdict : a.verdict = b.verdict
  value : PlainValue.Same a.value b.value

section
variable (h : SameContext a b) (hjson : ∀ ref handler, b.handlers ref = some handler → ReadsJson handler)
include h hjson

lemma stepCore_same (hcore : SameCore core core') (entry : CompiledEntry Context) :
    Option.Rel SameCore (stepCore a core entry) (stepCore b core' entry) := by
  have hreply := rowReply_same h hjson entry hcore.value
  unfold stepCore
  revert hreply
  generalize rowReply a entry core.value = reply
  generalize rowReply b entry core'.value = reply'
  intro hreply
  cases hreply with
  | none => exact .none
  | some hsame =>
    refine .some ⟨?_, hsame.valueAfter hcore.value⟩
    change max core.verdict _ = max core'.verdict _
    rw [hcore.verdict, hsame.counts]

lemma foldlM_same (entries : List (CompiledEntry Context)) (hcore : SameCore core core') :
    Option.Rel SameCore (entries.foldlM (stepCore a) core) (entries.foldlM (stepCore b) core') := by
  induction entries generalizing core core' with
  | nil => exact .some hcore
  | cons entry entries ih =>
    have hstep := stepCore_same h hjson hcore entry
    rw [foldlM_cons, foldlM_cons]
    revert hstep
    generalize stepCore a core entry = next
    generalize stepCore b core' entry = next'
    intro hstep
    cases hstep with
    | none => exact .none
    | some hnext => exact ih hnext

end

end Contexts

/-- What is put to a snapshot: the input of a point, or an operation at its point. -/
inductive Question (Context : Type) where
  | point (input : PointInput Context)
  | operation (input : PolicyEvaluationInput) (point : PointId)

namespace Question
variable {Context : Type}

def input : Question Context → PointInput Context
  | .point input => input
  | .operation input on => input.pointInput on

def identity : Question Context → PlainValue
  | .point input => input.identity
  | .operation input _ => input.identity

lemma operation_when_same {a b : PolicyEvaluationInput} (hop : a.op = b.op) (hrole : a.role = b.role)
    (hsession : a.sessionId = b.sessionId) (hvalue : PlainValue.Same a.value b.value) : projectedWhen a = projectedWhen b := by
  have hinner : innerOperation a.value = innerOperation b.value := by
    exact ((hvalue.get? "operation").bind_get? "op").bind_asStr
  unfold projectedWhen
  rw [hop, hrole, hsession, hinner]

/-- Two questions at one point on the same JSON value and fields. -/
structure SameInputs (a b : PointInput Context) : Prop where
  value : PlainValue.Same a.value b.value
  when : PlainValue.SameFields a.when b.when

lemma sameFields_refl (f : List (String × PlainValue)) : PlainValue.SameFields f f := fun _ => rfl

theorem identity_slot {slots slots' : List (String × Option PlainValue)} (h : PlainValue.Same (record slots) (record slots'))
    (hkeys : (slots.map Prod.fst).Nodup) (hkeys' : (slots'.map Prod.fst).Nodup) (key : String) :
    SameSlot (slots.lookup key).join (slots'.lookup key).join := by
  rw [← get?_record hkeys, ← get?_record hkeys']
  exact h.get? key

lemma text_slot {α : Type} (text : α → String) (hinj : ∀ {a b}, text a = text b → a = b) {a b : Option α}
    (h : SameSlot (a.map fun x => .str (text x)) (b.map fun x => .str (text x))) : a = b := by
  cases a with
  | none =>
    cases b with
    | none => rfl
    | some b => simp [SameSlot] at h
  | some a =>
    cases b with
    | none => simp [SameSlot] at h
    | some b =>
      have hstr : PlainValue.str (text a) = .str (text b) := by simpa [SameSlot] using h
      rw [hinj (PlainValue.str.inj hstr)]

theorem sameInputs_of_identity {a b : Question Context} (h : PlainValue.Same a.identity b.identity) :
    SameInputs a.input b.input := by
  cases a with
  | point a =>
    cases b with
    | point b =>
      have hslot := identity_slot h (by simp) (by simp)
      have hwhen : SameSlot (some (.obj a.when)) (some (.obj b.when)) := hslot "when"
      have hvalue : SameSlot (some a.value) (some b.value) := hslot "value"
      exact ⟨Option.some.inj hvalue, same_obj_iff.mp (Option.some.inj hwhen)⟩
    | operation b on =>
      have hslot : SameSlot none (some (.str b.kind)) := identity_slot h (by simp) (by simp) "kind"
      simp [SameSlot] at hslot
  | operation a on =>
    cases b with
    | point b =>
      have hslot : SameSlot (some (.str a.kind)) none := identity_slot h (by simp) (by simp) "kind"
      simp [SameSlot] at hslot
    | operation b on' =>
      have hslot := identity_slot h (by simp) (by simp)
      have hvalue : PlainValue.Same a.value b.value := Option.some.inj (hslot "value")
      have hop : a.op = b.op := by
        have hop : SameSlot (a.op.map .str) (b.op.map .str) := hslot "op"
        exact text_slot id (fun h => h) hop
      have hrole : a.role = b.role := by
        have hrole : SameSlot (a.role.map (.str ·.text)) (b.role.map (.str ·.text)) := hslot "role"
        refine text_slot Role.text (fun {x y} h => ?_) hrole
        cases x <;> cases y <;> simp_all [Role.text]
      have hsession : a.sessionId = b.sessionId := by
        have hsession : SameSlot (a.sessionId.map .str) (b.sessionId.map .str) := hslot "sessionId"
        exact text_slot id (fun h => h) hsession
      refine ⟨hvalue, ?_⟩
      change PlainValue.SameFields (projectedWhen a) (projectedWhen b)
      rw [operation_when_same hop hrole hsession hvalue]
      exact sameFields_refl _

end Question

section Decisions
variable [PlainCoding] {Context : Type}

def Question.hash (question : Question Context) : String := canonicalDigest question.identity

/-- `decide` on a question, under its hash. -/
def decideOn (snapshot : CompiledPolicySnapshot Context) (question : Question Context) (options : EvaluationOptions) :
    Option GateOutcome :=
  decidePoint snapshot question.input { options with inputHash := some question.hash }

lemma whenMatches_same (entry : CompiledEntry Context) {f g : List (String × PlainValue)} (h : PlainValue.SameFields f g) :
    whenMatches entry f = whenMatches entry g := by
  unfold whenMatches
  congr 1
  funext slot
  rw [canonicalDigest_congr ((h.lookup slot.1).getD .null)]

variable {snapshot : CompiledPolicySnapshot Context}

theorem matched_of_replays {a b : PointInput Context} {hash : String} {decision : GateDecision}
    (hpoint : a.point = b.point) (hwhen : PlainValue.SameFields a.when b.when)
    (hrows : decision.rowIds = (matchedOf snapshot a).map CompiledEntry.id)
    (h : replays snapshot b hash decision = true) : matchedOf snapshot a = matchedOf snapshot b := by
  simp only [replays, Bool.and_eq_true, all_eq_true] at h
  obtain ⟨_, hentries⟩ := h
  have hnodup := snapshot.ids_nodup a.point
  unfold matchedOf
  rw [hpoint]
  apply filter_congr
  intro entry hentry
  have hsame := whenMatches_same entry hwhen
  by_cases hreads : entry.readsContext = true
  · have hrecorded := hentries entry hentry
    rw [hreads, Bool.not_true, Bool.false_or, beq_iff_eq] at hrecorded
    have hmem : entry.row.id ∈ decision.rowIds ↔ entryMatches entry a = true := by
      rw [hrows]
      constructor
      · intro hin
        obtain ⟨other, hother, hid⟩ := mem_map.mp hin
        obtain ⟨hmem, hmatch⟩ := mem_filter.mp hother
        have heq : other = entry := by
          rw [← hpoint] at hentry
          exact inj_on_of_nodup_map hnodup hmem hentry hid
        rwa [heq] at hmatch
      · intro hmatch
        rw [← hpoint] at hentry
        exact mem_map_of_mem (mem_filter.mpr ⟨hentry, hmatch⟩)
    rw [Bool.eq_iff_iff, ← hmem, hrecorded, contains_iff_mem]
  · have hplain : entry.matcher = none ∧ entry.message = none := by
      simpa [CompiledEntry.readsContext] using hreads
    unfold entryMatches
    rw [hplain.1, hplain.2, hsame]
    rfl

lemma decideOn_replayed {question : Question Context} {options : EvaluationOptions} {recorded : GateDecision}
    {outcome : GateOutcome} (h : decideOn snapshot question { options with recorded := some recorded } = some outcome)
    (hreplayed : outcome.replayed = true) :
    replays snapshot question.input question.hash recorded = true ∧ outcome = ⟨recorded, recorded.output, [], true, none⟩ := by
  unfold decideOn decidePoint at h
  cases hreplays : replays snapshot question.input question.hash recorded with
  | true =>
    have hfilter : (some recorded).filter (replays snapshot question.input question.hash) = some recorded := by
      simp [hreplays]
    simp only [EvaluationOptions.hashOf, Option.getD_some, hfilter] at h
    exact ⟨rfl, (Option.some.inj h).symm⟩
  | false =>
    have hfilter : (some recorded).filter (replays snapshot question.input question.hash) = none := by
      simp [hreplays]
    simp only [EvaluationOptions.hashOf, Option.getD_some, hfilter] at h
    obtain ⟨folded, _, rfl⟩ := Option.map_eq_some_iff.mp h
    cases hreplayed

omit [PlainCoding] in
theorem awaited_of_rel {r : GateHandlerResult → GateHandlerResult → Prop} (entry : CompiledEntry Context)
    (pendingAsync : List String) {prepared prepared' : PreparedResults}
    (h : Option.Rel r (prepared.get? entry.row.id) (prepared'.get? entry.row.id)) :
    awaitedConsultRef entry pendingAsync prepared = awaitedConsultRef entry pendingAsync prepared' := by
  have hiff : prepared.get? entry.row.id = none ↔ prepared'.get? entry.row.id = none := by
    revert h
    generalize prepared.get? entry.row.id = answer
    generalize prepared'.get? entry.row.id = answer'
    intro h
    cases h <;> simp
  simp only [awaitedConsultRef, hiff]

structure ReplaySound (snapshot : CompiledPolicySnapshot Context) (answers : EvaluationOptions) (outcome : GateOutcome)
    (later : Question Context) : Prop where
  /-- A replay of the decision gives the decision and its value and emits nothing; folding the rows again instead, with
  the same handlers and answers of the same JSON values, gives the same verdict, row ids and JSON value. -/
  replayed : ∀ replay, decideOn snapshot later { answers with recorded := some outcome.decision } = some replay →
    replay.replayed = true → replay.decision = outcome.decision ∧ replay.value = outcome.value ∧ replay.emissions = [] ∧
      ∀ prepared : PreparedResults, (∀ id, Option.Rel SameResult (prepared.get? id) (answers.prepared.get? id)) →
        ∃ again, decideOn snapshot later { answers with prepared } = some again ∧ again.replayed = false ∧
          again.pending = none ∧ again.decision.verdict = replay.decision.verdict ∧
          again.decision.rowIds = replay.decision.rowIds ∧ PlainValue.Same again.value replay.value
  /-- A decision recorded under another generation, point, input hash or set of rows that read the context is not
  replayed. -/
  refused : ∀ recorded other, decideOn snapshot later { answers with recorded := some recorded } = some other →
    (recorded.generation ≠ snapshot.generation ∨ recorded.point ≠ later.input.point ∨ recorded.inputHash ≠ later.hash ∨
      ∃ entry ∈ snapshot.entries later.input.point, entry.readsContext = true ∧
        (entryMatches entry later.input ≠ recorded.rowIds.contains entry.id)) → other.replayed = false

theorem decision_replay_sound {snapshot : CompiledPolicySnapshot Context} {earlier later : Question Context}
    {answers : EvaluationOptions} {outcome : GateOutcome} (hfresh : answers.recorded = none)
    (h : decideOn snapshot earlier answers = some outcome) (hdone : outcome.pending = none)
    (hfree : CollisionFree [earlier.identity, later.identity])
    (hjson : ∀ ref handler, answers.handlers.getD snapshot.handlers.get? ref = some handler → ReadsJson handler) :
    ReplaySound snapshot answers outcome later := by
  refine ⟨?replayed, ?refused⟩
  case replayed =>
    intro replay hreplay hreplayed
    obtain ⟨hreplays, rfl⟩ := decideOn_replayed hreplay hreplayed
    have hearlier : ({ answers with inputHash := some earlier.hash } : EvaluationOptions).recorded = none := hfresh
    obtain ⟨hawaited, hfold, hrows⟩ := decidePoint_done hearlier h hdone
    have hdecision : outcome.decision.point = earlier.input.point ∧ outcome.decision.inputHash = earlier.hash ∧
        outcome.decision.output = outcome.value := by
      unfold decideOn decidePoint at h
      simp only [hfresh, Option.filter_none] at h
      obtain ⟨folded, _, rfl⟩ := Option.map_eq_some_iff.mp h
      exact ⟨rfl, rfl, rfl⟩
    obtain ⟨hpoint, hhash, houtput⟩ := hdecision
    have hchecks := hreplays
    simp only [replays, Bool.and_eq_true, decide_eq_true_eq] at hchecks
    obtain ⟨⟨⟨_, hlater⟩, hsameHash⟩, _⟩ := hchecks
    -- The hash stands for the value and the fields of the point.
    have hidentity : PlainValue.Same earlier.identity later.identity := by
      apply hfree earlier.identity (by simp) later.identity (by simp)
      exact hhash.symm.trans hsameHash
    have hinputs := Question.sameInputs_of_identity hidentity
    have hmatched : matchedOf snapshot earlier.input = matchedOf snapshot later.input :=
      matched_of_replays (hpoint.symm.trans hlater) hinputs.when hrows hreplays
    refine ⟨rfl, houtput, rfl, fun prepared hprepared => ?_⟩
    have hsame : SameContext
        (foldContext snapshot later.input { answers with prepared, inputHash := some later.hash })
        (foldContext snapshot earlier.input { answers with inputHash := some earlier.hash }) :=
      ⟨rfl, fun key => (hinputs.when key).symm, hprepared⟩
    have hcores : SameCore (initialCore later.input.value) (initialCore earlier.input.value) :=
      ⟨rfl, hinputs.value.symm⟩
    have hrel := foldlM_same hsame hjson (matchedOf snapshot earlier.input) hcores
    rw [hfold, hmatched] at hrel
    revert hrel
    generalize hagain : (matchedOf snapshot later.input).foldlM
      (stepCore (foldContext snapshot later.input { answers with prepared, inputHash := some later.hash }))
        (initialCore later.input.value) = core
    intro hrel
    cases hrel with
    | some hcore =>
      have hnone : ∀ entry ∈ matchedOf snapshot later.input,
          awaitedConsultRef entry answers.pendingAsync prepared = none := by
        intro entry hentry
        rw [← hmatched] at hentry
        have hbefore := hawaited entry hentry
        change awaitedConsultRef entry answers.pendingAsync answers.prepared = none at hbefore
        rwa [awaited_of_rel entry answers.pendingAsync (hprepared entry.row.id)]
      have hlaterFresh : ({ answers with prepared, inputHash := some later.hash } : EvaluationOptions).recorded = none :=
        hfresh
      obtain ⟨again, hdecide, hpending, hnot, rfl⟩ := decidePoint_of_core hlaterFresh hnone hagain
      have hids := (decidePoint_done hlaterFresh hdecide hpending).2.2
      refine ⟨again, hdecide, hnot, hpending, hcore.verdict, ?_, ?_⟩
      · rw [hids, ← hmatched, hrows]
      · rw [houtput]
        exact hcore.value
  case refused =>
    intro recorded other hother hdiffers
    cases hreplayed : other.replayed with
    | false => rfl
    | true =>
      exfalso
      obtain ⟨hreplays, _⟩ := decideOn_replayed hother hreplayed
      simp only [replays, Bool.and_eq_true, decide_eq_true_eq, all_eq_true] at hreplays
      obtain ⟨⟨⟨hgeneration, hpoint⟩, hhash⟩, hentries⟩ := hreplays
      rcases hdiffers with hd | hd | hd | ⟨entry, hentry, hreads, hd⟩
      · exact hd hgeneration
      · exact hd hpoint
      · exact hd hhash
      · have hrow := hentries entry hentry
        rw [hreads, Bool.not_true, Bool.false_or, beq_iff_eq] at hrow
        exact hd hrow

end Decisions

namespace GateSample

attribute [local instance] textCoding

def swapped : PointInput Unit := { input with value := record [("cwd", some (.str "/")), ("command", some (.str "rm"))] }

def firstKey : GateHandler := fun shown =>
  match shown.value with
  | .obj (("command", _) :: _) => .returned { verdict := some .allow, payload := some (.str "command") }
  | _ => .returned { verdict := some .deny, payload := some (.str "other") }

def ordered : CompiledPolicySnapshot Unit :=
  atPoint .toolPre [entry "guard/tool.pre#1" .gate { ref := some "guard/first" } 1] [("guard/first", firstKey)] [] (by decide)

/-- The inputs have one hash, and the decision on the first is replayed on the second, but the guard denies the second;
the values differ in the order of their keys. -/
theorem replay_reads_key_order : ∃ outcome replay again, decideOn ordered (.point input) {} = some outcome ∧
    decideOn ordered (.point swapped) { recorded := some outcome.decision } = some replay ∧ replay.replayed = true ∧
      decideOn ordered (.point swapped) {} = some again ∧ replay.decision.verdict = .allow ∧
        again.decision.verdict = .deny ∧ again.value ≠ replay.value := by
  have hfacts : ((decideOn ordered (.point input) {}).bind fun outcome =>
      (decideOn ordered (.point swapped) { recorded := some outcome.decision }).bind fun replay =>
        (decideOn ordered (.point swapped) {}).map fun again => (replay.replayed, replay.decision.verdict,
          again.decision.verdict, decide (again.value ≠ replay.value))) = some (true, .allow, .deny, true) := by
    decide
  obtain ⟨outcome, houtcome, hrest⟩ := Option.bind_eq_some_iff.mp hfacts
  obtain ⟨replay, hreplay, hrest⟩ := Option.bind_eq_some_iff.mp hrest
  obtain ⟨again, hagain, hall⟩ := Option.map_eq_some_iff.mp hrest
  simp only [Prod.mk.injEq, decide_eq_true_eq] at hall
  exact ⟨outcome, replay, again, houtcome, hreplay, hall.1, hagain, hall.2.1, hall.2.2.1, hall.2.2.2⟩

def static : CompiledPolicySnapshot Unit :=
  atPoint .toolPre [entry "ask/tool.pre#1" .gate { verdict := some .requireApproval } 1] [] [] (by decide)

theorem decision_replay_sound_static : ∃ outcome, decideOn static (.point input) {} = some outcome ∧
    ReplaySound static {} outcome (.point swapped) := by
  have hfacts : (decideOn static (.point input) {}).map (·.pending) = some none := by
    decide
  obtain ⟨outcome, h, hdone⟩ := Option.map_eq_some_iff.mp hfacts
  have hsame : (Question.point input).identity.canonical = (Question.point swapped).identity.canonical := by
    decide
  have hfree : CollisionFree [(Question.point input).identity, (Question.point swapped).identity] := by
    intro v hv w hw _
    simp only [mem_cons, not_mem_nil, or_false] at hv hw
    rcases hv with rfl | rfl
    · rcases hw with rfl | rfl
      · rfl
      · exact hsame
    · rcases hw with rfl | rfl
      · exact hsame.symm
      · rfl
  have hjson : ∀ ref handler, (none : Option HandlerResolver).getD static.handlers.get? ref = some handler →
      ReadsJson handler := by
    intro ref handler hnone
    cases hnone
  exact ⟨outcome, h, decision_replay_sound rfl h hdone hfree hjson⟩

end GateSample
end OpenOmni
