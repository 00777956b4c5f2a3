import OpenOmni.Journal.Delivery
import OpenOmni.Journal.TurnActions
import OpenOmni.Store.PendingTail
import OpenOmni.Store.TurnReads

/-! What a turn start commits of the inputs it takes, and what becomes of those a policy does not refuse. -/
namespace OpenOmni
open List

open PlainValue SessionTurn

/-- What `runExisting` gives back for a prompt; `body` is the text a `prompt.pre` rule put in its place. -/
structure PromptOutcome where
  executed : Bool
  reason : String
  value : PlainValue
  body : Option String

def recordedPrompt (item : DeliveryRow) : PlainValue :=
  record [("deliveryId", some (.str item.id)), ("status", some (.str "recorded"))]

structure Evaluated where
  refusal : Option String
  contents : Dict String String

section
variable [PlainCoding] (outcome : DeliveryRow → PromptOutcome)

def promptRefusal (item : DeliveryRow) : Option String :=
  if !(outcome item).executed then some (outcome item).reason
  else if canonicalDigest (outcome item).value ≠ canonicalDigest (recordedPrompt item) then some "invalid_output"
  else none

/-- One prompt of `evaluatePromptPolicies`; the first refusal stays. -/
def evaluatePrompt (evaluated : Evaluated) (item : DeliveryRow) : Evaluated :=
  if item.kind ≠ .prompt then evaluated
  else
    { refusal := evaluated.refusal.or (promptRefusal outcome item),
      contents := match (outcome item).body with
        | some body => if body ≠ item.content then evaluated.contents.set item.id body else evaluated.contents
        | none => evaluated.contents }

def evaluatePromptPolicies (items : List DeliveryRow) : Evaluated :=
  items.foldl (evaluatePrompt outcome) ⟨none, Dict.empty⟩

def deliveredItem (contents : Dict String String) (item : DeliveryRow) : DeliveryRow :=
  match contents.get? item.id with
  | none => item
  | some body => { item with content := body }

/-- What `startTurn` stands on: the ids it mints, the generation, and what it reads of the session. -/
structure TurnStart where
  sessionId : String
  turnId : String
  resultId : String
  pinned : Pinned
  settings : ConsumptionSettings
  compactionHead : ℕ
  latestId : Option String
  «at» : ℚ

/-- What `startTurn` commits: the no-op deliveries of a refused batch, or the turn with its deliveries, which
it seals at once when it was interrupted. -/
inductive StartPlan where
  | blocked (reason : String) (actions : List Append)
  | started (actions : List Append) (interrupted : Bool)

def StartPlan.actions : StartPlan → List Append
  | .blocked _ actions => actions
  | .started actions _ => actions

def InputKind.interrupts : InputKind → Bool
  | .interrupt | .cancel => true
  | _ => false

def TurnStart.batch (start : TurnStart) (backlog : List DeliveryRow) : List DeliveryRow :=
  (boundaryConsumption backlog .turnEnd start.settings start.compactionHead).consumed

/-- `startTurn`, up to its commit. -/
def startTurn (start : TurnStart) (backlog : List DeliveryRow) : StartPlan :=
  let stale := (boundaryConsumption backlog .turnEnd start.settings start.compactionHead).stale
  let evaluated := evaluatePromptPolicies outcome (start.batch backlog)
  match evaluated.refusal with
  | some reason => .blocked reason (deliveryActions (start.batch backlog) .pending .beforeLlm start.latestId)
  | none =>
    let deliveries := deliveryActions ((start.batch backlog).map (deliveredItem evaluated.contents))
      (.turn start.turnId) .beforeLlm start.latestId
    let envelope := turnIntentAction start.turnId ((deliveries.getLast?.map (·.id)).or start.latestId)
      start.sessionId start.resultId ((start.batch backlog).map (·.id)) (stale.map (·.id)) start.pinned 0
      start.latestId start.at
    .started (deliveries ++ [envelope]) ((start.batch backlog).any (·.kind.interrupts))

end

@[simp] theorem deliveredItem_id (contents : Dict String String) (item : DeliveryRow) :
    (deliveredItem contents item).id = item.id := by
  unfold deliveredItem
  split <;> rfl

section
variable [PlainCoding] {outcome : DeliveryRow → PromptOutcome} {start : TurnStart} {backlog items : List DeliveryRow}

lemma foldl_evaluatePrompt_refusal (evaluated : Evaluated) :
    (items.foldl (evaluatePrompt outcome) evaluated).refusal = none ↔
      evaluated.refusal = none ∧ ∀ item ∈ items, item.kind = .prompt → promptRefusal outcome item = none := by
  induction items generalizing evaluated with
  | nil => simp
  | cons item items ih =>
    rw [foldl_cons, ih]
    by_cases hkind : item.kind = .prompt
    · simp [evaluatePrompt, hkind, and_assoc]
    · simp [evaluatePrompt, hkind]

lemma evaluatePromptPolicies_refusal : (evaluatePromptPolicies outcome items).refusal = none ↔
    ∀ item ∈ items, item.kind = .prompt → promptRefusal outcome item = none := by
  unfold evaluatePromptPolicies
  rw [foldl_evaluatePrompt_refusal]
  simp

theorem startTurn_blocked (h : ∃ item ∈ start.batch backlog, item.kind = .prompt ∧ promptRefusal outcome item ≠ none) :
    ∃ reason, startTurn outcome start backlog =
      .blocked reason (deliveryActions (start.batch backlog) .pending .beforeLlm start.latestId) := by
  have hrefused : (evaluatePromptPolicies outcome (start.batch backlog)).refusal ≠ none := by
    rw [Ne, evaluatePromptPolicies_refusal]
    intro hall
    obtain ⟨item, hitem, hkind, hrefusal⟩ := h
    exact hrefusal (hall item hitem hkind)
  obtain ⟨reason, hreason⟩ := Option.ne_none_iff_exists'.mp hrefused
  refine ⟨reason, ?_⟩
  unfold startTurn
  simp only [hreason]

theorem startTurn_started (h : ∀ item ∈ start.batch backlog, item.kind = .prompt → promptRefusal outcome item = none) :
    ∃ contents parentId stale, startTurn outcome start backlog = .started
      (deliveryActions ((start.batch backlog).map (deliveredItem contents)) (.turn start.turnId) .beforeLlm start.latestId ++
        [turnIntentAction start.turnId parentId start.sessionId start.resultId ((start.batch backlog).map (·.id)) stale
          start.pinned 0 start.latestId start.at])
      ((start.batch backlog).any (·.kind.interrupts)) := by
  have hnone := evaluatePromptPolicies_refusal.mpr h
  unfold startTurn
  simp only [hnone]
  exact ⟨_, _, _, rfl⟩

end

def deliversTo (turnId id : String) (action : Append) : Bool :=
  inputRowKinds.contains action.kind && extractIs action.effect "phase" "delivery" &&
    extractIs action.effect "deliveryId" id && extractIs action.effect "turnId" turnId

lemma inputRowKind_mem (kind : InputKind) : inputRowKinds.contains (inputRowKind kind) := by
  cases kind <;> decide

lemma Decorated.eq_of_input {draft action : Append} (h : Decorated draft action)
    (hkind : inputRowKinds.contains draft.kind) : action = draft := by
  cases h with
  | same => rfl
  | intent _ _ hturn | resume _ _ hturn => simp [hturn, inputRowKinds] at hkind
  | compaction _ hcompaction => simp [hcompaction, inputRowKinds] at hkind

theorem Decorates.filter_input {p : Append → Bool} (hp : ∀ action, p action → inputRowKinds.contains action.kind)
    {drafts actions : List Append} (h : Decorates drafts actions) : actions.filter p = drafts.filter p := by
  induction h with
  | nil => rfl
  | @draft draft action _ _ hdecorated _ ih =>
    by_cases hkind : inputRowKinds.contains draft.kind
    · rw [hdecorated.eq_of_input hkind, filter_cons, filter_cons, ih]
    · have hdraft : p draft = false := by
        by_contra htrue
        exact hkind (hp draft (by simpa using htrue))
      have haction : p action = false := by
        by_contra htrue
        exact hkind (hdecorated.kind ▸ hp action (by simpa using htrue))
      rw [filter_cons, filter_cons, hdraft, haction, ih]
      rfl
  | @checkpoint checkpoint _ _ hcheckpoint _ ih =>
    have hnot : p checkpoint = false := by
      by_contra htrue
      have hinput := hp checkpoint (by simpa using htrue)
      simp [hcheckpoint, inputRowKinds] at hinput
    rw [filter_cons_of_neg (by simp [hnot]), ih]

lemma deliveryAction_deliversTo {item : DeliveryRow} {turnId id : String} {boundary : Boundary} {parent : Option String} :
    deliversTo turnId id (deliveryAction item (.turn turnId) boundary parent) = decide (item.id = id) := by
  have hkind := inputRowKind_mem item.kind
  simp only [deliversTo, deliveryAction, hkind, extractIs]
  simp [get?_record, List.lookup]

lemma filter_deliversTo {items : List DeliveryRow} {turnId id : String} {boundary : Boundary}
    {parent : Option String} :
    ((deliveryActions items (.turn turnId) boundary parent).filter (deliversTo turnId id)).length =
      (items.map (·.id)).count id := by
  induction items generalizing parent with
  | nil => rfl
  | cons item items ih =>
    have hrow := @deliveryAction_deliversTo item turnId id boundary parent
    unfold deliveryActions
    rw [filter_cons, hrow, map_cons, count_cons]
    by_cases hid : item.id = id
    · simp [hid, ih]
    · simp [hid, ih]

theorem blocked_no_turn {new : List Node} {items : List DeliveryRow} {parentId : Option String}
    (hnew : Decorates (deliveryActions items .pending .beforeLlm parentId) (new.map (·.toAppend))) :
    ∀ row ∈ new, row.kind ≠ .turn := by
  intro row hrow hturn
  rcases hnew.of_mem (mem_map_of_mem hrow) with hcheckpoint | ⟨draft, hdraft, hdecorated⟩
  · rw [hturn] at hcheckpoint
    cases hcheckpoint
  · obtain ⟨item, -, parent, rfl⟩ := mem_deliveryActions hdraft
    have hkind := hdecorated.kind
    rw [hturn] at hkind
    have hinput : inputRowKinds.contains (inputRowKind item.kind) := inputRowKind_mem item.kind
    rw [show inputRowKind item.kind = Kind.turn from hkind.symm] at hinput
    exact absurd hinput (by decide)

lemma filter_toAppend (p : Append → Bool) (nodes : List Node) :
    (nodes.filter fun row => p row.toAppend).length = ((nodes.map (·.toAppend)).filter p).length := by
  rw [filter_map, length_map]
  rfl

section
variable [PlainCoding] {numText : ℚ → String}

lemma closedIds_deliveryAction (item : DeliveryRow) (target : DeliveryTarget) (boundary : Boundary)
    (parent : Option String) :
    closedIds numText (deliveryAction item target boundary parent).kind
      (deliveryAction item target boundary parent).intent = [item.id] := by
  have hkind : inputRowKinds.contains (deliveryAction item target boundary parent).kind := inputRowKind_mem item.kind
  unfold closedIds
  rw [if_pos hkind]
  simp [jsonExtract, deliveryAction_deliveryId, sqlValue, SqlValue.asText]

lemma closesId_iff {rows : List Node} {id : String} :
    closesId numText rows id ↔ ∃ row ∈ rows, id ∈ closedIds numText row.kind row.intent := by
  simp [closesId]

theorem not_pending_of_closes {rows : List Node} {id : String} (h : closesId numText rows id) :
    id ∉ (pendingActions numText rows).map (·.id) := by
  intro hmem
  obtain ⟨row, hrow, rfl⟩ := mem_map.mp hmem
  have hopen := (mem_filter.mp hrow).2
  simp [h] at hopen

/-- What a turn start owes the inputs of its batch that no policy refuses. Each allowed prompt is delivered to the
turn by one row, and an interrupt or a cancel seals the turn; failing that, the input is still pending. -/
structure KeepsBatch (numText : ℚ → String) (outcome : DeliveryRow → PromptOutcome) (start : TurnStart)
    (backlog : List DeliveryRow) (plan : StartPlan) (rows new : List Node) : Prop where
  prompts : ∀ item ∈ start.batch backlog, item.kind = .prompt → promptRefusal outcome item = none →
    ((new.filter fun row => deliversTo start.turnId item.id row.toAppend).length = 1 ∧
        ∃ row ∈ new, row.id = start.turnId ∧ row.kind = .turn ∧ extractIs row.intent "phase" "intent") ∨
      item.id ∈ (pendingActions numText (rows ++ new)).map (·.id)
  controls : ∀ item ∈ start.batch backlog, item.kind.interrupts →
    (∃ actions, plan = .started actions true) ∨ item.id ∈ (pendingActions numText (rows ++ new)).map (·.id)

/-- Either no prompt of the batch is refused, or every one is and nothing interrupts. -/
def Unmixed (outcome : DeliveryRow → PromptOutcome) (batch : List DeliveryRow) : Prop :=
  (∀ item ∈ batch, item.kind = .prompt → promptRefusal outcome item = none) ∨
    ∀ item ∈ batch, (item.kind = .prompt → promptRefusal outcome item ≠ none) ∧ ¬ item.kind.interrupts

variable {outcome : DeliveryRow → PromptOutcome} {start : TurnStart} {backlog : List DeliveryRow}
  {rows new : List Node}

theorem batch_closed (hnew : Decorates (startTurn outcome start backlog).actions (new.map (·.toAppend)))
    {item : DeliveryRow} (hitem : item ∈ start.batch backlog) (rest : List Node) :
    closesId numText (rows ++ new ++ rest) item.id := by
  have hdraft : ∃ draft ∈ (startTurn outcome start backlog).actions,
      inputRowKinds.contains draft.kind ∧ item.id ∈ closedIds numText draft.kind draft.intent := by
    by_cases hrefused : ∃ item ∈ start.batch backlog, item.kind = .prompt ∧ promptRefusal outcome item ≠ none
    · obtain ⟨reason, hplan⟩ := startTurn_blocked hrefused
      obtain ⟨parent, hmem⟩ := @exists_deliveryAction (start.batch backlog) .pending .beforeLlm start.latestId item hitem
      refine ⟨_, by rw [hplan]; exact hmem, inputRowKind_mem item.kind, ?_⟩
      rw [closedIds_deliveryAction]
      exact mem_singleton_self _
    · have hall : ∀ item ∈ start.batch backlog, item.kind = .prompt → promptRefusal outcome item = none := by
        intro other hother hkind
        by_contra hne
        exact hrefused ⟨other, hother, hkind, hne⟩
      obtain ⟨contents, parentId, stale, hplan⟩ := startTurn_started hall
      have hdelivered : deliveredItem contents item ∈ (start.batch backlog).map (deliveredItem contents) :=
        mem_map_of_mem hitem
      obtain ⟨parent, hmem⟩ := @exists_deliveryAction _ (.turn start.turnId) .beforeLlm start.latestId _ hdelivered
      refine ⟨_, by rw [hplan]; exact mem_append_left _ hmem, inputRowKind_mem _, ?_⟩
      rw [closedIds_deliveryAction, deliveredItem_id]
      exact mem_singleton_self _
  obtain ⟨draft, hmem, hkind, hid⟩ := hdraft
  obtain ⟨action, haction, hdecorated⟩ := hnew.exists_decorated hmem
  obtain ⟨row, hrow, rfl⟩ := mem_map.mp haction
  have hsame := hdecorated.eq_of_input hkind
  refine closesId_iff.mpr ⟨row, by simp [hrow], ?_⟩
  rw [← hsame] at hid
  exact hid

lemma batch_nodup {read : List Node} (hids : (read.map (·.id)).Nodup) (hread : pendingRows numText read = some backlog) :
    ((start.batch backlog).map (·.id)).Nodup := by
  obtain ⟨hall, rfl⟩ := openDeliveryRows_eq_some.mp hread
  have hsame : (numbered ((pendingActions numText read).filterMap firstRow)).map (·.id) =
      (pendingActions numText read).map (·.id) := by
    rw [map_id_numbered, map_id_filterMap hall]
  have hbacklog : ((numbered ((pendingActions numText read).filterMap firstRow)).map (·.id)).Nodup := by
    rw [hsame]
    exact (filter_sublist.map _).nodup hids
  exact (boundaryConsumption_consumed.map _).nodup hbacklog

/-- A turn start keeps the inputs that no policy refuses exactly when it is not a mixed batch; and what it takes
is never pending again. -/
theorem start_keeps_batch (numText : ℚ → String) (outcome : DeliveryRow → PromptOutcome) (start : TurnStart)
    (read : List Node) (backlog : List DeliveryRow) (between new : List Node)
    (hids : (read.map (·.id)).Nodup) (hread : pendingRows numText read = some backlog)
    (hnew : Decorates (startTurn outcome start backlog).actions (new.map (·.toAppend))) :
    (KeepsBatch numText outcome start backlog (startTurn outcome start backlog) (read ++ between) new ↔
      Unmixed outcome (start.batch backlog)) ∧
    ∀ item ∈ start.batch backlog, ∀ rest,
      item.id ∉ (pendingActions numText (read ++ between ++ new ++ rest)).map (·.id) := by
  have hclosed : ∀ item ∈ start.batch backlog, ∀ rest,
      item.id ∉ (pendingActions numText (read ++ between ++ new ++ rest)).map (·.id) :=
    fun item hitem rest => not_pending_of_closes (batch_closed hnew hitem rest)
  have hgone : ∀ item ∈ start.batch backlog, item.id ∉ (pendingActions numText (read ++ between ++ new)).map (·.id) := by
    intro item hitem
    have hempty := hclosed item hitem []
    rwa [append_nil] at hempty
  have hnodup : ((start.batch backlog).map (·.id)).Nodup := batch_nodup hids hread
  refine ⟨⟨?_, ?_⟩, hclosed⟩
  · intro hkeeps
    by_cases hrefused : ∃ item ∈ start.batch backlog, item.kind = .prompt ∧ promptRefusal outcome item ≠ none
    · obtain ⟨reason, hplan⟩ := startTurn_blocked hrefused
      rw [hplan] at hnew
      refine Or.inr fun item hitem => ⟨fun hprompt hallowed => ?_, fun hinterrupts => ?_⟩
      · rcases hkeeps.prompts item hitem hprompt hallowed with ⟨-, row, hrow, -, hturn, -⟩ | hpending
        · exact blocked_no_turn hnew row hrow hturn
        · exact hgone item hitem hpending
      · rcases hkeeps.controls item hitem hinterrupts with ⟨actions, hstarted⟩ | hpending
        · rw [hplan] at hstarted
          cases hstarted
        · exact hgone item hitem hpending
    · refine Or.inl fun item hitem hkind => ?_
      by_contra hne
      exact hrefused ⟨item, hitem, hkind, hne⟩
  · rintro (hall | hnone)
    · obtain ⟨contents, parentId, stale, hplan⟩ := startTurn_started hall
      rw [hplan] at hnew
      constructor
      · intro item hitem hprompt hallowed
        refine Or.inl ⟨?_, ?_⟩
        · have hinput : ∀ action : Append, deliversTo start.turnId item.id action → inputRowKinds.contains action.kind := by
            intro action hdelivers
            simp only [deliversTo, Bool.and_eq_true] at hdelivers
            exact hdelivers.1.1.1
          rw [filter_toAppend, hnew.filter_input hinput, StartPlan.actions, filter_append, length_append,
            filter_deliversTo, map_map]
          have hmap : (fun item : DeliveryRow => item.id) ∘ deliveredItem contents = fun item => item.id := by
            funext item
            exact deliveredItem_id contents item
          have hone : ((start.batch backlog).map (·.id)).count item.id = 1 :=
            count_eq_one_of_mem hnodup (mem_map_of_mem hitem)
          rw [hmap, hone, filter_cons_of_neg (by simp [deliversTo, turnIntentAction, turnEnvelopeAction, inputRowKinds])]
          rfl
        · obtain ⟨action, haction, hdecorated⟩ := hnew.exists_decorated (mem_append_right _ (mem_singleton_self _))
          obtain ⟨row, hrow, rfl⟩ := mem_map.mp haction
          refine ⟨row, hrow, hdecorated.id, hdecorated.kind, ?_⟩
          have hphase := (hdecorated.get? (by simp [turnIntentAction, turnEnvelopeAction])
            (show "phase" ≠ "context" by decide)).1
          simp only [extractIs, hphase, decide_eq_true_eq]
          simp [turnIntentAction, turnEnvelopeAction, Intent.get?_toPlain, Intent.slots]
      · intro item hitem hinterrupts
        have hany : (start.batch backlog).any (·.kind.interrupts) = true := any_eq_true.mpr ⟨item, hitem, hinterrupts⟩
        rw [hplan, hany]
        exact Or.inl ⟨_, rfl⟩
    · exact ⟨fun item hitem hprompt hallowed => absurd hallowed ((hnone item hitem).1 hprompt),
        fun item hitem hinterrupts => absurd hinterrupts (hnone item hitem).2⟩

end

end OpenOmni

namespace OpenOmni.TurnStartSample

open PlainValue

attribute [local instance] textCoding

def numText (q : ℚ) : String := PlainValue.text (.num q)

def promptNode (id : String) (ordinal : ℕ) : Node :=
  ⟨receivedMessageAction id "s" .prompt "hello" (.obj []) none 0 none, ordinal⟩

def promptItem (id : String) (ordinal : ℕ) : DeliveryRow where
  id := id
  sessionId := "s"
  kind := .prompt
  content := "hello"
  origin := .obj []
  delivery := none
  after := none
  status := .pending
  createdAt := 0
  ordinal := ordinal

def start : TurnStart where
  sessionId := "s"
  turnId := "t"
  resultId := "r"
  pinned := ⟨1, "tools", "system", 1⟩
  settings := ⟨.all, .all⟩
  compactionHead := 0
  latestId := none
  «at» := 1

def recorded (item : DeliveryRow) : PromptOutcome := ⟨true, "", recordedPrompt item, none⟩

/-- A rule denies `p`. -/
def deniesFirst (item : DeliveryRow) : PromptOutcome :=
  if item.id = "p" then ⟨false, "denied", .null, none⟩ else recorded item

def read : List Node := [promptNode "p" 1, promptNode "q" 2]

def backlog : List DeliveryRow := [promptItem "p" 1, promptItem "q" 2]

def committed (plan : StartPlan) : List Node := plan.actions.mapIdx fun index action => ⟨action, index + 3⟩

lemma committed_decorates (plan : StartPlan) :
    Decorates plan.actions ((committed plan).map (·.toAppend)) := by
  have hsame : (committed plan).map (·.toAppend) = plan.actions := by
    apply List.ext_getElem?
    intro index
    simp [committed, Function.comp_def]
  rw [hsame]
  exact Decorates.refl _

theorem start_keeps_batch_allowed :
    KeepsBatch numText recorded start backlog (startTurn recorded start backlog) read
      (committed (startTurn recorded start backlog)) := by
  have hkeeps := (start_keeps_batch numText recorded start read backlog []
    (committed (startTurn recorded start backlog)) (by decide) (by decide) (committed_decorates _)).1.mpr
    (Or.inl (by decide))
  rwa [List.append_nil] at hkeeps

/-- Denying `p` closes `q` too, which no turn gets. -/
theorem denied_prompt_takes_batch :
    pendingRows numText read = some backlog ∧ promptRefusal deniesFirst (promptItem "q" 2) = none ∧
      ¬ KeepsBatch numText deniesFirst start backlog (startTurn deniesFirst start backlog) read
        (committed (startTurn deniesFirst start backlog)) := by
  have hread : pendingRows numText read = some backlog := by decide
  have hallowed : promptRefusal deniesFirst (promptItem "q" 2) = none := by decide
  refine ⟨hread, hallowed, fun hkeeps => ?_⟩
  have hfacts : promptItem "q" 2 ∈ start.batch backlog ∧
      (∀ row ∈ committed (startTurn deniesFirst start backlog), row.kind ≠ .turn) ∧
      "q" ∉ (pendingActions numText (read ++ committed (startTurn deniesFirst start backlog))).map (·.id) := by
    decide
  obtain ⟨hmem, hturn, hpending⟩ := hfacts
  rcases hkeeps.prompts _ hmem rfl hallowed with ⟨-, row, hrow, -, hkind, -⟩ | hlater
  · exact hturn row hrow hkind
  · exact hpending hlater

end OpenOmni.TurnStartSample
