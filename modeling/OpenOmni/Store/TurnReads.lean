import OpenOmni.Store.Pending

/-! The reads of a session's turns and inputs, over its rows in the order of their ordinals. -/
namespace OpenOmni
open List

open PlainValue SessionTurn

def turnIntent (action : Node) : Option Intent := if action.kind = .turn then Intent.ofPlain action.intent else none

def turnResume (action : Node) : Option Resume := if action.kind = .turn then Resume.ofPlain action.intent else none

def turnCheckpoint (action : Node) : Option Checkpoint :=
  if action.kind = .turn then Checkpoint.ofPlain action.effect else none

def turnTerminal (action : Node) : Option Terminal :=
  if action.kind = .turn then Terminal.ofPlain action.effect else none

structure OpenTurn where
  turnId : String
  resultId : String
  resumeCount : ℕ
  boundaryActionId : Option String
  pinned : Pinned
  action : Node
deriving DecidableEq

/-- One action of `openTurns`. -/
def openTurnsStep (opened : Dict String OpenTurn) (action : Node) : Dict String OpenTurn :=
  match turnIntent action with
  | some intent =>
    opened.set action.id ⟨action.id, intent.resultId, intent.resumeCount, intent.boundaryActionId, intent.pinned, action⟩
  | none =>
    match turnResume action with
    | some resume =>
      match opened.get? resume.turnId with
      | some current =>
        opened.set resume.turnId { current with
          resultId := resume.resultId, resumeCount := resume.resumeCount,
          boundaryActionId := resume.boundaryActionId, pinned := resume.pinned, action }
      | none => opened
    | none =>
      match turnCheckpoint action with
      | some checkpoint =>
        match opened.get? checkpoint.turnId with
        | some current =>
          opened.set checkpoint.turnId { current with
            resultId := checkpoint.resultId, resumeCount := checkpoint.resumeCount,
            boundaryActionId := checkpoint.boundaryActionId, action }
        | none => opened
      | none =>
        match turnTerminal action with
        | some terminal => opened.erase terminal.turnId
        | none => opened

def openTurns (actions : List Node) : List OpenTurn := (actions.foldl openTurnsStep Dict.empty).values

variable {action : Node} {opened : Dict String OpenTurn} {turn : OpenTurn}

lemma turnTerminal_some {terminal : Terminal} (h : turnTerminal action = some terminal) :
    action.kind = .turn ∧ extractIs action.effect "phase" "terminal" = true ∧
      extractIs action.effect "turnId" terminal.turnId = true := by
  unfold turnTerminal at h
  split at h
  · rename_i hkind
    obtain ⟨hphase, hturn⟩ := Terminal.ofPlain_some h
    exact ⟨hkind, by simp [extractIs, hphase], by simp [extractIs, hturn]⟩
  · cases h

theorem openTurnsStep_empty (h : turnIntent action = none) : openTurnsStep Dict.empty action = Dict.empty := by
  unfold openTurnsStep
  rw [h]
  cases turnResume action with
  | some resume => rfl
  | none =>
    cases turnCheckpoint action with
    | some checkpoint => rfl
    | none =>
      cases turnTerminal action with
      | some terminal | none => rfl

lemma openTurnsStep_intent (h : (turnIntent action).isSome) :
    ((openTurnsStep opened action).get? action.id).isSome := by
  obtain ⟨intent, hintent⟩ := Option.isSome_iff_exists.mp h
  simp [openTurnsStep, hintent]

theorem openTurnsStep_keeps {turnId : String} (hopen : (opened.get? turnId).isSome)
    (h : ∀ terminal, turnTerminal action = some terminal → terminal.turnId ≠ turnId) :
    ((openTurnsStep opened action).get? turnId).isSome := by
  have hset : ∀ key turn, ((opened.set key turn).get? turnId).isSome := by
    intro key turn
    rw [Dict.get?_set]
    split
    · rfl
    · exact hopen
  unfold openTurnsStep
  cases turnIntent action with
  | some intent => exact hset _ _
  | none =>
    cases turnResume action with
    | some resume =>
      dsimp only
      split
      · exact hset _ _
      · exact hopen
    | none =>
      cases turnCheckpoint action with
      | some checkpoint =>
        dsimp only
        split
        · exact hset _ _
        · exact hopen
      | none =>
        cases hterminal : turnTerminal action with
        | some terminal =>
          dsimp only
          rw [Dict.get?_erase, if_neg (h terminal hterminal).symm]
          exact hopen
        | none => exact hopen

theorem openTurnsStep_action (h : turn ∈ (openTurnsStep opened action).values) :
    turn.action = action ∨ turn ∈ opened.values := by
  have hset : ∀ key next, next.action = action → turn ∈ (opened.set key next).values →
      turn.action = action ∨ turn ∈ opened.values := by
    intro key next hnext hmem
    rcases Dict.mem_values_set hmem with rfl | hold
    · exact Or.inl hnext
    · exact Or.inr hold
  unfold openTurnsStep at h
  cases hintent : turnIntent action with
  | some intent =>
    rw [hintent] at h
    exact hset _ _ rfl h
  | none =>
    rw [hintent] at h
    cases hresume : turnResume action with
    | some resume =>
      rw [hresume] at h
      dsimp only at h
      split at h
      · exact hset _ _ rfl h
      · exact Or.inr h
    | none =>
      rw [hresume] at h
      cases hcheckpoint : turnCheckpoint action with
      | some checkpoint =>
        rw [hcheckpoint] at h
        dsimp only at h
        split at h
        · exact hset _ _ rfl h
        · exact Or.inr h
      | none =>
        rw [hcheckpoint] at h
        cases hterminal : turnTerminal action with
        | some terminal =>
          rw [hterminal] at h
          exact Or.inr (Dict.mem_values_erase h)
        | none =>
          rw [hterminal] at h
          exact Or.inr h

lemma openTurns_action {actions : List Node} (h : turn ∈ openTurns actions) : turn.action ∈ actions := by
  have hall : ∀ (part : List Node) (opened : Dict String OpenTurn), turn ∈ (part.foldl openTurnsStep opened).values →
      turn.action ∈ part ∨ turn ∈ opened.values := by
    intro part
    induction part with
    | nil =>
      intro opened hmem
      exact Or.inr hmem
    | cons action part ih =>
      intro opened hmem
      rcases ih _ hmem with hlater | hstep
      · exact Or.inl (mem_cons_of_mem _ hlater)
      · rcases openTurnsStep_action hstep with heq | hold
        · exact Or.inl (heq ▸ mem_cons_self)
        · exact Or.inr hold
  rcases hall actions Dict.empty h with hmem | hempty
  · exact hmem
  · cases hempty

section
variable (rows : List Node)

/-- A row of `json_extract(effect, '$.phase') = 'terminal'` over the turn. -/
def isTerminalOf (turnId : String) (action : Node) : Bool :=
  action.kind = .turn && extractIs action.effect "phase" "terminal" && extractIs action.effect "turnId" turnId

def turnPage : ℕ := 256

/-- `openTurnsPage` of the store: turn intents without a terminal row. -/
def openIntentsPage (cursor : ℕ) : List Node :=
  (rows.filter fun a => a.kind = .turn && extractIs a.intent "phase" "intent" && cursor < a.ordinal &&
    !rows.any (isTerminalOf a.id)).take turnPage

def latestTurnUpdate (turnId : String) : Option Node :=
  (rows.filter fun a =>
    a.kind = .turn && (extractIs a.intent "turnId" turnId || extractIs a.effect "turnId" turnId)).getLast?

def openTurnsPageIn (cursor : ℕ) : List OpenTurn :=
  (openIntentsPage rows cursor).flatMap fun intent =>
    match latestTurnUpdate rows intent.id with
    | none => openTurns [intent]
    | some update => openTurns [intent, update]

/-- The loop of `latestOpenTurnIn`; the outer `none` is its throw. -/
def latestOpenTurnLoop : ℕ → ℕ → Option OpenTurn → Option (Option OpenTurn)
  | 0, _, latest => some latest
  | fuel + 1, cursor, latest =>
    let page := openTurnsPageIn rows cursor
    match page.getLast?.or latest with
    | none => some none
    | some found =>
      if page.length < turnPage then some (some found)
      else match rows.find? (·.id = found.turnId) with
        | none => none
        | some intent => latestOpenTurnLoop fuel intent.ordinal (some found)

def latestOpenTurnIn : Option (Option OpenTurn) := latestOpenTurnLoop rows (rows.length + 1) 0 none

def latestTurnTerminal : Option (Node × Terminal) := do
  let action ← (rows.filter fun a => a.kind = .turn && extractIs a.effect "phase" "terminal").getLast?
  let effect ← turnTerminal action
  return (action, effect)

variable {fuel cursor : ℕ} {turn : OpenTurn}

lemma latestOpenTurnLoop_ne_nothing {found : OpenTurn} :
    latestOpenTurnLoop rows fuel cursor (some found) ≠ some none := by
  induction fuel generalizing cursor found with
  | zero => simp [latestOpenTurnLoop]
  | succ fuel ih =>
    obtain ⟨later, hlater⟩ : ∃ later, (openTurnsPageIn rows cursor).getLast?.or (some found) = some later := by
      cases (openTurnsPageIn rows cursor).getLast? with
      | none => exact ⟨found, rfl⟩
      | some last => exact ⟨last, rfl⟩
    unfold latestOpenTurnLoop
    dsimp only
    rw [hlater]
    dsimp only
    split
    · simp
    · cases rows.find? (·.id = later.turnId) with
      | none => simp
      | some intent => exact ih

theorem latestOpenTurnIn_eq_nothing : latestOpenTurnIn rows = some none ↔ openTurnsPageIn rows 0 = [] := by
  unfold latestOpenTurnIn latestOpenTurnLoop
  dsimp only
  rw [Option.or_none]
  cases hlast : (openTurnsPageIn rows 0).getLast? with
  | none => simpa using getLast?_eq_none_iff.mp hlast
  | some found =>
    have hne : openTurnsPageIn rows 0 ≠ [] := by
      intro hnil
      simp [hnil] at hlast
    dsimp only
    refine ⟨fun h => absurd h ?_, fun hnil => absurd hnil hne⟩
    split
    · simp
    · cases rows.find? (·.id = found.turnId) with
      | none => simp
      | some intent => exact latestOpenTurnLoop_ne_nothing rows

variable {rows}

lemma latestTurnUpdate_mem {turnId : String} {update : Node} (h : latestTurnUpdate rows turnId = some update) :
    update ∈ rows := mem_of_mem_filter (mem_of_getLast? h)

lemma openTurnsPageIn_action (h : turn ∈ openTurnsPageIn rows cursor) : turn.action ∈ rows := by
  obtain ⟨intent, hintent, h⟩ := mem_flatMap.mp h
  have hin : intent ∈ rows := mem_of_mem_filter (mem_of_mem_take hintent)
  cases hupdate : latestTurnUpdate rows intent.id with
  | none =>
    rw [hupdate] at h
    rw [mem_singleton.mp (openTurns_action h)]
    exact hin
  | some update =>
    rw [hupdate] at h
    have hmem := openTurns_action h
    rw [mem_cons, mem_singleton] at hmem
    rcases hmem with heq | heq
    · exact heq ▸ hin
    · exact heq ▸ latestTurnUpdate_mem hupdate

lemma latestOpenTurnLoop_action {latest : Option OpenTurn} (hlatest : ∀ found ∈ latest, found.action ∈ rows)
    (h : latestOpenTurnLoop rows fuel cursor latest = some (some turn)) : turn.action ∈ rows := by
  induction fuel generalizing cursor latest with
  | zero =>
    cases h
    exact hlatest turn rfl
  | succ fuel ih =>
    have hfound : ∀ found ∈ (openTurnsPageIn rows cursor).getLast?.or latest, found.action ∈ rows := by
      intro found hfound
      cases hlast : (openTurnsPageIn rows cursor).getLast? with
      | none =>
        rw [hlast, Option.none_or] at hfound
        exact hlatest found hfound
      | some last =>
        rw [hlast, Option.some_or] at hfound
        cases hfound
        exact openTurnsPageIn_action (mem_of_getLast? hlast)
    unfold latestOpenTurnLoop at h
    dsimp only at h
    cases hcase : (openTurnsPageIn rows cursor).getLast?.or latest with
    | none =>
      rw [hcase] at h
      cases h
    | some found =>
      rw [hcase] at h hfound
      dsimp only at h
      split at h
      · cases h
        exact hfound _ rfl
      · cases hfind : rows.find? (·.id = found.turnId) with
        | none =>
          rw [hfind] at h
          cases h
        | some intent =>
          rw [hfind] at h
          exact ih hfound h

lemma latestOpenTurnIn_action (h : latestOpenTurnIn rows = some (some turn)) : turn.action ∈ rows :=
  latestOpenTurnLoop_action (by simp) h

theorem openTurnsPageIn_nil : openTurnsPageIn rows 0 = [] ↔ ∀ intent ∈ openIntentsPage rows 0,
    turnIntent intent = none ∧ ∀ update ∈ latestTurnUpdate rows intent.id, turnIntent update = none := by
  unfold openTurnsPageIn
  rw [flatMap_eq_nil_iff]
  refine forall₂_congr fun intent hintent => ?_
  have hopen : rows.any (isTerminalOf intent.id) = false := by
    have hkept := (mem_filter.mp (mem_of_mem_take hintent)).2
    simp only [Bool.and_eq_true, Bool.not_eq_true'] at hkept
    exact hkept.2
  -- a row that is no terminal of the intent leaves it open
  have hkeeps : ∀ update ∈ rows, (turnIntent intent).isSome → openTurns [intent, update] ≠ [] := by
    intro update hupdate hsome hnil
    have hvalues : (openTurnsStep (openTurnsStep Dict.empty intent) update).values = [] := hnil
    rw [Dict.values_eq_nil_iff] at hvalues
    have hintent : (((openTurnsStep Dict.empty intent)).get? intent.id).isSome := openTurnsStep_intent hsome
    have hstays : ((openTurnsStep (openTurnsStep Dict.empty intent) update).get? intent.id).isSome :=
        openTurnsStep_keeps hintent (by
      intro terminal hterminal heq
      obtain ⟨hkind, hphase, hturn⟩ := turnTerminal_some hterminal
      rw [heq] at hturn
      have hfound : rows.any (isTerminalOf intent.id) = true := by
        rw [any_eq_true]
        exact ⟨update, hupdate, by simp [isTerminalOf, hkind, hphase, hturn]⟩
      rw [hopen] at hfound
      cases hfound)
    rw [hvalues] at hstays
    cases hstays
  cases hupdate : latestTurnUpdate rows intent.id with
  | none =>
    constructor
    · intro hnil
      refine ⟨?_, by simp⟩
      by_contra hsome
      have hget : ((openTurnsStep Dict.empty intent).get? intent.id).isSome :=
        openTurnsStep_intent (Option.isSome_iff_ne_none.mpr hsome)
      have hvalues : (openTurnsStep Dict.empty intent).values = [] := hnil
      rw [Dict.values_eq_nil_iff] at hvalues
      rw [hvalues] at hget
      cases hget
    · rintro ⟨hnone, -⟩
      show (openTurnsStep Dict.empty intent).values = []
      rw [openTurnsStep_empty hnone]
      rfl
  | some update =>
    constructor
    · intro hnil
      have hnone : turnIntent intent = none := by
        by_contra hsome
        exact hkeeps update (latestTurnUpdate_mem hupdate) (Option.isSome_iff_ne_none.mpr hsome) hnil
      refine ⟨hnone, fun other hother => ?_⟩
      cases hother
      by_contra hsome
      have hvalues : (openTurnsStep (openTurnsStep Dict.empty intent) update).values = [] := hnil
      rw [openTurnsStep_empty hnone, Dict.values_eq_nil_iff] at hvalues
      have hget : ((openTurnsStep Dict.empty update).get? update.id).isSome :=
        openTurnsStep_intent (Option.isSome_iff_ne_none.mpr hsome)
      rw [hvalues] at hget
      cases hget
    · rintro ⟨hnone, hupdates⟩
      show (openTurnsStep (openTurnsStep Dict.empty intent) update).values = []
      rw [openTurnsStep_empty hnone, openTurnsStep_empty (hupdates update rfl)]
      rfl

theorem openTurnsPageIn_append {later : List Node} (h : ∀ node ∈ later, node.kind ≠ .turn) (cursor : ℕ) :
    openTurnsPageIn (rows ++ later) cursor = openTurnsPageIn rows cursor := by
  have hfilter : ∀ p : Node → Bool, (∀ node, p node = true → node.kind = .turn) →
      (rows ++ later).filter p = rows.filter p := by
    intro p hp
    have hnil : later.filter p = [] := by
      rw [filter_eq_nil_iff]
      intro node hnode hpass
      exact h node hnode (hp node hpass)
    rw [filter_append, hnil, append_nil]
  have hany : ∀ turnId, (rows ++ later).any (isTerminalOf turnId) = rows.any (isTerminalOf turnId) := by
    intro turnId
    rw [any_append]
    have hfalse : later.any (isTerminalOf turnId) = false := by
      rw [any_eq_false]
      intro node hnode hterminal
      simp only [isTerminalOf, Bool.and_eq_true, decide_eq_true_eq] at hterminal
      exact h node hnode hterminal.1.1
    rw [hfalse, Bool.or_false]
  have hupdate : ∀ turnId, latestTurnUpdate (rows ++ later) turnId = latestTurnUpdate rows turnId := by
    intro turnId
    unfold latestTurnUpdate
    rw [hfilter _ (by simp +contextual)]
  have hpage : openIntentsPage (rows ++ later) cursor = openIntentsPage rows cursor := by
    unfold openIntentsPage
    simp only [hany]
    rw [hfilter _ (by simp +contextual)]
  unfold openTurnsPageIn
  rw [hpage]
  simp only [hupdate]

variable (rows)

def turnTerminalFor (turnId : String) : Option Node := (rows.filter (isTerminalOf turnId)).getLast?

def compactionHead : ℕ :=
  ((rows.filter fun a => a.kind = .compaction && extractIs a.effect "terminal" "executed").getLast?.map
    (·.ordinal)).getD 0

end

section
variable [PlainCoding] (numText : ℚ → String)

def closesId (rows : List Node) (id : String) : Bool :=
  rows.any fun row => (closedIds numText row.kind row.intent).contains id

/-- `pendingMessages` of rows that decode. -/
def pendingActions (rows : List Node) : List Node :=
  rows.filter fun row => isInput row.kind row.effect && !closesId numText rows row.id

/-- `pendingMessagesIn`. -/
def pendingRows (rows : List Node) : Option (List DeliveryRow) := openDeliveryRows (pendingActions numText rows)

end

end OpenOmni
