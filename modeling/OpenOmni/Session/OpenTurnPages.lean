import OpenOmni.Lib.Paging
import OpenOmni.Session.OwnerOrigin
import OpenOmni.Store.PendingTail

/-! The lookup of the open turn over rows as they are stored, some of which do not decode. -/
namespace OpenOmni
open List

open PlainValue SessionTurn

namespace TurnPages

/-- A row with the `phase` of a turn's start. -/
def startsTurn (row : StoredRow) : Bool := row.kind = some .turn && extractIs row.intent "phase" "intent"

def isTerminalOf (turnId : String) (row : StoredRow) : Bool :=
  row.kind = some .turn && extractIs row.effect "phase" "terminal" && extractIs row.effect "turnId" turnId

def namesTurn (turnId : String) (row : StoredRow) : Bool :=
  extractIs row.intent "turnId" turnId || extractIs row.effect "turnId" turnId

section
variable (rows : List StoredRow)

def opensTurn (row : StoredRow) : Bool := startsTurn row && !rows.any (isTerminalOf row.id)

/-- `openTurnsPage` of the store: the limit counts rows, and the rows that do not decode are left out behind it. -/
def openTurnsPage (cursor : ℕ) : List Node :=
  ((rows.filter fun row => cursor < row.ordinal && opensTurn rows row).take turnPage).filterMap decodeAction

/-- `latestTurnUpdate`: the last row of the turn, if that one decodes. -/
def latestTurnUpdate (turnId : String) : Option Node :=
  (rows.filter fun row => row.kind = some .turn && namesTurn turnId row).getLast?.bind decodeAction

def actionById (id : String) : Option Node := (rows.find? (·.id = id)).bind decodeAction

def openTurnsOf (intent : Node) : List OpenTurn := openTurns (intent :: (latestTurnUpdate rows intent.id).toList)

def openTurnsPageIn (cursor : ℕ) : List OpenTurn := (openTurnsPage rows cursor).flatMap (openTurnsOf rows)

/-- The loop of `latestOpenTurnIn`; the outer `none` is its throw. -/
def latestOpenTurnLoop : ℕ → ℕ → Option OpenTurn → Option (Option OpenTurn)
  | 0, _, latest => some latest
  | fuel + 1, cursor, latest =>
    let page := openTurnsPageIn rows cursor
    match page.getLast?.or latest with
    | none => some none
    | some found =>
      if page.length < turnPage then some (some found)
      else match actionById rows found.turnId with
        | none => none
        | some intent => latestOpenTurnLoop fuel intent.ordinal (some found)

def latestOpenTurnIn : Option (Option OpenTurn) := latestOpenTurnLoop rows (rows.length + 1) 0 none

/-- The open turn that a start row begins, when the row decodes. -/
def openTurnAt (row : StoredRow) : Option OpenTurn :=
  (decodeAction row).bind fun intent => (openTurnsOf rows intent).head?

def openStarts : List StoredRow := rows.filter (opensTurn rows)

def everyOpenTurn : List OpenTurn := (openStarts rows).filterMap (openTurnAt rows)

end

/-- The rows of a session, in the order of their ordinals. The row that starts a turn names no turn. -/
structure TurnHistory where
  rows : List StoredRow
  ordinals : rows.Pairwise fun a b => a.ordinal < b.ordinal
  positive : ∀ row ∈ rows, 0 < row.ordinal
  distinct : (rows.map (·.id)).Nodup
  starts : ∀ row ∈ rows, startsTurn row = true → ∀ turnId, namesTurn turnId row = false

section
variable {history : TurnHistory} {row : StoredRow} {intent update : Node} {turnId : String}

theorem latestTurnUpdate_some (hopen : history.rows.any (isTerminalOf turnId) = false)
    (hupdate : latestTurnUpdate history.rows turnId = some update) :
    turnIntent update = none ∧ ∀ terminal, turnTerminal update = some terminal → terminal.turnId ≠ turnId := by
  obtain ⟨stored, hlast, hdecode⟩ := Option.bind_eq_some_iff.mp hupdate
  obtain ⟨hmem, hnames⟩ := mem_filter.mp (mem_of_getLast? hlast)
  simp only [Bool.and_eq_true, decide_eq_true_eq] at hnames
  have hdecoded := decodeAction_some hdecode
  constructor
  · by_contra hsome
    obtain ⟨other, hother⟩ := Option.ne_none_iff_exists'.mp hsome
    obtain ⟨-, hphase⟩ := OwnerOrigin.turnIntent_phase hother
    rw [hdecoded.intent] at hphase
    have hstarts : startsTurn stored = true := by simp [startsTurn, hnames.1, hphase]
    rw [history.starts stored hmem hstarts turnId] at hnames
    simp at hnames
  · rintro terminal hterminal rfl
    obtain ⟨-, hphase, hturn⟩ := turnTerminal_some hterminal
    rw [hdecoded.effect] at hphase hturn
    have hclosed : history.rows.any (isTerminalOf terminal.turnId) = true := by
      rw [any_eq_true]
      exact ⟨stored, hmem, by simp [isTerminalOf, hnames.1, hphase, hturn]⟩
    rw [hopen] at hclosed
    cases hclosed

theorem openTurnsOf_cases (hopen : history.rows.any (isTerminalOf intent.id) = false) :
    openTurnsOf history.rows intent = [] ∨
      ∃ turn, openTurnsOf history.rows intent = [turn] ∧ turn.turnId = intent.id := by
  unfold openTurnsOf
  cases hintent : turnIntent intent with
  | none =>
    left
    cases hupdate : latestTurnUpdate history.rows intent.id with
    | none =>
      show (openTurnsStep Dict.empty intent).values = []
      rw [openTurnsStep_empty hintent]
      rfl
    | some update =>
      show (openTurnsStep (openTurnsStep Dict.empty intent) update).values = []
      rw [openTurnsStep_empty hintent, openTurnsStep_empty (latestTurnUpdate_some hopen hupdate).1]
      rfl
  | some start =>
    right
    cases hupdate : latestTurnUpdate history.rows intent.id with
    | none => exact OwnerOrigin.openTurns_intent hintent
    | some update =>
      obtain ⟨hno, hterminal⟩ := latestTurnUpdate_some hopen hupdate
      exact OwnerOrigin.openTurns_update hintent hno hterminal

lemma opensTurn_open (h : opensTurn history.rows row = true) :
    history.rows.any (isTerminalOf row.id) = false := by
  simp only [opensTurn, Bool.and_eq_true, Bool.not_eq_true'] at h
  exact h.2

lemma openTurnAt_turnId {turn : OpenTurn} (hopens : opensTurn history.rows row = true)
    (h : openTurnAt history.rows row = some turn) : turn.turnId = row.id := by
  obtain ⟨intent, hdecode, hhead⟩ := Option.bind_eq_some_iff.mp h
  have hid := (decodeAction_some hdecode).id
  have hopen := opensTurn_open hopens
  rw [← hid] at hopen ⊢
  rcases openTurnsOf_cases hopen with hnil | ⟨found, hfound, hturn⟩
  · rw [hnil] at hhead
    cases hhead
  · rw [hfound] at hhead
    cases hhead
    exact hturn

theorem openTurnsPageIn_eq (cursor : ℕ) : openTurnsPageIn history.rows cursor =
    ((Paging.behind StoredRow.ordinal (openStarts history.rows) cursor).take turnPage).filterMap
      (openTurnAt history.rows) := by
  have hbehind : Paging.behind StoredRow.ordinal (openStarts history.rows) cursor =
      history.rows.filter fun row => cursor < row.ordinal && opensTurn history.rows row := by
    simp [Paging.behind, openStarts, filter_filter]
  have hrows : ∀ page : List StoredRow, (∀ row ∈ page, opensTurn history.rows row = true) →
      (page.filterMap decodeAction).flatMap (openTurnsOf history.rows) = page.filterMap (openTurnAt history.rows) := by
    intro page
    induction page with
    | nil => simp
    | cons row page ih =>
      intro hpage
      have hrest := ih fun other hother => hpage other (mem_cons_of_mem _ hother)
      have hopen := opensTurn_open (hpage row mem_cons_self)
      cases hdecode : decodeAction row with
      | none =>
        have hnone : openTurnAt history.rows row = none := by simp [openTurnAt, hdecode]
        rw [filterMap_cons_none hdecode, filterMap_cons_none hnone, hrest]
      | some intent =>
        rw [← (decodeAction_some hdecode).id] at hopen
        have hat : openTurnAt history.rows row = (openTurnsOf history.rows intent).head? := by
          simp [openTurnAt, hdecode]
        rw [filterMap_cons_some hdecode, flatMap_cons, hrest]
        rcases openTurnsOf_cases hopen with hnil | ⟨turn, hturn, -⟩
        · rw [hnil, head?_nil] at hat
          rw [filterMap_cons_none hat, hnil, nil_append]
        · rw [hturn, head?_cons] at hat
          rw [filterMap_cons_some hat, hturn, singleton_append]
  unfold openTurnsPageIn openTurnsPage
  rw [hbehind]
  apply hrows
  intro row hrow
  have hkept := (mem_filter.mp (mem_of_mem_take hrow)).2
  exact (Bool.and_eq_true _ _ ▸ hkept).2

theorem actionById_turn {turn : OpenTurn} (hrow : row ∈ openStarts history.rows)
    (h : openTurnAt history.rows row = some turn) :
    ∃ intent, actionById history.rows turn.turnId = some intent ∧ intent.ordinal = row.ordinal := by
  obtain ⟨hmem, hopens⟩ := mem_filter.mp hrow
  obtain ⟨intent, hdecode, -⟩ := Option.bind_eq_some_iff.mp h
  refine ⟨intent, ?_, (decodeAction_some hdecode).ordinal⟩
  have hfind : history.rows.find? (·.id = turn.turnId) = some row := by
    rw [openTurnAt_turnId hopens h, find?_eq_some_iff_append]
    obtain ⟨front, back, hsplit⟩ := append_of_mem hmem
    refine ⟨by simp, front, back, hsplit, fun other hother => ?_⟩
    have hdistinct := history.distinct
    rw [hsplit, map_append, map_cons, nodup_append] at hdistinct
    have hne := hdistinct.2.2 other.id (mem_map_of_mem hother) row.id mem_cons_self
    simpa using hne
  rw [actionById, hfind, Option.bind_some, hdecode]

lemma openStarts_sorted : (openStarts history.rows).Pairwise fun a b => a.ordinal < b.ordinal :=
  history.ordinals.filter _

theorem latestOpenTurnLoop_eq {fuel cursor : ℕ} {latest : Option OpenTurn} :
    latestOpenTurnLoop history.rows fuel cursor latest =
      some (Paging.lastDecoded StoredRow.ordinal (openTurnAt history.rows) (openStarts history.rows) turnPage fuel
        cursor latest) := by
  induction fuel generalizing cursor latest with
  | zero => rfl
  | succ fuel ih =>
    unfold latestOpenTurnLoop Paging.lastDecoded
    rw [openTurnsPageIn_eq]
    set page := (Paging.behind StoredRow.ordinal (openStarts history.rows) cursor).take turnPage with hpage
    dsimp only
    by_cases hshort : (page.filterMap (openTurnAt history.rows)).length < turnPage
    · rw [if_pos hshort]
      cases hfound : (page.filterMap (openTurnAt history.rows)).getLast?.or latest with
      | none => rfl
      | some found =>
        dsimp only
        rw [if_pos hshort]
    · rw [if_neg hshort]
      have hlength : page.length ≤ turnPage := length_take_le _ _
      have hdecodes : ∀ row ∈ page, openTurnAt history.rows row ≠ none := Paging.decodes_of_full (by omega)
      have hne : page ≠ [] := by
        intro hnil
        rw [hnil] at hshort
        exact hshort (by simp [turnPage])
      obtain ⟨front, last, hsplit⟩ : ∃ front last, page = front ++ [last] :=
        ⟨_, _, (dropLast_append_getLast hne).symm⟩
      have hlast : last ∈ page := by simp [hsplit]
      obtain ⟨turn, hturn⟩ := Option.ne_none_iff_exists'.mp (hdecodes last hlast)
      have hgot : (page.filterMap (openTurnAt history.rows)).getLast? = some turn := by
        rw [hsplit, filterMap_append, filterMap_cons_some hturn, filterMap_nil, getLast?_append_cons]
        rfl
      have hin : last ∈ openStarts history.rows := mem_of_mem_filter (mem_of_mem_take hlast)
      obtain ⟨intent, hfind, hordinal⟩ := actionById_turn hin hturn
      have hcursor : (page.getLast?.map StoredRow.ordinal).getD cursor = intent.ordinal := by
        rw [hsplit, getLast?_append_cons, hordinal]
        rfl
      rw [hgot, Option.some_or, hcursor]
      dsimp only
      rw [if_neg hshort, hfind]
      exact ih

/-- The lookup answers the last open turn exactly when no open turn that decodes stands on a later page of start rows
than one that does not. -/
theorem latestOpenTurnIn_complete_iff (history : TurnHistory) :
    latestOpenTurnIn history.rows = some (everyOpenTurn history.rows).getLast? ↔
      Paging.DecodesInFront (openTurnAt history.rows) turnPage (openStarts history.rows) := by
  have hbehind : Paging.behind StoredRow.ordinal (openStarts history.rows) 0 = openStarts history.rows := by
    unfold Paging.behind
    rw [filter_eq_self]
    intro row hrow
    simpa using history.positive row (mem_of_mem_filter hrow)
  have hinj : ∀ a ∈ openStarts history.rows, ∀ b ∈ openStarts history.rows, ∀ turn,
      openTurnAt history.rows a = some turn → openTurnAt history.rows b = some turn → a = b := by
    intro a ha b hb turn hturn hturn'
    obtain ⟨hmem, hopens⟩ := mem_filter.mp ha
    obtain ⟨hmem', hopens'⟩ := mem_filter.mp hb
    exact inj_on_of_nodup_map history.distinct hmem hmem'
      ((openTurnAt_turnId hopens hturn).symm.trans (openTurnAt_turnId hopens' hturn'))
  have hfuel : (Paging.behind StoredRow.ordinal (openStarts history.rows) 0).length < history.rows.length + 1 := by
    have hle : (openStarts history.rows).length ≤ history.rows.length := length_filter_le _ _
    rw [hbehind]
    omega
  have hread : Paging.lastDecoded StoredRow.ordinal (openTurnAt history.rows) (openStarts history.rows) turnPage
      (history.rows.length + 1) 0 none =
        ((Paging.behind StoredRow.ordinal (openStarts history.rows) 0).filterMap (openTurnAt history.rows)).getLast?.or none ↔
      Paging.DecodesInFront (openTurnAt history.rows) turnPage
        (Paging.behind StoredRow.ordinal (openStarts history.rows) 0) :=
    Paging.lastDecoded_eq_iff openStarts_sorted (by decide) hinj (by simp) hfuel
  rw [hbehind, Option.or_none] at hread
  rw [latestOpenTurnIn, latestOpenTurnLoop_eq, Option.some.injEq]
  exact hread

end

/-- A start row of a turn, the `n`th row of its session. -/
def startRow (n : ℕ) (intent : PlainValue) : StoredRow where
  id := String.ofList (List.replicate (n + 1) 'x')
  parentId := none
  sessionId := "session"
  kind := some .turn
  intent := intent
  effect := turnPending
  revert := none
  irreversible := true
  encodingVersion := 1
  ts := 0
  ordinal := n + 1

/-- An intent with a number that `JSON.parse` reads as infinite. -/
def damagedIntent : PlainValue := record [("phase", some (.str "intent")), ("revision", some (.num (2 ^ 1024)))]

def soundIntent : PlainValue := Intent.toPlain ⟨⟨1, "tools", "system", 1⟩, "result", [], none, 0, none, none⟩

def startIntent (n : ℕ) : PlainValue := if n < turnPage then damagedIntent else soundIntent

def damagedRow (n : ℕ) : StoredRow := startRow n (startIntent n)

def damagedRows : List StoredRow := (List.range (turnPage + 1)).map damagedRow

lemma startIntent_slots (n : ℕ) :
    (startIntent n).get? "phase" = some (.str "intent") ∧ (startIntent n).get? "turnId" = none := by
  have hdamaged : damagedIntent.get? "phase" = some (.str "intent") ∧ damagedIntent.get? "turnId" = none := by
    decide
  have hsound : soundIntent.get? "phase" = some (.str "intent") ∧ soundIntent.get? "turnId" = none := by
    decide
  unfold startIntent
  split
  · exact hdamaged
  · exact hsound

lemma damagedRow_intent (n : ℕ) : (damagedRow n).intent = startIntent n := rfl

lemma damagedRow_effect (n : ℕ) : (damagedRow n).effect = turnPending := rfl

lemma turnPending_slots :
    turnPending.get? "phase" = some (.str "pending") ∧ turnPending.get? "turnId" = none := by
  decide

lemma damagedRow_starts (n : ℕ) : startsTurn (damagedRow n) = true := by
  have hkind : (damagedRow n).kind = some .turn := rfl
  simp [startsTurn, extractIs, hkind, damagedRow_intent, (startIntent_slots n).1]

lemma damagedRow_names (n : ℕ) (turnId : String) : namesTurn turnId (damagedRow n) = false := by
  simp [namesTurn, extractIs, damagedRow_intent, (startIntent_slots n).2, damagedRow_effect, turnPending_slots.2]

def damagedHistory : TurnHistory where
  rows := damagedRows
  ordinals := by
    refine pairwise_map.mpr (pairwise_lt_range.imp ?_)
    intro a b hlt
    show a + 1 < b + 1
    omega
  positive := by
    intro row hrow
    obtain ⟨n, -, rfl⟩ := mem_map.mp hrow
    exact Nat.succ_pos n
  distinct := by
    rw [damagedRows, map_map]
    refine nodup_range.map ?_
    intro a b heq
    have hlength := congrArg String.length heq
    simpa [damagedRow, startRow] using hlength
  starts := by
    intro row hrow _ turnId
    obtain ⟨n, -, rfl⟩ := mem_map.mp hrow
    exact damagedRow_names n turnId

lemma damagedRows_open : damagedRows.filter (opensTurn damagedRows) = damagedRows := by
  rw [filter_eq_self]
  intro row hrow
  obtain ⟨n, -, rfl⟩ := mem_map.mp hrow
  have hopen : damagedRows.any (isTerminalOf (damagedRow n).id) = false := by
    rw [any_eq_false]
    intro other hother
    obtain ⟨m, -, rfl⟩ := mem_map.mp hother
    simp [isTerminalOf, extractIs, damagedRow_effect, turnPending_slots.1]
  rw [opensTurn, damagedRow_starts, hopen]
  rfl

lemma damagedRow_decode {n : ℕ} (h : n < turnPage) : decodeAction (damagedRow n) = none := by
  have hrefused : parsePlainJson damagedIntent = none := by decide +kernel
  simp [decodeAction, damagedRow, startRow, startIntent, h, hrefused]

lemma damagedRows_page : openTurnsPageIn damagedRows 0 = [] := by
  have hfilter : (damagedRows.filter fun row => 0 < row.ordinal && opensTurn damagedRows row) = damagedRows := by
    rw [← filter_congr (p := opensTurn damagedRows) fun row hrow => ?_, damagedRows_open]
    have hpositive := damagedHistory.positive row hrow
    simp [hpositive]
  have hpage : damagedRows.take turnPage = (List.range turnPage).map damagedRow := by
    rw [damagedRows, range_succ, map_append]
    exact take_left' (by simp)
  have hdecode : ((List.range turnPage).map damagedRow).filterMap decodeAction = [] := by
    rw [filterMap_eq_nil_iff]
    intro row hrow
    obtain ⟨n, hn, rfl⟩ := mem_map.mp hrow
    exact damagedRow_decode (mem_range.mp hn)
  rw [openTurnsPageIn, openTurnsPage, hfilter, hpage, hdecode]
  rfl

lemma damagedRow_opens : ∃ turn, openTurnAt damagedRows (damagedRow turnPage) = some turn := by
  have hdecodes : (decodeAction (damagedRow turnPage)).isSome := by decide +kernel
  obtain ⟨action, haction⟩ := Option.isSome_iff_exists.mp hdecodes
  have hdecoded := decodeAction_some haction
  have hsound : (Intent.ofPlain soundIntent).isSome := by decide
  obtain ⟨intent, hintent⟩ := Option.isSome_iff_exists.mp hsound
  have hstart : turnIntent action = some intent := by
    have hkind := hdecoded.kind
    rw [turnIntent, if_pos (Option.some.inj hkind).symm, hdecoded.intent]
    exact hintent
  have hupdate : latestTurnUpdate damagedRows action.id = none := by
    unfold latestTurnUpdate
    rw [filter_eq_nil_iff.mpr]
    · rfl
    · intro row hrow
      obtain ⟨n, -, rfl⟩ := mem_map.mp hrow
      simp [damagedRow_names]
  obtain ⟨turn, hturn, -⟩ := OwnerOrigin.openTurns_intent hstart
  refine ⟨turn, ?_⟩
  rw [openTurnAt, haction, Option.bind_some, openTurnsOf, hupdate]
  show (openTurns [action]).head? = some turn
  rw [hturn]
  rfl

/-- Behind a page of start rows that do not decode, an open turn is not found. -/
theorem damaged_page_hides_open_turn :
    ¬ ∀ history : TurnHistory, latestOpenTurnIn history.rows = some (everyOpenTurn history.rows).getLast? := by
  intro hclaim
  have hnone : latestOpenTurnIn damagedRows = some none := by
    rw [latestOpenTurnIn, latestOpenTurnLoop, damagedRows_page, getLast?_nil, Option.or_none]
  obtain ⟨turn, hturn⟩ := damagedRow_opens
  have hempty : latestOpenTurnIn damagedRows = some (everyOpenTurn damagedRows).getLast? := hclaim damagedHistory
  rw [hnone, Option.some.injEq, eq_comm, getLast?_eq_none_iff] at hempty
  have hmem : turn ∈ everyOpenTurn damagedRows := by
    refine mem_filterMap.mpr ⟨damagedRow turnPage, ?_, hturn⟩
    rw [openStarts, damagedRows_open]
    exact mem_map_of_mem (by simp)
  rw [hempty] at hmem
  cases hmem

end TurnPages
end OpenOmni
