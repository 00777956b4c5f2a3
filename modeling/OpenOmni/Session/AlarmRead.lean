import OpenOmni.Session.RequestFold

/-! The canonical fold of alarm rows, and the armed index that follows it row by row. -/
namespace OpenOmni
open List

open PlainValue Transition

/-- `AlarmArmRow`: the last committed arm, a retirement with no due time included. -/
structure AlarmArmRow where
  occurrenceId : String
  purpose : String
  «at» : Option ℚ
  supersedes : Option String
  sourceKey : String
  payload : PlainValue
  ts : ℚ
  actionId : String
deriving DecidableEq

structure AlarmChainView where
  alarmId : String
  latest : AlarmArmRow
  firstTs : ℚ
  lastTs : ℚ
  armCount : ℕ
  delivered : ℕ
  settled : List String
  loopClosed : Bool
deriving DecidableEq

def alarmArmRow (action : Node) (intent : PlainValue) : Option AlarmArmRow := do
  let effect ← action.effect.objectValue
  let payload ← (intent.get? "payload").bind objectValue
  let purpose ← (intent.get? "purpose").bind asStr
  let due ← (intent.get? "at").bind (nullable asNum)
  let supersedes ← (intent.get? "supersedes").bind (nullable asStr)
  let sourceKey ← (intent.get? "sourceKey").bind asStr
  let occurrenceId ← (effect.get? "occurrenceId").bind asStr
  return ⟨occurrenceId, purpose, due, supersedes, sourceKey, payload, action.ts, action.id⟩

def AlarmChainView.rearm (chain : AlarmChainView) (latest : AlarmArmRow) : AlarmChainView :=
  { chain with
    latest := latest, lastTs := max chain.lastTs latest.ts, armCount := chain.armCount + 1,
    loopClosed := false }

def AlarmChainView.first (alarmId : String) (latest : AlarmArmRow) : AlarmChainView where
  alarmId
  latest
  firstTs := latest.ts
  lastTs := latest.ts
  armCount := 1
  delivered := 0
  settled := []
  loopClosed := false

def AlarmChainView.fire (chain : AlarmChainView) (occurrence : String) (outcome : Option PlainValue)
    (ts : ℚ) : AlarmChainView :=
  let touched := { chain with
    lastTs := max chain.lastTs ts,
    loopClosed := chain.loopClosed || occurrence = chain.latest.occurrenceId }
  if outcome = some (.str "delivered") then
    { touched with
      settled := Ordered.add touched.settled occurrence, delivered := touched.delivered + 1 }
  else if outcome = some (.str "exhausted") then
    { touched with settled := Ordered.add touched.settled occurrence }
  else touched

def foldAlarmRow (chains : Dict String AlarmChainView) (action : Node) : Dict String AlarmChainView :=
  if (Journal.firstIssue .alarm action.intent action.effect).isSome then chains
  else match action.intent.objectValue with
    | none => chains
    | some intent => match (intent.get? "alarmId").bind asStr with
      | none => chains
      | some alarmId =>
        if intent.get? "op" = some (.str "arm") then match alarmArmRow action intent with
          | none => chains
          | some latest => match chains.get? alarmId with
            | none => chains.set alarmId (.first alarmId latest)
            | some chain => chains.set alarmId (chain.rearm latest)
        else if intent.get? "op" = some (.str "fired") then
          match (intent.get? "occurrenceId").bind asStr with
          | none => chains
          | some occurrence => match chains.get? alarmId with
            | none => chains
            | some chain => chains.set alarmId (chain.fire occurrence (intent.get? "outcome") action.ts)
        else chains

def foldAlarmAction (chains : Dict String AlarmChainView) (action : Node) : Dict String AlarmChainView :=
  if action.kind = .alarm then foldAlarmRow chains action else chains

/-- `SessionHistory.Page` as the folds read it. -/
structure HistoryPage where
  actions : List Node
  nextRevision : Option ℕ

/-- `range`: the rows after a revision, up to a limit. Ordinals ascend in the order of insertion. -/
def Db.range (db : Db) (sessionId : String) (afterRevision limit : ℕ) : List Node :=
  ((db.rows sessionId).filter (afterRevision < ·.ordinal)).take limit

/-- `historyPage`; `none` when the file has no such session. -/
def Db.historyPage (db : Db) (sessionId : String) (afterRevision limit : ℕ) : Option HistoryPage := do
  let row ← db.selectSession sessionId
  let actions := db.range sessionId afterRevision limit
  let last := (actions.getLast?.map (·.ordinal)).getD afterRevision
  return { actions, nextRevision := if last < row.revision then some last else none }

def foldAlarmPage (throughRevision : Option ℕ) :
    List Node → Dict String AlarmChainView → Dict String AlarmChainView × Bool
  | [], chains => (chains, false)
  | action :: actions, chains =>
    if throughRevision.any (· < action.ordinal) then (chains, true)
    else foldAlarmPage throughRevision actions (foldAlarmAction chains action)

/-- The loop of `foldAlarmChains`; `none` when the fuel runs out or the session is unknown. -/
def foldAlarmPages (db : Db) (sessionId : String) (throughRevision : Option ℕ) :
    ℕ → ℕ → Dict String AlarmChainView → Option (Dict String AlarmChainView)
  | 0, _, _ => none
  | fuel + 1, afterRevision, chains =>
    if throughRevision.any (· ≤ afterRevision) then some chains
    else do
      let page ← db.historyPage sessionId afterRevision 256
      match foldAlarmPage throughRevision page.actions chains with
      | (folded, true) => return folded
      | (folded, false) => match page.nextRevision with
        | none => return folded
        | some next => foldAlarmPages db sessionId throughRevision fuel next folded

/-- `foldAlarmChains`: one canonical fold over a range of the history. -/
def foldAlarmChains (db : Db) (sessionId : String) (afterRevision : ℕ := 0)
    (throughRevision : Option ℕ := none) : Option (Dict String AlarmChainView) :=
  foldAlarmPages db sessionId throughRevision ((db.rows sessionId).length + 1) afterRevision .empty

theorem filter_ordinal_eq_drop {nodes : List Node} {base : ℕ} (k : ℕ)
    (h : nodes.map (·.ordinal) = List.range' (base + 1) nodes.length) :
    nodes.filter (base + k < ·.ordinal) = nodes.drop k := by
  induction nodes generalizing base k with
  | nil => simp
  | cons node nodes ih =>
    simp only [map_cons, length_cons, range'_succ, List.cons.injEq] at h
    obtain ⟨hordinal, hrest⟩ := h
    cases k with
    | zero =>
      rw [drop_zero, filter_eq_self]
      intro other hother
      rcases mem_cons.mp hother with rfl | hother
      · simp [hordinal]
      · have hmem : other.ordinal ∈ List.range' (base + 1 + 1) nodes.length := by
          rw [← hrest]
          exact mem_map_of_mem hother
        have hbound := (List.mem_range'_1.mp hmem).1
        simp only [decide_eq_true_eq]
        omega
    | succ k =>
      have hshift := ih k hrest
      rw [filter_cons_of_neg (by simp [hordinal]), drop_succ_cons, ← hshift]
      congr 1
      funext other
      rw [show base + 1 + k = base + (k + 1) by omega]

lemma getLast?_ordinal {nodes : List Node} {base : ℕ}
    (h : nodes.map (·.ordinal) = List.range' (base + 1) nodes.length) :
    (nodes.getLast?.map (·.ordinal)).getD base = base + nodes.length := by
  have hlast : nodes.getLast?.map (·.ordinal) = (nodes.map (·.ordinal)).getLast? :=
    getLast?_map.symm
  rw [hlast, h]
  cases hlength : nodes.length with
  | zero => simp
  | succ n => simp [getLast?_range', Nat.add_comm, Nat.add_left_comm]

lemma foldAlarmPage_eq (nodes : List Node) (chains : Dict String AlarmChainView) :
    foldAlarmPage none nodes chains = (nodes.foldl foldAlarmAction chains, false) := by
  induction nodes generalizing chains with
  | nil => rfl
  | cons node nodes ih => simp [foldAlarmPage, ih]

section
variable {db : Db} {session : Row}

section
variable (hdb : ChainInv db) (hsession : session ∈ db.sessions)
include hdb hsession

theorem ChainInv.range_eq (k limit : ℕ) :
    db.range session.id k limit = ((db.rows session.id).drop k).take limit := by
  have hordinals := hdb.ordinals session hsession
  rw [← hdb.rows_length hsession] at hordinals
  have hdrop : (db.rows session.id).filter (k < ·.ordinal) = (db.rows session.id).drop k := by
    have hpast := @filter_ordinal_eq_drop _ 0 k (by simpa using hordinals)
    rwa [Nat.zero_add] at hpast
  rw [Db.range, hdrop]

lemma ChainInv.selectSession_eq : db.selectSession session.id = some session := by
  cases hfind : db.selectSession session.id with
  | none =>
    have hnone := find?_eq_none.mp hfind session hsession
    simp at hnone
  | some found =>
    obtain ⟨hmem, hid⟩ := selectSession_some hfind
    rw [hdb.session_unique hmem hsession hid]

theorem ChainInv.historyPage_eq {k limit : ℕ}
    (hk : k ≤ session.revision) :
    db.historyPage session.id k limit = some {
      actions := ((db.rows session.id).drop k).take limit,
      nextRevision := if k + limit < session.revision then some (k + limit) else none } := by
  have hlength := hdb.rows_length hsession
  have hordinals := hdb.ordinals session hsession
  have hpage : (((db.rows session.id).drop k).take limit).map (·.ordinal) =
      List.range' (k + 1) (((db.rows session.id).drop k).take limit).length := by
    rw [map_take, map_drop, hordinals, drop_range', Nat.mul_one, length_take,
      length_drop, hlength, Nat.add_comm 1 k]
    rcases Nat.le_total limit (session.revision - k) with hle | hle
    · rw [take_range'_of_length_ge hle, Nat.min_eq_left hle]
    · rw [take_range'_of_length_le hle, Nat.min_eq_right hle]
  have hlast := getLast?_ordinal hpage
  simp only [Db.historyPage, hdb.selectSession_eq hsession, hdb.range_eq hsession, Option.bind_eq_bind,
    Option.bind_some, hlast]
  have hcount : (((db.rows session.id).drop k).take limit).length = min limit (session.revision - k) := by
    simp [hlength]
  rw [hcount]
  by_cases hmore : k + limit < session.revision
  · have hmin : min limit (session.revision - k) = limit := by omega
    simp [hmin, hmore]
  · have hend : ¬ k + min limit (session.revision - k) < session.revision := by omega
    simp [hend, hmore]

lemma foldAlarmPages_eq {fuel k : ℕ}
    (hk : k ≤ session.revision) (hfuel : session.revision < k + fuel) (chains : Dict String AlarmChainView) :
    foldAlarmPages db session.id none fuel k chains =
      some (((db.rows session.id).drop k).foldl foldAlarmAction chains) := by
  have hlength := hdb.rows_length hsession
  induction fuel generalizing k chains with
  | zero => omega
  | succ fuel ih =>
    have hsplit := take_append_drop 256 ((db.rows session.id).drop k)
    unfold foldAlarmPages
    simp only [Option.any_none, Bool.false_eq_true, if_false, hdb.historyPage_eq hsession hk,
      Option.bind_eq_bind, Option.bind_some, foldAlarmPage_eq]
    by_cases hmore : k + 256 < session.revision
    · rw [if_pos hmore]
      simp only
      rw [ih (by omega) (by omega), ← drop_drop, ← foldl_append, hsplit]
    · rw [if_neg hmore]
      have hall : ((db.rows session.id).drop k).take 256 = (db.rows session.id).drop k := by
        rw [take_of_length_le]
        simp only [length_drop]
        omega
      rw [hall]
      rfl

theorem foldAlarmChains_eq :
    foldAlarmChains db session.id = some ((db.rows session.id).foldl foldAlarmAction .empty) := by
  have hlength := hdb.rows_length hsession
  rw [foldAlarmChains, foldAlarmPages_eq hdb hsession (Nat.zero_le _) (by omega), drop_zero]

end

end

end OpenOmni
