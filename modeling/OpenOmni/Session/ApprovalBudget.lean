import OpenOmni.Lib.Latest
import OpenOmni.Session.FileRequests

/-! The budget of open approvals: the count a decision reads, the count its commit reads, and what an
accepted open leaves. -/
namespace OpenOmni
open List

open SessionTransition PlainValue Transition Latest

section
variable [PlainCoding]

/-- `kernel.requestRows`: the requests of a session, or of the whole file. -/
def Db.requestRowsIn (db : Db) (sessionId : Option String) : Option (List Request) :=
  requestRows (sessionId.elim db.actions db.rows)

def requestKey (row : Node) : Option SqlValue := jsonExtract row.effect ["request", "requestId"]

/-- What the commit's count asks of the latest row of a request. -/
def countsOpen (since : ℚ) (row : Node) : Bool :=
  (jsonExtract row.effect ["request", "state"] = some (.text "open")) &&
    (jsonExtract row.effect ["request", "mode"] = some (.text "approval")) &&
    (jsonExtract row.effect ["request", "createdAt"]).any (SqlValue.gt since)

def latestRequests (rows : List Node) : List Node := latest requestKey (rows.filter (·.kind = .request))

variable {rows : List Node} {row : Node} {request : Request} {command : Command} {s : RequestSystem}

lemma mem_latestRequests (h : row ∈ latestRequests rows) : row ∈ rows ∧ row.kind = .request := by
  have hmem := mem_filter.mp ((latest_sublist requestKey _).subset h)
  exact ⟨hmem.1, of_decide_eq_true hmem.2⟩

lemma requestKey_eq (h : row.effect.get? "request" = some request.toPlain) :
    requestKey row = some (.text request.requestId) := by
  simp [requestKey, jsonExtract, h, Request.get?_toPlain, Request.slots, sqlValue]

lemma countsOpen_eq (h : row.effect.get? "request" = some request.toPlain) (since : ℚ) :
    countsOpen since row = openApprovalSince request since := by
  have hstate : jsonExtract row.effect ["request", "state"] = some (.text request.state.text) := by
    simp [jsonExtract, h, Request.get?_toPlain, Request.slots, List.lookup, sqlValue]
  have hmode : jsonExtract row.effect ["request", "mode"] = some (.text request.mode.text) := by
    simp [jsonExtract, h, Request.get?_toPlain, Request.slots, List.lookup, sqlValue]
  have hcreated : jsonExtract row.effect ["request", "createdAt"] = some (.num request.createdAt) := by
    simp [jsonExtract, h, Request.get?_toPlain, Request.slots, List.lookup, sqlValue]
  have hopen : (request.state.text = "open") ↔ request.state = .opened := by cases request.state <;> decide
  have happroval : (request.mode.text = "approval") ↔ request.mode = .approval := by cases request.mode <;> decide
  unfold countsOpen openApprovalSince
  rw [hstate, hmode, hcreated]
  simp only [Option.some.injEq, SqlValue.text.injEq, hopen, happroval, Option.any_some, SqlValue.gt]
  rw [Bool.and_comm (decide (request.state = .opened))]

def entryOf (row : Node) : StateEntry := ⟨requestKey row, textKey (requestKey row), row.effect.get? "request"⟩

lemma filterMap_requestEntry (rows : List Node) :
    rows.filterMap requestEntry = (rows.filter (·.kind = .request)).map entryOf := by
  induction rows with
  | nil => rfl
  | cons row rows ih =>
    by_cases hkind : row.kind = .request
    · have hentry : requestEntry row = some (entryOf row) := by
        unfold requestEntry
        rw [if_pos hkind]
        rfl
      rw [filterMap_cons_some hentry, filter_cons_of_pos (by simpa using hkind), map_cons, ih]
    · have hentry : requestEntry row = none := by
        unfold requestEntry
        rw [if_neg hkind]
      rw [filterMap_cons_none hentry, filter_cons_of_neg (by simpa using hkind), ih]

omit [PlainCoding] in
lemma latestStates_eq {entries : List StateEntry} (h : ∀ entry ∈ entries, entry.key.isSome = true) :
    latestStates entries = latest StateEntry.key entries := by
  induction entries with
  | nil => rfl
  | cons first entries ih =>
    rw [latestStates, latest, h first mem_cons_self, Bool.true_and,
      ih fun entry hentry => h entry (mem_cons_of_mem _ hentry)]

omit [PlainCoding] in
lemma mapM_eq_filterMap {α β : Type} {f : α → Option β} {items : List α} (h : ∀ a ∈ items, (f a).isSome = true) :
    items.mapM f = some (items.filterMap f) := by
  induction items with
  | nil => rfl
  | cons a items ih =>
    obtain ⟨b, hb⟩ := Option.isSome_iff_exists.mp (h a mem_cons_self)
    rw [mapM_cons, hb, ih fun c hc => h c (mem_cons_of_mem _ hc), filterMap_cons_some hb]
    rfl

lemma requestRows_count (h : ∀ row ∈ rows, row.kind = .request → CarriesValid row.effect) :
    ∃ requests, requestRows rows = some requests ∧
      ∀ since, requests.countP (openApprovalSince · since) = (latestRequests rows).countP (countsOpen since) := by
  have hlisted : ∀ row ∈ latestRequests rows, CarriesValid row.effect := by
    intro row hrow
    obtain ⟨hmem, hkind⟩ := mem_latestRequests hrow
    exact h row hmem hkind
  have hkeyed : Keyed (rows.filterMap requestEntry) := by
    rw [filterMap_requestEntry]
    intro entry hentry
    obtain ⟨row, hrow, rfl⟩ := mem_map.mp hentry
    obtain ⟨hmem, hkind⟩ := mem_filter.mp hrow
    obtain ⟨request, hvalid, heffect⟩ := h row hmem (of_decide_eq_true hkind)
    have hid : isId request.requestId = true := by
      simp only [Request.valid, Request.validFields, Bool.and_eq_true] at hvalid
      tauto
    refine ⟨request.requestId, of_decide_eq_true hid, requestKey_eq heffect, ?_⟩
    rw [entryOf, requestKey_eq heffect]
    rfl
  have hlatest : latestStates (rows.filterMap requestEntry) = (latestRequests rows).map entryOf := by
    rw [latestStates_eq, filterMap_requestEntry, latest_map]
    · rfl
    · intro entry hentry
      obtain ⟨text, -, hkey, -⟩ := hkeyed entry hentry
      rw [hkey]
      rfl
  have hperm := mergeSort_perm
    ((latestStates (rows.filterMap requestEntry)).filterMap fun entry => entry.cursor.map (·, entry)) fun a b => decide (a.1 ≤ b.1)
  rw [hlatest, filterMap_map] at hperm
  have hread : ∀ row ∈ latestRequests rows, ∀ request : Request, request.valid = true →
      row.effect.get? "request" = some request.toPlain →
      (entryOf row).cursor.map (·, entryOf row) = some (request.requestId, entryOf row) ∧
        (entryOf row).state.bind Request.ofPlain = some request := by
    intro row hrow request hvalid heffect
    unfold entryOf
    rw [requestKey_eq heffect, heffect]
    exact ⟨rfl, Request.ofPlain_toPlain hvalid⟩
  refine ⟨(orderedStates (rows.filterMap requestEntry)).filterMap fun listed => listed.2.state.bind Request.ofPlain, ?_, ?_⟩
  · unfold requestRows readStates
    rw [statePages_eq hkeyed]
    apply mapM_eq_filterMap
    intro listed hmem
    unfold orderedStates at hmem
    rw [hlatest, mem_mergeSort, filterMap_map, mem_filterMap] at hmem
    obtain ⟨row, hrow, hcursor⟩ := hmem
    obtain ⟨request, hvalid, heffect⟩ := hlisted row hrow
    obtain ⟨hentry, hstate⟩ := hread row hrow request hvalid heffect
    obtain rfl := Option.mem_unique hentry hcursor
    rw [hstate]
    rfl
  · intro since
    unfold orderedStates
    rw [hlatest, filterMap_map, (hperm.filterMap _).countP_eq, filterMap_filterMap, countP_filterMap]
    apply countP_congr
    intro row hrow
    obtain ⟨request, hvalid, heffect⟩ := hlisted row hrow
    obtain ⟨hentry, hstate⟩ := hread row hrow request hvalid heffect
    rw [Function.comp_apply, hentry, Option.bind_some, hstate, Option.map_some, Option.getD_some, countsOpen_eq heffect]

variable {cap : ℕ} {recentOpen : ApprovalRecentOpen} {db db' : Db}

lemma sessionOpenApprovalCount_eq (h : db.actions.Pairwise fun a b => a.ordinal < b.ordinal) (since : ℚ) :
    db.sessionOpenApprovalCount since = (latestRequests db.actions).countP (countsOpen since) := by
  have hkept : (db.actions.filter (·.kind = .request)).Pairwise fun a b => a.ordinal < b.ordinal := h.filter _
  unfold latestRequests
  rw [← filter_eq_latest requestKey hkept, countP_filter]
  unfold Db.sessionOpenApprovalCount
  apply countP_congr
  intro row hrow
  simp only [countsOpen, requestKey, Bool.and_eq_true]
  tauto

omit [PlainCoding] in
lemma rows_of_single (hchain : ChainInv db) (hsingle : ∀ a ∈ db.sessionIds, ∀ b ∈ db.sessionIds, a = b) {sessionId : String}
    (h : sessionId ∈ db.sessionIds) : db.rows sessionId = db.actions := by
  unfold Db.rows
  rw [filter_eq_self]
  intro row hrow
  obtain ⟨owner, howner, hid⟩ := hchain.owned row hrow
  exact decide_eq_true (hid ▸ hsingle _ (mem_map_of_mem howner) _ h)

omit [PlainCoding] in
lemma ordinals_of_single (hchain : ChainInv db) (hsingle : ∀ a ∈ db.sessionIds, ∀ b ∈ db.sessionIds, a = b) :
    db.actions.Pairwise fun a b => a.ordinal < b.ordinal := by
  cases hsessions : db.sessions with
  | nil =>
    have hnone : db.actions = [] := by
      rw [eq_nil_iff_forall_not_mem]
      intro row hrow
      obtain ⟨owner, howner, -⟩ := hchain.owned row hrow
      rw [hsessions] at howner
      exact absurd howner not_mem_nil
    rw [hnone]
    exact List.Pairwise.nil
  | cons first rest =>
    have hfirst : first ∈ db.sessions := hsessions ▸ mem_cons_self
    have hordinals := hchain.ordinals first hfirst
    rw [rows_of_single hchain hsingle (mem_map_of_mem hfirst)] at hordinals
    have hsorted : (db.actions.map (·.ordinal)).Pairwise (· < ·) := by
      rw [hordinals]
      exact pairwise_lt_range'
    exact pairwise_map.mp hsorted

lemma decide_open_count {snapshot : RequestSnapshot} (hpayload : command.payload = .open request)
    (hmode : request.mode = .approval) (h : (decideRequestTransition command snapshot recentOpen).actions ≠ []) :
    ∃ count : ℕ, (decideRequestTransition command snapshot recentOpen).requestCount =
        some ⟨command.at - recentOpen.windowMs, count⟩ ∧ (count : ℚ) < recentOpen.limit := by
  obtain ⟨_, _, _, hrecords⟩ := decideRequestTransition_records h
  have hdecide : decideRequestTransition command snapshot recentOpen =
      openRequest command snapshot request (requestInputDigest command.payload) recentOpen := by
    unfold decideRequestTransition repeatedInput transition
    rw [hrecords.valid, hrecords.owns, hrecords.unrecorded, hpayload]
    rfl
  rw [hdecide] at h ⊢
  unfold openRequest at h ⊢
  dsimp only at h ⊢
  split
  · rename_i hover
    rw [if_pos hover] at h
    exact absurd rfl h
  · rename_i hunder
    have hcount : approvalCount snapshot request (command.at - recentOpen.windowMs) =
        some ⟨command.at - recentOpen.windowMs, (snapshot.requests.getD []).countP
          (openApprovalSince · (command.at - recentOpen.windowMs))⟩ := if_neg (not_not.mpr hmode)
    refine ⟨_, hcount, ?_⟩
    rw [hcount] at hunder
    simp only [exceedsApprovalBudget, Option.any_some, Bool.or_eq_true, decide_eq_true_eq, not_or, not_le] at hunder
    exact hunder.1

lemma commit_count {c : Commit} (h : refused (write cap (.commit c) db).1 = false) {since : ℚ} {count : ℕ}
    (hcount : c.requestCount = some ⟨since, count⟩) : db.sessionOpenApprovalCount since = count := by
  unfold write transaction at h
  cases hrun : runWrite cap (.commit c) db with
  | error refusal => simp [hrun, refused] at h
  | ok result =>
    obtain ⟨out, next⟩ := result
    obtain ⟨row, receipts, -, -, hcommit⟩ := runWrite_commit hrun
    have hsame := hcommit.approvals ⟨since, count⟩ hcount
    dsimp only at hsame
    exact hsame

lemma count_wrote {rows : List Append} (h : Wrote rows db db') {requestId : String}
    (hrows : ∀ a ∈ rows, a.kind = .request → jsonExtract a.effect ["request", "requestId"] = some (.text requestId))
    (since : ℚ) :
    (latestRequests db'.actions).countP (countsOpen since) ≤ (latestRequests db.actions).countP (countsOpen since) + 1 := by
  obtain ⟨new, hactions, rfl⟩ := h.actions
  have hone : (latestRequests new).length ≤ 1 := by
    have hkey : ∀ row ∈ new.filter (·.kind = .request), requestKey row = some (.text requestId) := by
      intro row hrow
      obtain ⟨hmem, hkind⟩ := mem_filter.mp hrow
      exact hrows row.toAppend (mem_map_of_mem hmem) (of_decide_eq_true hkind)
    exact length_latest_le_one requestKey fun a ha b hb => (hkey a ha).trans (hkey b hb).symm
  have happend : (latestRequests db'.actions).countP (countsOpen since) ≤
      (latestRequests db.actions).countP (countsOpen since) + (latestRequests new).length := by
    unfold latestRequests
    rw [hactions, filter_append]
    exact countP_latest_append_le requestKey (countsOpen since) _ _
  omega

lemma planned_requestKey {decision : RequestDecision} {resolution : Resolution} {terminal : Bool}
    (h : Planned db command decision request resolution terminal) {admission : List DeliveryCommit}
    (hadmission : ∀ d ∈ admission, isForeign (deliveryCommitAction d) = true) (authority : Authority) (now : ℚ)
    (state : SessionState) :
    ∀ a ∈ (requestCommit command decision admission authority now state).actions, a.kind = .request →
      jsonExtract a.effect ["request", "requestId"] = some (.text request.requestId) := by
  intro a ha hkind
  have hrow : RecordsInput command request resolution a ∨ ResolvesRequest command request resolution a := by
    rcases h.rows hadmission ha with rfl | rfl | hforeign
    · exact .inl ⟨h.valid, h.target, rfl⟩
    · exact .inr rfl
    · simp [isForeign, hkind] at hforeign
  simp [jsonExtract, requestRow_effect hrow, Request.get?_toPlain, Request.slots, sqlValue]

lemma FileInv.count (h : FileInv recentOpen s) (since : ℚ) :
    s.db.sessionOpenApprovalCount since = (latestRequests s.db.actions).countP (countsOpen since) :=
  sessionOpenApprovalCount_eq (ordinals_of_single h.system.ledger.chain h.single) since

lemma FileInv.counts_agree (h : FileInv recentOpen s) {sessionId : Option String}
    (hsession : ∀ id ∈ sessionId, id ∈ s.db.sessionIds) : ∃ requests, s.db.requestRowsIn sessionId = some requests ∧
      ∀ since, requests.countP (openApprovalSince · since) = s.db.sessionOpenApprovalCount since := by
  have hrows : sessionId.elim s.db.actions s.db.rows = s.db.actions := by
    cases sessionId with
    | none => rfl
    | some id => exact rows_of_single h.system.ledger.chain h.single (hsession id rfl)
  obtain ⟨requests, hrequests, hcount⟩ := requestRows_count h.rows
  refine ⟨requests, ?_, fun since => (hcount since).trans (h.count since).symm⟩
  unfold Db.requestRowsIn
  rw [hrows, hrequests]

/-- In every state of a session's file the count in memory is the count of the commit, and after an
accepted open of an approval at most `limit` of those created in the window stand open; a policy's limit
is a whole number, its own ceiling. -/
theorem approval_budget_kept (cap : ℕ) (recentOpen : ApprovalRecentOpen) (s : RequestSystem)
    (h : Reachable (· = ({} : RequestSystem)) (RequestFileStep cap recentOpen) s) :
    (∀ sessionId : Option String, (∀ id ∈ sessionId, id ∈ s.db.sessionIds) →
      ∃ requests, s.db.requestRowsIn sessionId = some requests ∧
        ∀ since, requests.countP (openApprovalSince · since) = s.db.sessionOpenApprovalCount since) ∧
    ∀ command commit request t, RequestFileStep cap recentOpen s (.land command commit) t →
      command.payload = .open request → request.mode = .approval →
      refused (write cap (.commit commit) s.db).1 = false →
      ∃ requests, t.db.requestRowsIn (some command.sessionId) = some requests ∧
        (requests.countP (openApprovalSince · (command.at - recentOpen.windowMs)) : ℤ) ≤ ⌈recentOpen.limit⌉ := by
  have hinv := fileInv_of_reachable h
  refine ⟨fun sessionId hsession => hinv.counts_agree hsession, ?_⟩
  intro command commit request t hstep hpayload hmode hwrite
  have hinv' := hinv.step hstep
  cases hstep.step with
  | land command decision admission authority now state hdecided hactions hadmission =>
    obtain ⟨snapshot, hdecision⟩ := (hinv.plans _ hdecided).2
    dsimp only at hdecision
    rw [hdecision] at hactions
    obtain ⟨count, hcount, hlimit⟩ := decide_open_count hpayload hmode hactions
    obtain ⟨recorded, resolution, terminal, hplanned⟩ := hinv.system.decided _ hdecided (by rw [hdecision]; exact hactions)
    have hnamed : (requestCommit command decision admission authority now state).requestCount =
        some ⟨command.at - recentOpen.windowMs, count⟩ := by
      rw [← hcount, ← hdecision]
      rfl
    have hcommit := planned_requestKey hplanned hadmission authority now state
    have hsession : (requestCommit command decision admission authority now state).sessionId = command.sessionId := rfl
    generalize requestCommit command decision admission authority now state = commit at hwrite hnamed hcommit hsession hinv' ⊢
    have hbefore := commit_count hwrite hnamed
    have hknown : command.sessionId ∈ (write cap (.commit commit) s.db).2.sessionIds := by
      obtain ⟨row, hrow, hid, -⟩ := write_commit_authority hwrite
      have hbefore : commit.sessionId ∈ s.db.sessionIds := hid ▸ mem_map_of_mem hrow
      rw [← hsession]
      rcases write_sessionIds cap (.commit commit) s.db with hsame | hadded
      · exact hsame ▸ hbefore
      · exact hadded ▸ mem_append_left _ hbefore
    have hnamedSession : ∀ id ∈ some command.sessionId, id ∈ (write cap (.commit commit) s.db).2.sessionIds := by
      intro id hid
      exact Option.some.inj hid ▸ hknown
    obtain ⟨requests, hrequests, hagree⟩ := hinv'.counts_agree hnamedSession
    refine ⟨requests, hrequests, ?_⟩
    have hafter := count_wrote (write_commit_wrote hwrite) hcommit (command.at - recentOpen.windowMs)
    have hnext := hinv'.count (command.at - recentOpen.windowMs)
    rw [← hinv.count, hbefore] at hafter
    rw [hagree, hnext]
    have hceil : (count : ℤ) < ⌈recentOpen.limit⌉ := Int.lt_ceil.mpr (by exact_mod_cast hlimit)
    dsimp only at hafter ⊢
    omega

end

namespace ApprovalSample

open RequestSample

attribute [local instance] textCoding

def approval : Request :=
  let unbound : Request := { request with mode := .approval, bindingDigest := "" }
  { unbound with bindingDigest := requestBindingDigest unbound }

def command : Command := { openCommand with payload := .open approval }

def decision : RequestDecision := decideRequestTransition command { openSnapshot with requests := some [] } recentOpen

def planned : RequestSystem where
  db := called
  heads := [row]
  requests := [(row, "r", none)]
  inputs := [(row, "r:open", none)]
  decided := [(command, decision)]

lemma planned_reachable : Reachable (· = ({} : RequestSystem)) (RequestFileStep 1000000 recentOpen) planned := by
  have hinit : Reachable (· = ({} : RequestSystem)) (RequestFileStep 1000000 recentOpen) {} := ⟨{}, [], rfl, .nil⟩
  have hcreated := hinit.step ⟨.other (.materialize ⟨{ row with revision := 0 }, genesis⟩) (by decide), fun _ _ _ _ known hknown => by
    cases hknown⟩
  have hcalled := reachable_fileWrites setup.tail hcreated (by decide) (by decide)
  have hhead := hcalled.step (.of_ne (.readRow row (some "o") (by decide)) (by simp))
  have hrequest := hhead.step (.of_ne (.readRequest row "r" none (by decide) (by decide)) (by simp))
  have hinput := hrequest.step (.of_ne (.readInput row "r:open" (by decide)) (by simp))
  have hnone : called.requestInputById row.id "r:open" = none := by decide
  have hdecided := hinput.step (.of_ne (.decide command { openSnapshot with requests := some [] } "r" ?_ ?_ ?_ ?_) (by simp))
  · exact hdecided
  · exact mem_singleton.mpr (congrArg (fun record => (row, "r:open", record)) hnone.symm)
  · intro node heq
    cases heq
    decide
  · exact mem_singleton.mpr rfl
  · exact fun _ => rfl

/-- The first approval of a file is within a budget of five. -/
theorem approval_budget_kept_first : ∃ t requests, RequestFileStep 1000000 recentOpen planned
      (.land command (requestCommit command decision [] ⟨"o", 1⟩ 1 .running)) t ∧
    t.db.requestRowsIn (some "s") = some requests ∧ requests.countP (openApprovalSince · (command.at - recentOpen.windowMs)) ≤ 5 := by
  have hkept := approval_budget_kept 1000000 recentOpen planned planned_reachable
  have hland : RequestFileStep 1000000 recentOpen planned
      (.land command (requestCommit command decision [] ⟨"o", 1⟩ 1 .running)) _ :=
    .of_ne (.land command decision [] ⟨"o", 1⟩ 1 .running (mem_singleton.mpr rfl) (by decide +kernel) (by simp))
      (by simp)
  obtain ⟨requests, hrequests, hcount⟩ := hkept.2 command _ approval _ hland rfl rfl (by decide +kernel)
  refine ⟨_, requests, hland, hrequests, ?_⟩
  have hlimit : ⌈recentOpen.limit⌉ = 5 := by decide
  rw [hlimit] at hcount
  exact_mod_cast hcount

end ApprovalSample

end OpenOmni
