import OpenOmni.Session.RequestLedger

/-! Request commands against a session file: many callers read, decide and commit while other
writers append and the session forks. Every input is recorded once. -/
namespace OpenOmni
open List

open SessionTransition PlainValue Transition

def stableTarget (v : PlainValue) : Option PlainValue :=
  (["request", "answer", "receipt"].findSome? fun key => (v.get? key).bind (·.get? "requestId")).or
    (v.get? "requestId")

lemma stableTarget_stable (payload : Payload) :
    stableTarget payload.stable.canonical = some (.str (targetRequestId payload)) := by
  cases payload <;>
    simp [stableTarget, Payload.stable, targetRequestId, get?_canonical_record, List.lookup,
      Request.toPlain, Request.slots, Answer.stableSlots, DeliveryReceipt.stableSlots]

lemma readEnum_resolution (resolution : Resolution) :
    readEnum Resolution.members Resolution.text (.str resolution.text) = some resolution := by
  refine readEnum_text ?_ ?_
  · decide
  · cases resolution <;> decide

section
variable [PlainCoding]

/-- A session file and what its callers hold of it: session rows they read, the answers of
`requestById` and `requestInputById` they read after a row, and decisions they planned. -/
structure RequestSystem where
  db : Db := {}
  heads : List Row := []
  requests : List (Row × String × Option Request) := []
  inputs : List (Row × String × Option Node) := []
  decided : List (Command × RequestDecision) := []

inductive RequestEvent where
  | readRow (row : Row) (owner : Option String)
  | readRequest (row : Row) (requestId : String)
  | readInput (row : Row) (inputId : String)
  | decide (command : Command) (snapshot : RequestSnapshot)
  | land (command : Command) (commit : Commit)
  | other (op : WriteOp)
  | strike (occurrenceId : String)
  | requeue (occurrenceId : String) («at» : ℚ)
  | fork (parent : Row) (childId anchorId : String)

/-- `strikeArmedAlarm`: index state only, no row. -/
def strikeArmed (occurrenceId : String) (armed : List ArmedRow) : List ArmedRow :=
  armed.map fun row =>
    if row.occurrenceId = occurrenceId then { row with strikes := row.strikes + 1 } else row

/-- `requeueArmedAlarm`: index state only, no row. -/
def requeueArmed (occurrenceId : String) (fireAt : ℚ) (armed : List ArmedRow) : List ArmedRow :=
  armed.map fun row =>
    if row.occurrenceId = occurrenceId then { row with fireAt, strikes := 0 } else row

/-- One event. A caller may see a borrowed owner in the row it reads, may hold its reads and its plan
for any time, and commits under any authority. Who decides over a request it did not find had asked
for the one its command names. -/
inductive RequestSystem.Step (cap : ℕ) (recentOpen : ApprovalRecentOpen) (s : RequestSystem) :
    RequestEvent → RequestSystem → Prop where
  | readRow (row : Row) (owner : Option String) (hrow : row ∈ s.db.sessions) :
      Step cap recentOpen s (.readRow row owner)
        { s with heads := { row with fenceOwner := owner } :: s.heads }
  | readRequest (row : Row) (requestId : String) (request : Option Request) (hrow : row ∈ s.heads)
      (hread : s.db.requestById requestId = some request) :
      Step cap recentOpen s (.readRequest row requestId)
        { s with requests := (row, requestId, request) :: s.requests }
  | readInput (row : Row) (inputId : String) (hrow : row ∈ s.heads) :
      Step cap recentOpen s (.readInput row inputId)
        { s with inputs := (row, inputId, s.db.requestInputById row.id inputId) :: s.inputs }
  | decide (command : Command) (snapshot : RequestSnapshot) (requestId : String)
      (hinput : (snapshot.row, command.inputId, snapshot.inputRecord) ∈ s.inputs)
      (hinvocation : ∀ node, snapshot.invocation = some node → node ∈ s.db.actions)
      (hrequest : (snapshot.row, requestId, snapshot.request) ∈ s.requests)
      (hnamed : snapshot.request = none → requestId = targetRequestId command.payload) :
      Step cap recentOpen s (.decide command snapshot)
        { s with decided := (command, decideRequestTransition command snapshot recentOpen) :: s.decided }
  | land (command : Command) (decision : RequestDecision) (admission : List DeliveryCommit)
      (authority : Authority) (now : ℚ) (state : SessionState)
      (hdecided : (command, decision) ∈ s.decided) (hactions : decision.actions ≠ [])
      (hadmission : ∀ d ∈ admission, isForeign (deliveryCommitAction d) = true) :
      Step cap recentOpen s
        (.land command (requestCommit command decision admission authority now state))
        { s with db := (write cap (.commit
            (requestCommit command decision admission authority now state)) s.db).2 }
  | other (op : WriteOp) (hforeign : ∀ a ∈ op.rows, isForeign a = true) :
      Step cap recentOpen s (.other op) { s with db := (write cap op s.db).2 }
  | strike (occurrenceId : String) :
      Step cap recentOpen s (.strike occurrenceId)
        { s with db := { s.db with armed := strikeArmed occurrenceId s.db.armed } }
  | requeue (occurrenceId : String) (fireAt : ℚ) :
      Step cap recentOpen s (.requeue occurrenceId fireAt)
        { s with db := { s.db with armed := requeueArmed occurrenceId fireAt s.db.armed } }
  | fork (parent : Row) (childId anchorId : String) (pointers : GenerationPointers)
      (genesis : Append) (copies : List Append) (hparent : parent ∈ s.db.sessions)
      (hcopies : planCopies parent.id childId anchorId (s.db.rows parent.id) = some copies)
      (hgenesis : isForeign genesis = true) :
      Step cap recentOpen s (.fork parent childId anchorId)
        { db := (write cap (.fork ⟨forkedRow childId parent pointers, genesis⟩ copies) {}).2 }

/-- The ledger's invariant, and what every read and every plan still says of it. -/
structure SystemInv (s : RequestSystem) : Prop where
  ledger : LedgerInv s.db
  heads : ∀ row ∈ s.heads, ∃ current ∈ s.db.sessions,
    current.id = row.id ∧ row.revision ≤ current.revision
  requests : ∀ read ∈ s.requests, ∀ request, read.2.2 = some request →
    Invoked s.db request.requestId
  inputs : ∀ read ∈ s.inputs, read.2.2 = none → Unrecorded s.db read.1.id read.1.revision read.2.1
  decided : ∀ plan ∈ s.decided, plan.2.actions ≠ [] → ∃ request resolution terminal,
    Planned s.db plan.1 plan.2 request resolution terminal

variable {s t : RequestSystem} {db' : Db} {submitted : List Append} {cap : ℕ}
  {recentOpen : ApprovalRecentOpen} {event : RequestEvent}

variable {db : Db} {requestId : String} {request : Request} {resolution : Resolution}

lemma SystemInv.fresh (h : LedgerInv db) : SystemInv { db } where
  ledger := h
  heads := by simp
  requests := by simp
  inputs := by simp
  decided := by simp

theorem SystemInv.grow (h : SystemInv s) (hgrow : Grows submitted s.db db') (hledger : LedgerInv db')
    (hkept : FencesKept s.db db') : SystemInv { s with db := db' } := by
  refine ⟨hledger, ?_, ?_, ?_, ?_⟩
  · intro row hrow
    obtain ⟨current, hcurrent, hid, hle⟩ := h.heads row hrow
    obtain ⟨current', hcurrent', hid', -⟩ := hkept current hcurrent
    have hmono := (hgrow.rows_eq h.ledger.chain hledger.chain hcurrent hcurrent' hid').1
    exact ⟨current', hcurrent', hid'.trans hid, hle.trans hmono⟩
  · intro read hread request hrequest
    exact (h.requests read hread request hrequest).grow hgrow
  · intro read hread hnone
    exact (h.inputs read hread hnone).grow h.ledger.chain hgrow hledger.chain hkept
  · intro plan hplan hactions
    obtain ⟨request, resolution, terminal, hplanned⟩ := h.decided plan hplan hactions
    exact ⟨request, resolution, terminal,
      hplanned.grow h.ledger.chain hgrow hledger.chain hkept⟩

theorem SystemInv.withArmed (h : SystemInv s) (armed : List ArmedRow) :
    SystemInv { s with db := { s.db with armed } } := by
  have hgrow : Grows [] s.db { s.db with armed } := Grows.of_actions_eq rfl
  have hchain : ChainInv { s.db with armed } :=
    ⟨h.ledger.chain.sessionIds, h.ledger.chain.actionIds, h.ledger.chain.ordinals,
      h.ledger.chain.parents, h.ledger.chain.owned⟩
  exact h.grow hgrow (h.ledger.foreign hgrow hchain (by simp)) (FencesKept.refl s.db)

theorem LedgerInv.recorded (h : LedgerInv db) (hread : db.requestById requestId = some (some request)) :
    ∃ (row : Node) (recorded : Request), db.requestStateById requestId = some row ∧ row ∈ db.actions ∧
      row.kind = .request ∧ row.effect.get? "request" = some recorded.toPlain ∧
      Invoked db recorded.requestId ∧ recorded.requestId = requestId ∧
      Request.ofPlain recorded.toPlain = some request := by
  unfold Db.requestById at hread
  split at hread
  · simp at hread
  · rename_i row hrow
    have hmem : row ∈ db.requestStates requestId := mem_of_getLast? hrow
    simp only [Db.requestStates, mem_filter, Bool.and_eq_true, decide_eq_true_eq] at hmem
    obtain ⟨hmem, hkind, hcarries⟩ := hmem
    obtain ⟨command, recorded, resolution, hinvoked, hrecord⟩ := h.requests row hmem hkind
    have heffect := requestRow_effect hrecord
    have hid : recorded.requestId = requestId := by
      simpa [jsonExtract, heffect, Request.get?_toPlain, Request.slots, List.lookup, sqlValue]
        using hcarries
    simp only [heffect, Option.bind_some, Option.map_eq_some_iff, Option.some.injEq, exists_eq_right]
      at hread
    exact ⟨row, recorded, hrow, hmem, hkind, heffect, hinvoked, hid, hread⟩

theorem LedgerInv.requestById (h : LedgerInv db) (hread : db.requestById requestId = some (some request)) :
    Invoked db request.requestId := by
  obtain ⟨_, recorded, -, -, -, -, hinvoked, -, hparse⟩ := h.recorded hread
  have hid := requestId_of_ofPlain hparse
  have hread' : readId (.str recorded.requestId) = some request.requestId := by
    simpa [field, Request.get?_toPlain, Request.slots, List.lookup] using hid
  have hsame := readId_some hread'
  simp only [PlainValue.str.injEq] at hsame
  rwa [hsame] at hinvoked

theorem SystemInv.planned (h : SystemInv s) {command : Command} {snapshot : RequestSnapshot}
    {decision : RequestDecision} {terminal : Bool}
    (hinput : (snapshot.row, command.inputId, snapshot.inputRecord) ∈ s.inputs)
    (hinvocation : ∀ node, snapshot.invocation = some node → node ∈ s.db.actions)
    (hrequest : (snapshot.row, requestId, snapshot.request) ∈ s.requests)
    (hrecords : Records command snapshot decision request resolution terminal) :
    Planned s.db command decision request resolution terminal := by
  have hinvoked : Invoked s.db request.requestId := by
    cases hrecords.origin with
    | opened node hpayload hunknown hstate hsession hterminal hnode hid hphase =>
      exact ⟨node, hinvocation node hnode, hid, by simpa [isInvocation] using hphase⟩
    | moved current hpayload hcurrent hid hsession hmove =>
      rw [← hid]
      exact h.requests _ hrequest current hcurrent
  have hunrecorded := h.inputs _ hinput hrecords.unrecorded
  have howns := hrecords.owns
  simp only [ownsRequestRevision, Bool.and_eq_true, decide_eq_true_eq] at howns
  obtain ⟨⟨⟨hsession, -⟩, -⟩, hrevision⟩ := howns
  simp only [hsession, hrevision] at hunrecorded
  exact ⟨hrecords.valid, hrecords.target, hrecords.actions, hrecords.receive, hinvoked, hunrecorded⟩

lemma SystemInv.step (h : SystemInv s) (hstep : RequestSystem.Step cap recentOpen s event t) :
    SystemInv t := by
  cases hstep with
  | readRow row owner hrow =>
    refine { h with heads := ?_ }
    intro head hhead
    rcases mem_cons.mp hhead with rfl | hhead
    · exact ⟨row, hrow, rfl, le_rfl⟩
    · exact h.heads head hhead
  | readRequest row requestId request hrow hread =>
    refine { h with requests := ?_ }
    intro read hmem found hfound
    rcases mem_cons.mp hmem with rfl | hmem
    · obtain rfl : request = some found := hfound
      exact h.ledger.requestById hread
    · exact h.requests read hmem found hfound
  | readInput row inputId hrow =>
    refine { h with inputs := ?_ }
    intro read hread hnone
    rcases mem_cons.mp hread with rfl | hread
    · obtain ⟨current, hcurrent, hid, hle⟩ := h.heads row hrow
      exact ⟨current, hcurrent, hid, hle, fun _ => requestInputById_none hnone⟩
    · exact h.inputs read hread hnone
  | decide command snapshot requestId hinput hinvocation hrequest hnamed =>
    refine { h with decided := ?_ }
    intro plan hplan hactions
    rcases mem_cons.mp hplan with rfl | hplan
    · obtain ⟨request, resolution, terminal, hrecords⟩ := decideRequestTransition_records hactions
      exact ⟨request, resolution, terminal, h.planned hinput hinvocation hrequest hrecords⟩
    · exact h.decided plan hplan hactions
  | land command decision admission authority now state hdecided hactions hadmission =>
    obtain ⟨request, resolution, terminal, hplanned⟩ := h.decided _ hdecided hactions
    exact h.grow (write_grows cap _ _) (hplanned.ledgerInv h.ledger hadmission)
      (write_chainInv cap _ h.ledger.chain).2
  | other op hforeign =>
    have hgrow := write_grows cap op s.db
    obtain ⟨hchain, hkept⟩ := write_chainInv cap op h.ledger.chain
    exact h.grow hgrow (h.ledger.foreign hgrow hchain hforeign) hkept
  | strike occurrenceId | requeue occurrenceId fireAt => exact h.withArmed _
  | fork parent childId anchorId pointers genesis copies hparent hcopies hgenesis =>
    exact SystemInv.fresh (h.ledger.fork hcopies hgenesis)

lemma systemInv_of_reachable
    (h : Reachable (· = ({} : RequestSystem)) (RequestSystem.Step cap recentOpen) s) : SystemInv s := by
  refine h.invariant ?_ fun a event b => SystemInv.step
  rintro s rfl
  exact SystemInv.fresh LedgerInv.empty

theorem reachable_writes (ops : List WriteOp)
    (hs : Reachable (· = ({} : RequestSystem)) (RequestSystem.Step cap recentOpen) s)
    (hops : ∀ op ∈ ops, ∀ a ∈ op.rows, isForeign a = true) :
    Reachable (· = ({} : RequestSystem)) (RequestSystem.Step cap recentOpen)
      { s with db := writes cap ops s.db } := by
  induction ops generalizing s with
  | nil => exact hs
  | cons op ops ih =>
    have hfirst := hs.step (.other op (hops op mem_cons_self))
    exact ih hfirst fun other hother => hops other (mem_cons_of_mem _ hother)

structure RecordedInput (recorded : Command) (resolution : Resolution) (row : Node) : Prop where
  id : row.id = targetRequestId recorded.payload ++ ":input:" ++ recorded.inputId
  parentId : row.parentId = some (targetRequestId recorded.payload)
  inputId : row.intent.get? "inputId" = some (.str recorded.inputId)
  inputDigest : row.intent.get? "inputDigest" = some (.str (requestInputDigest recorded.payload))
  resolution : recordedResolution row = some resolution

lemma RecordsInput.recordedInput {recorded : Command} {row : Node}
    (h : RecordsInput recorded request resolution row.toAppend) : RecordedInput recorded resolution row := by
  have hrow := h.eq
  have hintent := congrArg Append.intent hrow
  have heffect := congrArg Append.effect hrow
  simp only at hintent heffect
  refine ⟨?_, ?_, ?_, ?_, ?_⟩
  · rw [← h.target]
    exact congrArg Append.id hrow
  · rw [← h.target]
    exact congrArg Append.parentId hrow
  · simp [hintent, inputRecord, get?_record, List.lookup]
  · simp [hintent, inputRecord, get?_record, List.lookup]
  · have hresolution : row.effect.get? "resolution" = some (.str resolution.text) := by
      rw [heffect]
      cases hpayload : recorded.payload <;>
        simp [inputRecord, payloadEvidence, hpayload, get?_record, List.lookup]
    rw [recordedResolution, hresolution, Option.bind_some, readEnum_resolution]

/-- A command put to the ledger's head: well formed, under the authority the head names, with the
answer of the input read. -/
structure Submits (db : Db) (command : Command) (snapshot : RequestSnapshot) : Prop where
  valid : command.valid = true
  owns : ownsRequestRevision command snapshot.row = true
  input : snapshot.inputRecord = db.requestInputById command.sessionId command.inputId

section
variable {recorded command : Command} {resolution : Resolution} {row : Node}
  {snapshot : RequestSnapshot}

lemma decide_repeated (recentOpen : ApprovalRecentOpen) (hvalid : command.valid = true)
    (howns : ownsRequestRevision command snapshot.row = true)
    (hinput : snapshot.inputRecord = some row) :
    some (decideRequestTransition command snapshot recentOpen) =
      repeatedInput command snapshot (requestInputDigest command.payload) := by
  simp [decideRequestTransition, hvalid, howns, repeatedInput, hinput]

theorem RecordedInput.replay (h : RecordedInput recorded resolution row)
    (recentOpen : ApprovalRecentOpen) (hsession : row.sessionId = command.sessionId) (hinputId : recorded.inputId = command.inputId)
    (hvalid : command.valid = true) (howns : ownsRequestRevision command snapshot.row = true)
    (hinput : snapshot.inputRecord = some row) :
    decideRequestTransition command snapshot recentOpen =
      if targetRequestId command.payload = targetRequestId recorded.payload ∧
          requestInputDigest command.payload = requestInputDigest recorded.payload
      then { resolution, request := snapshot.request, actions := [] } else rejected := by
  have hdecide := decide_repeated recentOpen hvalid howns hinput
  simp only [repeatedInput, hinput, Option.map_some, Option.some.injEq] at hdecide
  rw [hdecide]
  by_cases htarget : targetRequestId command.payload = targetRequestId recorded.payload
  · have hsame : (row.sessionId = command.sessionId &&
        row.parentId = some (targetRequestId command.payload) &&
        row.id = targetRequestId command.payload ++ ":input:" ++ command.inputId &&
        row.intent.get? "inputId" = some (.str command.inputId)) = true := by
      simp [hsession, h.parentId, h.id, h.inputId, htarget, hinputId]
    simp only [hsame, Bool.not_true, Bool.false_eq_true, if_false]
    unfold replayedInput
    by_cases hdigest : requestInputDigest command.payload = requestInputDigest recorded.payload
    · simp [h.inputDigest, hdigest, h.resolution, htarget]
    · have hne : row.intent.get? "inputDigest" ≠ some (.str (requestInputDigest command.payload)) := by
        rw [h.inputDigest]
        simpa using fun heq : _ = _ => hdigest heq.symm
      simp [hne, hdigest]
  · have hother : (row.sessionId = command.sessionId &&
        row.parentId = some (targetRequestId command.payload) &&
        row.id = targetRequestId command.payload ++ ":input:" ++ command.inputId &&
        row.intent.get? "inputId" = some (.str command.inputId)) = false := by
      have hne : targetRequestId recorded.payload ≠ targetRequestId command.payload := Ne.symm htarget
      simp [h.parentId, hne]
    simp [hother, htarget]

end

/-- Exactly-once request inputs, in every ledger that callers, other writers and forks reach: an input
id has one row; a resubmission plans no rows, answers the recorded resolution when its payload is
the recorded one up to its volatile fields, and is rejected when its payload or its request differs;
and a plan for an input that is recorded by now is refused. -/
theorem request_inputs_once (cap : ℕ) (recentOpen : ApprovalRecentOpen) (s : RequestSystem)
    (h : Reachable (· = ({} : RequestSystem)) (RequestSystem.Step cap recentOpen) s)
    (sessionId inputId : String) (row : Node) (hrow : row ∈ s.db.inputRows sessionId inputId) :
    s.db.inputRows sessionId inputId = [row] ∧
      (∃ recorded request resolution, RecordsInput recorded request resolution row.toAppend ∧
        recorded.inputId = inputId ∧ ∀ command snapshot, Submits s.db command snapshot →
          command.sessionId = sessionId → command.inputId = inputId →
          (decideRequestTransition command snapshot recentOpen).actions = [] ∧
          (command.payload.stable.canonical = recorded.payload.stable.canonical →
            (decideRequestTransition command snapshot recentOpen).resolution = resolution) ∧
          (targetRequestId command.payload ≠ targetRequestId recorded.payload →
            decideRequestTransition command snapshot recentOpen = rejected) ∧
          (CollisionFree [command.payload.stable, recorded.payload.stable] →
            command.payload.stable.canonical ≠ recorded.payload.stable.canonical →
            decideRequestTransition command snapshot recentOpen = rejected)) ∧
      ∀ command decision, (command, decision) ∈ s.decided → decision.actions ≠ [] →
        command.sessionId = sessionId → command.inputId = inputId →
        ∀ admission authority now state, refused (write cap (.commit
          (requestCommit command decision admission authority now state)) s.db).1 = true := by
  have hinv := systemInv_of_reachable h
  have hone := hinv.ledger.inputRows_eq hrow
  obtain ⟨hnode, hunder⟩ := Db.mem_inputRows.mp hrow
  refine ⟨hone, ?_, ?_⟩
  · obtain ⟨recorded, request, resolution, -, hrecord⟩ := hinv.ledger.requests row hnode hunder.1
    rcases hrecord with hrecord | hresolves
    · obtain ⟨hsession, hinputId⟩ := hrecord.underInput_iff.mp hunder
      refine ⟨recorded, request, resolution, hrecord, hinputId, ?_⟩
      rintro command snapshot hsubmits rfl rfl
      have hinput : snapshot.inputRecord = some row := by
        rw [hsubmits.input, Db.requestInputById, hone, argmax_singleton]
      have hreplay := hrecord.recordedInput.replay recentOpen hsession hinputId
        hsubmits.valid hsubmits.owns hinput
      rw [hreplay]
      refine ⟨?_, fun hsame => ?_, fun hne => ?_, fun hfree hne => ?_⟩
      · split <;> rfl
      · have htarget := stableTarget_stable command.payload
        rw [hsame, stableTarget_stable] at htarget
        simp only [Option.some.injEq, PlainValue.str.injEq] at htarget
        rw [if_pos ⟨htarget.symm, canonicalDigest_congr hsame⟩]
      · rw [if_neg fun hboth => hne hboth.1]
      · rw [if_neg fun hboth => hne (hfree _ (by simp) _ (by simp) hboth.2)]
    · exact absurd hunder hresolves.not_underInput
  · rintro command decision hdecided hactions rfl rfl admission authority now state
    obtain ⟨request, resolution, terminal, hplanned⟩ := hinv.decided _ hdecided hactions
    exact hplanned.tooLate hinv.ledger hrow

end

namespace RequestSample

attribute [local instance] textCoding

def genesis : Append where
  id := "s:configure"
  parentId := none
  sessionId := "s"
  kind := .sessionConfigure
  intent := .record []
  effect := .record []
  ts := 0

/-- The writes before the request: the session, its invocation and a policy row. -/
def setup : List WriteOp :=
  [.materialize ⟨{ row with revision := 0 }, genesis⟩, .append invocation.toAppend 1,
    .append { genesis with id := "p", kind := .policyDecision } 2]

def called : Db := writes 1000000 setup {}

def opening : Commit := requestCommit openCommand
  (decideRequestTransition openCommand openSnapshot recentOpen) [] ⟨"o", 1⟩ 1 .running

def landed : RequestSystem where
  db := (write 1000000 (.commit opening) called).2
  heads := [row]
  requests := [(row, "r", none)]
  inputs := [(row, "r:open", none)]
  decided := [(openCommand, decideRequestTransition openCommand openSnapshot recentOpen)]

lemma landed_reachable : Reachable (· = ({} : RequestSystem))
    (RequestSystem.Step 1000000 recentOpen) landed := by
  have hinit : Reachable (· = ({} : RequestSystem)) (RequestSystem.Step 1000000 recentOpen) {} :=
    ⟨{}, [], rfl, .nil⟩
  have hcalled := reachable_writes setup hinit (by decide)
  have hhead := hcalled.step (.readRow row (some "o") (by decide))
  have hrequest := hhead.step (.readRequest row "r" none (by decide) (by decide))
  have hinput := hrequest.step (.readInput row "r:open" (by decide))
  have hnone : called.requestInputById row.id "r:open" = none := by decide
  have hdecided := hinput.step (.decide openCommand openSnapshot "r" ?_ ?_ ?_ ?_)
  have hlanded := hdecided.step (.land openCommand
    (decideRequestTransition openCommand openSnapshot recentOpen) [] ⟨"o", 1⟩ 1 .running
    (by simp) (by decide +kernel) (by simp))
  · exact hlanded
  · exact mem_singleton.mpr (congrArg (fun record => (row, "r:open", record)) hnone.symm)
  · rintro node heq
    cases heq
    decide
  · exact mem_singleton.mpr rfl
  · exact fun _ => rfl

/-- The open's input has its one row, and a second open under it changes nothing. -/
theorem request_inputs_once_landed : ∃ row, landed.db.inputRows "s" "r:open" = [row] := by
  obtain ⟨row, hrow⟩ := exists_mem_of_ne_nil (landed.db.inputRows "s" "r:open")
    (by decide +kernel)
  exact ⟨row, (request_inputs_once 1000000 recentOpen landed landed_reachable "s" "r:open" row hrow).1⟩

end RequestSample

end OpenOmni
