import OpenOmni.Session.ForkObligations
import OpenOmni.Session.RequestInputs

/-! The request rows of a session's own file: each carries a request that parses, whoever wrote it. -/
namespace OpenOmni
open List

open SessionTransition PlainValue Transition

variable {request : Request}

section
variable (h : request.valid = true)
include h

lemma Request.valid_update {seen : List String} {replies : List Reply}
    {state : RequestState} {outcome : Option Outcome} (hseen : seen.all isId = true)
    (hreplies : replies.all Reply.valid = true) (houtcome : outcome = state.outcome) :
    Request.valid { request with seenReplyIds := seen, replies, state, outcome } = true := by
  simp only [Request.valid, Request.validFields, Request.consistent, Request.ruleThreshold, Bool.and_eq_true,
    decide_eq_true_eq] at h ⊢
  obtain ⟨⟨⟨⟨hfields, -⟩, -⟩, hcreated⟩, ⟨hconsistent, -⟩⟩ := h
  exact ⟨⟨⟨⟨hfields, hseen⟩, hreplies⟩, hcreated⟩, ⟨hconsistent, houtcome⟩⟩

lemma Request.valid_parts : request.seenReplyIds.all isId = true ∧ request.replies.all Reply.valid = true ∧
      request.outcome = request.state.outcome := by
  simp only [Request.valid, Request.validFields, Request.consistent, Bool.and_eq_true, decide_eq_true_eq] at h
  obtain ⟨⟨⟨⟨-, hseen⟩, hreplies⟩, -⟩, ⟨-, houtcome⟩⟩ := h
  exact ⟨hseen, hreplies, houtcome⟩

lemma Request.valid_settled (state : RequestState) :
    Request.valid { request with state, outcome := state.outcome } = true :=
  Request.valid_update h (Request.valid_parts h).1 (Request.valid_parts h).2.1 rfl

lemma Request.valid_seen {inputId : String} (hid : isId inputId = true) :
    (withSeenReply request inputId).valid = true := by
  obtain ⟨hseen, hreplies, houtcome⟩ := Request.valid_parts h
  refine Request.valid_update h ?_ hreplies houtcome
  rw [all_eq_true] at hseen ⊢
  intro id hmem
  rcases mem_append.mp (Ordered.mem_ofList.mp hmem) with hmem | hmem
  · exact hseen id hmem
  · rw [mem_singleton.mp hmem]
    exact hid

lemma Request.valid_attach {answer : Answer} (hanswer : answer.valid = true) :
    (request.attach answer).valid = true := by
  obtain ⟨hseen, hreplies, houtcome⟩ := Request.valid_parts h
  refine Request.valid_update h hseen ?_ houtcome
  have hreply : (replyOf answer).valid = true := by
    simp only [Answer.valid, Principal.valid, Bool.and_eq_true, decide_eq_true_eq] at hanswer
    obtain ⟨⟨⟨⟨⟨⟨⟨⟨⟨⟨⟨hid, -⟩, -⟩, hreceived⟩, hprincipal, -⟩, -⟩, -⟩, -⟩, -⟩, -⟩, -⟩, -⟩ := hanswer
    simp only [Reply.valid, replyOf, Bool.and_eq_true]
    exact ⟨⟨hid, hprincipal⟩, decide_eq_true hreceived⟩
  rw [all_append, hreplies, all_cons, hreply]
  rfl

lemma Request.valid_correlated {correlation : Correlation} {bindingDigest : String}
    (hcorrelation : correlation.valid = true) (hdigest : isId bindingDigest = true) :
    Request.valid { request with correlation, bindingDigest } = true := by
  simp only [Request.valid, Request.validFields, Request.consistent, Request.ruleThreshold, Bool.and_eq_true,
    decide_eq_true_eq] at h ⊢
  tauto

end

section
variable [PlainCoding]

lemma isId_canonicalDigest (v : PlainValue) : isId (canonicalDigest v) = true := by
  refine decide_eq_true fun hnil => ?_
  have hlist := congrArg String.toList hnil
  rw [canonicalDigest, String.toList_append] at hlist
  exact absurd hlist (by simp)

def CarriesValid (effect : PlainValue) : Prop :=
  ∃ request : Request, request.valid = true ∧ effect.get? "request" = some request.toPlain

def ValidRows (actions : List Append) : Prop := ∀ a ∈ actions, a.kind = .request → CarriesValid a.effect

variable {command : Command} {snapshot : RequestSnapshot} {current request : Request} {inputDigest : String}
  {recentOpen : ApprovalRecentOpen}

omit [PlainCoding] in
lemma validRows_rejected : ValidRows rejected.actions := fun _ ha => absurd ha not_mem_nil

lemma validRows_recordRequest (h : request.valid = true) (resolution : Resolution) (terminal : Bool) :
    ValidRows (recordRequest command request inputDigest resolution terminal).actions := by
  intro a ha hkind
  rcases mem_recordRequest ha with rfl | rfl | ⟨arm, rfl⟩
  · refine ⟨request, h, ?_⟩
    cases hpayload : command.payload <;> simp [inputRecord, payloadEvidence, hpayload, get?_record, List.lookup]
  · exact ⟨request, h, by simp [resolutionRecord, get?_record, List.lookup]⟩
  · cases hkind

lemma validRows_recordDelivery (h : current.valid = true) {receipt : DeliveryReceipt} (hreceipt : receipt.valid = true) :
    ValidRows (recordDelivery command current receipt inputDigest).actions := by
  unfold recordDelivery
  split
  · exact validRows_rejected
  split
  · exact validRows_recordRequest h _ _
  · rename_i messageId hmessage
    refine validRows_recordRequest (Request.valid_correlated h ?_ (isId_canonicalDigest _)) _ _
    have hcorrelation : current.correlation.valid = true := by
      simp only [Request.valid, Request.validFields, Bool.and_eq_true] at h
      tauto
    have hmessageId : isId messageId = true := by
      simp only [DeliveryReceipt.valid, hmessage, Bool.and_eq_true, Option.all_some] at hreceipt
      exact hreceipt.1.2
    simp only [Correlation.valid, Bool.and_eq_true, Option.all_some] at hcorrelation ⊢
    tauto

variable {answer : Answer}

lemma validRows_settleReply (h : request.valid = true) :
    ValidRows (settleReply command request answer inputDigest).actions := by
  unfold settleReply
  split
  · exact validRows_recordRequest (Request.valid_settled h .refused) _ _
  split
  · exact validRows_recordRequest (Request.valid_settled h .resolved) _ _
  · exact validRows_recordRequest h _ _

lemma validRows_answerRequest (h : current.valid = true) (hanswer : answer.valid = true) :
    ValidRows (answerRequest command snapshot current answer inputDigest).actions := by
  have hid : isId answer.inputId = true := by
    simp only [Answer.valid, Bool.and_eq_true] at hanswer
    tauto
  have hseen := Request.valid_seen h hid
  unfold answerRequest lateAnswer attachAnswer
  dsimp only
  split
  · exact validRows_rejected
  split
  · split
    · exact validRows_recordRequest (Request.valid_settled hseen .expired) _ _
    · exact validRows_recordRequest hseen _ _
  split
  · exact validRows_recordRequest h _ _
  split
  · exact validRows_recordRequest hseen _ _
  · exact validRows_settleReply (Request.valid_attach hseen hanswer)

lemma validRows_transition (hvalid : command.valid = true)
    (hcurrent : ∀ current, snapshot.request = some current → current.valid = true) :
    ValidRows (transition command snapshot inputDigest recentOpen).actions := by
  have hpayload : command.payload.valid = true := by
    simp only [Command.valid, Bool.and_eq_true] at hvalid
    exact hvalid.2
  unfold transition
  cases hcommand : command.payload with
  | «open» next =>
    rw [hcommand] at hpayload
    unfold openRequest
    dsimp only
    split
    · exact validRows_rejected
    · exact validRows_recordRequest hpayload .opened false
  | answer answer =>
    rw [hcommand] at hpayload
    cases hrequest : snapshot.request with
    | none => exact validRows_rejected
    | some current =>
      dsimp only
      split
      · exact validRows_rejected
      · exact validRows_answerRequest (hcurrent current hrequest) hpayload
  | timeout requestId =>
    cases hrequest : snapshot.request with
    | none => exact validRows_rejected
    | some current =>
      have h := hcurrent current hrequest
      dsimp only
      split
      · exact validRows_rejected
      split
      · exact validRows_recordRequest h _ _
      unfold expireRequest
      split
      · exact validRows_rejected
      · exact validRows_recordRequest (Request.valid_settled h .expired) _ _
  | cancel requestId principal =>
    cases hrequest : snapshot.request with
    | none => exact validRows_rejected
    | some current =>
      have h := hcurrent current hrequest
      dsimp only
      split
      · exact validRows_rejected
      split
      · exact validRows_recordRequest h _ _
      unfold cancelRequest
      split
      · exact validRows_recordRequest h _ _
      · exact validRows_recordRequest (Request.valid_settled h .cancelled) _ _
  | delivery receipt =>
    rw [hcommand] at hpayload
    cases hrequest : snapshot.request with
    | none => exact validRows_rejected
    | some current =>
      dsimp only
      split
      · exact validRows_rejected
      · exact validRows_recordDelivery (hcurrent current hrequest) hpayload

theorem decideRequestTransition_validRows
    (hcurrent : ∀ current, snapshot.request = some current → current.valid = true) :
    ValidRows (decideRequestTransition command snapshot recentOpen).actions := by
  unfold decideRequestTransition
  split
  · exact validRows_rejected
  · rename_i hguard
    have hvalid : command.valid = true := by
      by_contra hnot
      simp [hnot] at hguard
    dsimp only
    unfold repeatedInput
    cases snapshot.inputRecord with
    | none => exact validRows_transition hvalid hcurrent
    | some previous =>
      rw [Option.map_some, Option.getD_some]
      dsimp only
      split
      · exact validRows_rejected
      · unfold replayedInput
        split
        · exact validRows_rejected
        · split
          · exact validRows_rejected
          · nofun

variable {cap : ℕ} {s t : RequestSystem} {event : RequestEvent} {db : Db}

/-- A step on the file of one session: the host opens a file under its session's id, so what a writer
creates in it is that session. -/
structure RequestFileStep (cap : ℕ) (recentOpen : ApprovalRecentOpen) (s : RequestSystem) (event : RequestEvent)
    (t : RequestSystem) : Prop where
  step : s.Step cap recentOpen event t
  own : ∀ op, event = .other op → ∀ id ∈ op.creates, ∀ known ∈ s.db.sessionIds, id = known

lemma RequestFileStep.of_ne (h : s.Step cap recentOpen event t) (hne : ∀ op, event ≠ .other op) : RequestFileStep cap recentOpen s event t :=
  ⟨h, fun op heq => absurd heq (hne op)⟩

/-- The file is of one session, its requests parse, and so does what its callers hold. -/
structure FileInv (recentOpen : ApprovalRecentOpen) (s : RequestSystem) : Prop where
  system : SystemInv s
  single : ∀ a ∈ s.db.sessionIds, ∀ b ∈ s.db.sessionIds, a = b
  rows : ∀ row ∈ s.db.actions, row.kind = .request → CarriesValid row.effect
  reads : ∀ read ∈ s.requests, ∀ request, read.2.2 = some request → request.valid = true
  plans : ∀ plan ∈ s.decided, ValidRows plan.2.actions ∧
    ∃ snapshot, plan.2 = decideRequestTransition plan.1 snapshot recentOpen

lemma valid_requestById {requestId : String} (h : db.requestById requestId = some (some request)) :
    request.valid = true := by
  unfold Db.requestById at h
  split at h
  · cases h
  · obtain ⟨read, hread, hsome⟩ := Option.map_eq_some_iff.mp h
    cases hsome
    obtain ⟨v, -, hv⟩ := Option.bind_eq_some_iff.mp hread
    exact Request.valid_of_ofPlain hv

omit [PlainCoding] in
lemma not_request_deliveryCommitAction (delivery : DeliveryCommit) : (deliveryCommitAction delivery).kind ≠ .request := by
  unfold deliveryCommitAction
  dsimp only
  split
  · nofun
  · split <;> nofun

omit [PlainCoding] in
lemma validRows_requestCommit {decision : RequestDecision} (h : ValidRows decision.actions)
    (admission : List DeliveryCommit) (authority : Authority) (now : ℚ) (state : SessionState) :
    ValidRows (requestCommit command decision admission authority now state).actions := by
  intro a ha hkind
  rcases mem_append.mp ha with ha | ha
  · exact h a ha hkind
  · obtain ⟨delivery, -, rfl⟩ := mem_map.mp ha
    exact absurd hkind (not_request_deliveryCommitAction delivery)

omit [PlainCoding] in
lemma carriesValid_grows {db' : Db} {submitted : List Append} (hgrow : Grows submitted db db')
    (hrows : ∀ row ∈ db.actions, row.kind = .request → CarriesValid row.effect) (h : ValidRows submitted) :
    ∀ row ∈ db'.actions, row.kind = .request → CarriesValid row.effect := by
  obtain ⟨new, hactions, hnew⟩ := hgrow
  intro row hrow hkind
  rw [hactions] at hrow
  rcases mem_append.mp hrow with hrow | hrow
  · exact hrows row hrow hkind
  · exact h row.toAppend (hnew row hrow) hkind

omit [PlainCoding] in
lemma single_append {ids more : List String} (hids : ∀ a ∈ ids, ∀ b ∈ ids, a = b)
    (hmore : ∀ a ∈ more, ∀ b ∈ ids, a = b) (hself : ∀ a ∈ more, ∀ b ∈ more, a = b) :
    ∀ a ∈ ids ++ more, ∀ b ∈ ids ++ more, a = b := by
  intro a ha b hb
  rcases mem_append.mp ha with ha | ha <;> rcases mem_append.mp hb with hb | hb
  · exact hids a ha b hb
  · exact (hmore b hb a ha).symm
  · exact hmore a ha b hb
  · exact hself a ha b hb

omit [PlainCoding] in
lemma single_creates (op : WriteOp) : ∀ a ∈ op.creates, ∀ b ∈ op.creates, a = b := by
  cases op <;> simp [WriteOp.creates]

lemma single_write (op : WriteOp) (hids : ∀ a ∈ db.sessionIds, ∀ b ∈ db.sessionIds, a = b)
    (hown : ∀ id ∈ op.creates, ∀ known ∈ db.sessionIds, id = known) :
    ∀ a ∈ (write cap op db).2.sessionIds, ∀ b ∈ (write cap op db).2.sessionIds, a = b := by
  rcases write_sessionIds cap op db with hsame | hadded
  · rwa [hsame]
  · rw [hadded]
    exact single_append hids hown (single_creates op)

omit [PlainCoding] in
lemma validRows_copies {source childId anchorId : String} {copies : List Append}
    (h : ∀ row ∈ db.actions, row.kind = .request → CarriesValid row.effect)
    (hcopies : planCopies source childId anchorId (db.rows source) = some copies) : ValidRows copies := by
  obtain ⟨nodes, rest, hrows, rfl⟩ := planCopies_some hcopies
  intro copy hcopy hkind
  obtain ⟨node, hnode, rfl⟩ := mem_map.mp hcopy
  have hin : node ∈ db.rows source := by
    rw [hrows]
    exact mem_append_left _ (mem_filter.mp hnode).1
  obtain ⟨request, hvalid, heffect⟩ := h node (mem_filter.mp hin).1 hkind
  refine ⟨request, hvalid, ?_⟩
  rw [← heffect]
  exact remapPayload_get? _ _ (by decide) (by decide)

lemma FileInv.step (h : FileInv recentOpen s) (hstep : RequestFileStep cap recentOpen s event t) : FileInv recentOpen t := by
  have hsystem := h.system.step hstep.step
  cases hstep.step with
  | readRow row owner hrow | readInput row inputId hrow | strike occurrenceId | requeue occurrenceId fireAt => exact { h with system := hsystem }
  | readRequest row requestId request hrow hread =>
    refine { h with system := hsystem, reads := ?_ }
    intro read hmem found hfound
    rcases mem_cons.mp hmem with rfl | hmem
    · obtain rfl : request = some found := hfound
      exact valid_requestById hread
    · exact h.reads read hmem found hfound
  | decide command snapshot requestId hinput hinvocation hrequest hnamed =>
    refine { h with system := hsystem, plans := ?_ }
    intro plan hplan
    rcases mem_cons.mp hplan with rfl | hplan
    · exact ⟨decideRequestTransition_validRows fun current hcurrent => h.reads _ hrequest current hcurrent, snapshot, rfl⟩
    · exact h.plans plan hplan
  | land command decision admission authority now state hdecided hactions hadmission =>
    have hrows : ValidRows (requestCommit command decision admission authority now state).actions :=
      validRows_requestCommit (h.plans _ hdecided).1 admission authority now state
    generalize requestCommit command decision admission authority now state = commit at hrows hsystem ⊢
    have hsingle : ∀ a ∈ (write cap (.commit commit) s.db).2.sessionIds, ∀ b ∈ (write cap (.commit commit) s.db).2.sessionIds,
        a = b := single_write (.commit commit) h.single (by simp [WriteOp.creates])
    have hgrow := write_grows cap (.commit commit) s.db
    exact { h with system := hsystem, single := hsingle, rows := carriesValid_grows hgrow h.rows hrows }
  | other op hforeign =>
    refine { h with system := hsystem, single := ?_, rows := ?_ }
    · exact single_write op h.single (hstep.own op rfl)
    · refine carriesValid_grows (write_grows cap op s.db) h.rows fun a ha hkind => ?_
      have hother := hforeign a ha
      simp [isForeign, hkind] at hother
  | fork parent childId anchorId pointers genesis copies hparent hcopies hgenesis =>
    have hrows : ValidRows (genesis :: copies) := by
      intro a ha hkind
      rcases mem_cons.mp ha with rfl | ha
      · simp [isForeign, hkind] at hgenesis
      · exact validRows_copies h.rows hcopies a ha hkind
    generalize hop : WriteOp.fork ⟨forkedRow childId parent pointers, genesis⟩ copies = op at hsystem ⊢
    have hsubmitted : op.rows = genesis :: copies := by rw [← hop]; rfl
    have hgrow := write_grows cap op {}
    rw [hsubmitted] at hgrow
    have hsingle : ∀ a ∈ (write cap op {}).2.sessionIds, ∀ b ∈ (write cap op {}).2.sessionIds, a = b :=
      single_write op (by simp [Db.sessionIds]) (by simp [Db.sessionIds])
    exact ⟨hsystem, hsingle, carriesValid_grows hgrow (by simp) hrows, by simp, by simp⟩

lemma fileInv_of_reachable (h : Reachable (· = ({} : RequestSystem)) (RequestFileStep cap recentOpen) s) :
    FileInv recentOpen s := by
  refine h.invariant ?_ fun a event b => FileInv.step
  rintro s rfl
  exact ⟨SystemInv.fresh LedgerInv.empty, by simp [Db.sessionIds], by simp, by simp, by simp⟩

lemma reachable_fileWrites (ops : List WriteOp)
    (hs : Reachable (· = ({} : RequestSystem)) (RequestFileStep cap recentOpen) s)
    (hforeign : ∀ op ∈ ops, ∀ a ∈ op.rows, isForeign a = true) (hcreates : ∀ op ∈ ops, op.creates = []) :
    Reachable (· = ({} : RequestSystem)) (RequestFileStep cap recentOpen) { s with db := writes cap ops s.db } := by
  induction ops generalizing s with
  | nil => exact hs
  | cons op ops ih =>
    have hown : ∀ other, RequestEvent.other op = .other other → ∀ id ∈ other.creates, ∀ known ∈ s.db.sessionIds, id = known := by
      intro other heq
      cases heq
      rw [hcreates op mem_cons_self]
      exact nofun
    have hfirst := hs.step ⟨.other op (hforeign op mem_cons_self), hown⟩
    exact ih hfirst (fun other hother => hforeign other (mem_cons_of_mem _ hother))
      fun other hother => hcreates other (mem_cons_of_mem _ hother)

end

end OpenOmni
