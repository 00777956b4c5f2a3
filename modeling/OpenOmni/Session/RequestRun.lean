import OpenOmni.Lib.Run
import OpenOmni.Session.RequestTransition
import OpenOmni.Store.Write

/-! What the constructed alarm rows do to the armed index. -/
namespace OpenOmni
open PlainValue List SessionTransition

@[simp] theorem readId_str (s : String) : readId (.str s) = if s = "" then none else some s := by
  by_cases h : s = "" <;> simp [readId, isId, h, Option.filter]

lemma readId_some {v : PlainValue} {s : String} (h : readId v = some s) : v = .str s := by
  cases v with
  | str t =>
    rw [readId_str] at h
    split at h
    · contradiction
    · rw [Option.some.inj h]
  | _ => simp [readId, asStr] at h

lemma nullable_num (q : Option ℚ) : nullable asNum (ofNullable .num q) = some q := by
  cases q <;> rfl

lemma firedDelta_firedAction {input : Fired} (h : input.occurrenceId ≠ "") :
    armedAlarmDelta (firedAction input) = some (.fired input.occurrenceId) := by
  simp [armedAlarmDelta, armDeltaIntent, firedDeltaIntent, firedAction, get?_record, List.lookup, h]

section
variable [PlainCoding]

lemma occurrenceId_ne_empty (sessionId alarmId : String) (armSeq : ℕ) (sourceKey : String) :
    occurrenceId sessionId alarmId armSeq sourceKey ≠ "" := by
  simp [occurrenceId, canonicalDigest]

lemma armAction_purpose (input : Arm) :
    (armAction input).intent.get? "purpose" = some (.str input.purpose) := by
  simp [armAction, get?_record, List.lookup]

lemma armAction_payload (input : Arm) :
    (armAction input).intent.get? "payload" = some input.payload := by
  simp [armAction, get?_record, List.lookup]

lemma armDelta_armAction {input : Arm} (h : input.alarmId ≠ "") :
    armedAlarmDelta (armAction input) = some (match input.at with
      | none => .retire input.alarmId
      | some fireAt => .upsert input.alarmId input.occurrenceId fireAt) := by
  have hocc : input.occurrenceId ≠ "" := occurrenceId_ne_empty _ _ _ _
  have hintent : armDeltaIntent (armAction input).intent = some (input.alarmId, input.at) := by
    simp [armDeltaIntent, armAction, get?_record, List.lookup, h, nullable_num]
  have heffect : (armAction input).effect.get? "occurrenceId" = some (.str input.occurrenceId) := by
    simp [armAction, get?_record, List.lookup]
  unfold armedAlarmDelta
  rw [hintent]
  cases input.at with
  | none => simp [armAction]
  | some fireAt => simp [heffect, hocc]; rfl

end

structure Attaches (current : Request) (command : Command) (answer : Answer) : Prop where
  payload : command.payload = .answer answer
  state : current.state = .opened
  inTime : max command.at answer.receivedAt < current.deadline
  expected : answer.principal.principalId ∈ current.expectedResponders
  fresh : answer.principal.principalId ∉ current.replies.map (·.responderId)

/-- What a recorded command does to the request it found: the next request, the resolution it
records and whether it closes the request. -/
inductive Moved (current : Request) (command : Command) : Request → Resolution → Bool → Prop
  | unchanged (resolution : Resolution)
      (hclosed : ∀ requestId, command.payload = .timeout requestId → current.state ≠ .opened) :
      Moved current command current resolution false
  | correlated (receipt : DeliveryReceipt) (hpayload : command.payload = .delivery receipt)
      (correlation : Correlation) (bindingDigest : String) :
      Moved current command { current with correlation, bindingDigest } .deliveryRecorded false
  | seen (answer : Answer) (hpayload : command.payload = .answer answer) (resolution : Resolution) :
      Moved current command (withSeenReply current answer.inputId) resolution false
  | late (answer : Answer) (hpayload : command.payload = .answer answer)
      (hstate : current.state = .opened) :
      Moved current command (withSeenReply current answer.inputId).expire .lateUnknown true
  | attached (answer : Answer) (hreply : Attaches current command answer)
      (hshort : current.replies.length + 1 < current.threshold) :
      Moved current command ((withSeenReply current answer.inputId).attach answer) .attached false
  | refused (answer : Answer) (hreply : Attaches current command answer) :
      Moved current command ((withSeenReply current answer.inputId).attach answer).refuse .refused true
  | resolved (answer : Answer) (hreply : Attaches current command answer)
      (hfull : current.threshold ≤ current.replies.length + 1) :
      Moved current command ((withSeenReply current answer.inputId).attach answer).resolve
        .resolved true
  | expired (requestId : String) (hpayload : command.payload = .timeout requestId)
      (hstate : current.state = .opened) (hdue : current.deadline ≤ command.at) :
      Moved current command current.expire .expired true
  | cancelled (requestId : String) (principal : Principal)
      (hpayload : command.payload = .cancel requestId principal)
      (hstate : current.state = .opened) : Moved current command current.cancel .cancelled true

section
variable [PlainCoding] {command : Command} {snapshot : RequestSnapshot} {current : Request}
  {inputDigest : String} {recentOpen : ApprovalRecentOpen}

/-- A decision either writes nothing and leaves the request, or records one move of it. -/
inductive Decided (current : Request) (command : Command) (inputDigest : String) :
    RequestDecision → Prop
  | idle (decision : RequestDecision) (hactions : decision.actions = [])
      (hrequest : decision.request.getD current = current) :
      Decided current command inputDigest decision
  | recorded (next : Request) (resolution : Resolution) (terminal : Bool)
      (hpayload : ∀ request, command.payload ≠ .open request)
      (hmove : Moved current command next resolution terminal) :
      Decided current command inputDigest (recordRequest command next inputDigest resolution terminal)

lemma decided_rejected : Decided current command inputDigest rejected := .idle _ rfl rfl

lemma recordDelivery_decided {receipt : DeliveryReceipt}
    (hpayload : command.payload = .delivery receipt) :
    Decided current command inputDigest (recordDelivery command current receipt inputDigest) := by
  have hopen : ∀ request, command.payload ≠ .open request := by simp [hpayload]
  unfold recordDelivery
  split
  · exact decided_rejected
  · split
    · exact .recorded _ _ _ hopen (.unchanged _ (by simp [hpayload]))
    · exact .recorded _ _ _ hopen (.correlated receipt hpayload _ _)

variable {answer : Answer}

lemma lateAnswer_decided (hpayload : command.payload = .answer answer) :
    Decided current command inputDigest (lateAnswer command current answer inputDigest) := by
  have hopen : ∀ request, command.payload ≠ .open request := by simp [hpayload]
  unfold lateAnswer
  split
  · rename_i hstate
    exact .recorded _ _ _ hopen (.late answer hpayload hstate)
  · exact .recorded _ _ _ hopen (.seen answer hpayload _)

lemma settleReply_decided (hreply : Attaches current command answer) :
    Decided current command inputDigest (settleReply command
      ((withSeenReply current answer.inputId).attach answer) answer inputDigest) := by
  have hopen : ∀ request, command.payload ≠ .open request := by simp [hreply.payload]
  have hlength : ((withSeenReply current answer.inputId).attach answer).replies.length =
      current.replies.length + 1 := by
    simp [withSeenReply, Request.attach]
  unfold settleReply
  split
  · exact .recorded _ _ _ hopen (.refused answer hreply)
  · split
    · rename_i hfull
      rw [hlength] at hfull
      exact .recorded _ _ _ hopen (.resolved answer hreply hfull)
    · rename_i hshort
      rw [hlength] at hshort
      exact .recorded _ _ _ hopen (.attached answer hreply (Nat.lt_of_not_le hshort))

lemma attachAnswer_decided (hpayload : command.payload = .answer answer)
    (htime : max command.at answer.receivedAt < current.deadline)
    (hexpected : answer.principal.principalId ∈ current.expectedResponders) :
    Decided current command inputDigest (attachAnswer command current answer inputDigest) := by
  have hopen : ∀ request, command.payload ≠ .open request := by simp [hpayload]
  unfold attachAnswer
  simp only
  split
  · exact .recorded _ _ _ hopen (.seen answer hpayload _)
  · rename_i hguard
    simp only [Bool.or_eq_true, decide_eq_true_eq, not_or, not_not, any_eq_true, not_exists,
      not_and] at hguard
    obtain ⟨⟨hstate, -⟩, hresponder⟩ := hguard
    refine settleReply_decided ⟨hpayload, hstate, htime, hexpected, ?_⟩
    intro hmem
    obtain ⟨reply, hreply, hid⟩ := mem_map.mp hmem
    exact hresponder reply hreply hid

lemma answerRequest_decided (hpayload : command.payload = .answer answer) :
    Decided current command inputDigest (answerRequest command snapshot current answer inputDigest) := by
  have hopen : ∀ request, command.payload ≠ .open request := by simp [hpayload]
  unfold answerRequest
  split
  · exact decided_rejected
  · split
    · exact lateAnswer_decided hpayload
    · rename_i htime
      split
      · exact .recorded _ _ _ hopen (.unchanged _ (by simp [hpayload]))
      · rename_i hbinding
        simp only [answerBindingMatches, Bool.not_eq_true', Bool.not_eq_false, Bool.and_eq_true,
          contains_iff_mem] at hbinding
        exact attachAnswer_decided hpayload (lt_of_not_ge htime) (by tauto)

lemma transition_decided (hrequest : snapshot.request = some current) :
    Decided current command inputDigest (transition command snapshot inputDigest recentOpen) := by
  unfold transition
  rw [hrequest]
  cases hpayload : command.payload with
  | «open» next =>
    simp [openRequest, admitsOpen, hrequest]
    exact decided_rejected
  | answer answer =>
    simp only
    split
    · exact decided_rejected
    · exact answerRequest_decided hpayload
  | delivery receipt =>
    simp only
    split
    · exact decided_rejected
    · exact recordDelivery_decided hpayload
  | timeout requestId =>
    have hopen : ∀ request, command.payload ≠ .open request := by simp [hpayload]
    simp only
    split
    · exact decided_rejected
    split
    · rename_i hclosed
      exact .recorded _ _ _ hopen (.unchanged _ fun _ _ => by simpa using hclosed)
    · rename_i hstate
      unfold expireRequest
      split
      · exact decided_rejected
      · rename_i hdue
        exact .recorded _ _ _ hopen
          (.expired requestId hpayload (not_not.mp hstate) (le_of_not_gt hdue))
  | cancel requestId principal =>
    have hopen : ∀ request, command.payload ≠ .open request := by simp [hpayload]
    simp only
    split
    · exact decided_rejected
    split
    · exact .recorded _ _ _ hopen (.unchanged _ (by simp [hpayload]))
    · rename_i hstate
      unfold cancelRequest
      split
      · exact .recorded _ _ _ hopen (.unchanged _ (by simp [hpayload]))
      · exact .recorded _ _ _ hopen (.cancelled requestId principal hpayload (not_not.mp hstate))

theorem decideRequestTransition_decided (hrequest : snapshot.request = some current) :
    Decided current command (requestInputDigest command.payload)
      (decideRequestTransition command snapshot recentOpen) := by
  unfold decideRequestTransition
  split
  · exact decided_rejected
  · simp only
    unfold repeatedInput
    cases snapshot.inputRecord with
    | none => exact transition_decided hrequest
    | some previous =>
      simp only [Option.map_some, Option.getD_some]
      split
      · exact decided_rejected
      · unfold replayedInput
        split
        · exact decided_rejected
        · split
          · exact decided_rejected
          · exact .idle _ rfl (by simp [hrequest])

end

structure SameTerms (opened current : Request) : Prop where
  requestId : current.requestId = opened.requestId
  deadline : current.deadline = opened.deadline
  expectedResponders : current.expectedResponders = opened.expectedResponders
  threshold : current.threshold = opened.threshold

lemma SameTerms.refl (request : Request) : SameTerms request request := ⟨rfl, rfl, rfl, rfl⟩

/-- Replies come from distinct expected responders, at most as many as the threshold asks for, and
exactly that many once resolved. -/
structure QuorumInv (request : Request) : Prop where
  distinct : (request.replies.map (·.responderId)).Nodup
  expected : ∀ reply ∈ request.replies, reply.responderId ∈ request.expectedResponders
  bounded : request.replies.length ≤ request.threshold
  short : request.state = .opened → request.replies.length < request.threshold
  full : request.state = .resolved → request.replies.length = request.threshold
  seenNodup : request.seenReplyIds.Nodup

variable {current next opened : Request} {command : Command} {resolution : Resolution}
  {terminal : Bool}

@[simp] theorem withSeenReply_replies (request : Request) (inputId : String) :
    (withSeenReply request inputId).replies = request.replies := rfl

@[simp] theorem attach_replies (request : Request) (answer : Answer) :
    (request.attach answer).replies = request.replies ++ [replyOf answer] := rfl

section
variable (h : Moved current command next resolution terminal)
include h

lemma Moved.sameTerms (hc : SameTerms opened current) : SameTerms opened next := by
  have hsame : SameTerms current next := by
    cases h <;> constructor <;> simp only [withSeenReply, Request.attach, Request.expire, Request.refuse, Request.resolve,
      Request.cancel]
  exact ⟨hsame.requestId.trans hc.requestId, hsame.deadline.trans hc.deadline,
    hsame.expectedResponders.trans hc.expectedResponders, hsame.threshold.trans hc.threshold⟩

/-- A move closes exactly the open requests it is terminal for, and never touches the state or the
outcome of a closed one. -/
theorem Moved.state : if terminal then current.state = .opened ∧ next.state ≠ .opened
    else next.state = current.state ∧ next.outcome = current.outcome := by
  cases h with
  | unchanged | correlated | seen | attached answer hreply hshort => exact ⟨rfl, rfl⟩
  | late answer hpayload hstate | expired requestId hpayload hstate hdue => exact ⟨hstate, by simp [Request.expire]⟩
  | refused answer hreply => exact ⟨hreply.state, by simp [Request.refuse]⟩
  | resolved answer hreply hfull => exact ⟨hreply.state, by simp [Request.resolve]⟩
  | cancelled requestId principal hpayload hstate => exact ⟨hstate, by simp [Request.cancel]⟩

theorem Moved.replies : next.replies = current.replies ∨
      ∃ answer, Attaches current command answer ∧
        next.replies = current.replies ++ [replyOf answer] := by
  cases h with
  | unchanged | correlated | seen | late | expired | cancelled => exact .inl rfl
  | attached answer hreply hshort | refused answer hreply | resolved answer hreply hfull => exact .inr ⟨answer, hreply, rfl⟩

lemma Moved.seenReplyIds : next.seenReplyIds = current.seenReplyIds ∨
      ∃ inputId, next.seenReplyIds = Ordered.ofList (current.seenReplyIds ++ [inputId]) := by
  cases h with
  | unchanged | correlated | expired | cancelled => exact .inl rfl
  | seen answer | late answer | attached answer | refused answer | resolved answer => exact .inr ⟨answer.inputId, rfl⟩

theorem Moved.replyCount (hc : QuorumInv current) :
    (next.state = .opened → next.replies.length < next.threshold) ∧
      (next.state = .resolved → next.replies.length = next.threshold) := by
  cases h with
  | unchanged | correlated | seen => exact ⟨hc.short, hc.full⟩
  | late | expired => simp [Request.expire]
  | attached answer hreply hshort =>
    have hstate : ((withSeenReply current answer.inputId).attach answer).state = .opened := hreply.state
    refine ⟨fun _ => ?_, fun hresolved => ?_⟩
    · simpa [withSeenReply, Request.attach] using hshort
    · rw [hstate] at hresolved
      contradiction
  | refused => simp [Request.refuse]
  | resolved answer hreply hfull =>
    have hshort := hc.short hreply.state
    refine ⟨by simp [Request.resolve], fun _ => ?_⟩
    simp only [Request.resolve, attach_replies, withSeenReply_replies, length_append,
      length_singleton]
    change current.replies.length + 1 = current.threshold
    omega
  | cancelled => simp [Request.cancel]

lemma Moved.quorumInv (hc : QuorumInv current) : QuorumInv next := by
  obtain ⟨-, -, hexpected, hthreshold⟩ := h.sameTerms (SameTerms.refl current)
  obtain ⟨hshort, hfull⟩ := h.replyCount hc
  have hseen : next.seenReplyIds.Nodup := by
    rcases h.seenReplyIds with hids | ⟨inputId, hids⟩
    · rw [hids]
      exact hc.seenNodup
    · rw [hids]
      exact Ordered.nodup_ofList _
  rcases h.replies with hreplies | ⟨answer, hreply, hreplies⟩
  · refine ⟨?_, ?_, ?_, hshort, hfull, hseen⟩
    · rw [hreplies]
      exact hc.distinct
    · rw [hreplies, hexpected]
      exact hc.expected
    · rw [hreplies, hthreshold]
      exact hc.bounded
  · have hcount := hc.short hreply.state
    refine ⟨?_, ?_, ?_, hshort, hfull, hseen⟩
    · rw [hreplies, map_append, nodup_append]
      refine ⟨hc.distinct, nodup_singleton _, ?_⟩
      rintro a ha b hb rfl
      obtain rfl := mem_singleton.mp hb
      exact hreply.fresh ha
    · intro reply hmem
      rw [hreplies] at hmem
      rw [hexpected]
      rcases mem_append.mp hmem with hmem | hmem
      · exact hc.expected reply hmem
      · obtain rfl := mem_singleton.mp hmem
        exact hreply.expected
    · rw [hreplies, hthreshold, length_append, length_singleton]
      omega

end

variable {requestId : String}

section
variable (h : Moved current command next resolution terminal) (hpayload : command.payload = .timeout requestId)
include h hpayload

theorem Moved.timeout : next.state ≠ .opened := by
  cases h with
  | unchanged _ hclosed => exact hclosed requestId hpayload
  | expired => simp [Request.expire]
  | cancelled => simp [Request.cancel]
  | late answer hanswer | seen answer hanswer => simp [hpayload] at hanswer
  | correlated receipt hreceipt => simp [hpayload] at hreceipt
  | attached answer hreply | refused answer hreply | resolved answer hreply => simp [hreply.payload] at hpayload

theorem Moved.early (hearly : command.at < current.deadline) :
    next.state = current.state := by
  cases h with
  | unchanged | correlated | seen | attached answer hreply => rfl
  | late answer hanswer => simp [hpayload] at hanswer
  | refused answer hreply | resolved answer hreply =>
    have hanswer := hreply.payload
    simp [hpayload] at hanswer
  | expired _ _ _ hdue => exact absurd hearly (not_lt.mpr hdue)
  | cancelled _ _ hcancel => simp [hpayload] at hcancel

end

def resolutionRows (requestId : String) (actions : List Append) : ℕ :=
  actions.countP (·.id = requestId ++ ":resolution")

def retiringArms (requestId : String) (actions : List Append) : ℕ :=
  actions.countP fun action =>
    armedAlarmDelta action = some (.retire (deadlineAlarmId requestId))

lemma inputId_ne_resolution (requestId inputId : String) :
    requestId ++ ":input:" ++ inputId ≠ requestId ++ ":resolution" := by
  rw [String.append_assoc, Ne, String.append_right_inj]
  intro h
  have htext := congrArg String.toList h
  simp at htext

lemma armId_ne_resolution (requestId : String) (armSeq : ℕ) :
    deadlineAlarmId requestId ++ ":arm:" ++ toString armSeq ≠ requestId ++ ":resolution" := by
  rw [deadlineAlarmId, String.append_assoc, String.append_assoc, Ne, String.append_right_inj]
  intro h
  have htext := congrArg String.toList h
  simp at htext

lemma deadlineAlarmId_ne_empty (requestId : String) : deadlineAlarmId requestId ≠ "" := by
  simp [deadlineAlarmId]

lemma armedAlarmDelta_of_request {action : Append} (h : action.kind = .request) :
    armedAlarmDelta action = none := by
  simp [armedAlarmDelta, h]

section
variable [PlainCoding]

lemma resolutionRows_recordRequest (command : Command) (request : Request) (inputDigest : String)
    (resolution : Resolution) (terminal : Bool) :
    resolutionRows request.requestId
      (recordRequest command request inputDigest resolution terminal).actions =
        if terminal then 1 else 0 := by
  have harms : ∀ a ∈ deadlineArms command request terminal,
      a.id ≠ request.requestId ++ ":resolution" := by
    intro a ha
    unfold deadlineArms at ha
    split at ha
    · obtain rfl := mem_singleton.mp ha
      exact armId_ne_resolution request.requestId 1
    · split at ha
      · obtain rfl := mem_singleton.mp ha
        exact armId_ne_resolution request.requestId 2
      · simp at ha
  have hcount : (deadlineArms command request terminal).countP
      (·.id = request.requestId ++ ":resolution") = 0 := by
    simpa using harms
  have hinput := inputId_ne_resolution request.requestId command.inputId
  cases terminal <;>
    simp [resolutionRows, recordRequest, inputRecord, resolutionRecord, hcount, hinput]

lemma retiringArms_recordRequest (request : Request) (inputDigest : String)
    (resolution : Resolution) (terminal : Bool) (hopen : ∀ next, command.payload ≠ .open next) :
    retiringArms request.requestId
      (recordRequest command request inputDigest resolution terminal).actions =
        if terminal then 1 else 0 := by
  have hinput : armedAlarmDelta (inputRecord command request inputDigest resolution) = none :=
    armedAlarmDelta_of_request rfl
  have hresolution : armedAlarmDelta (resolutionRecord command request resolution) = none :=
    armedAlarmDelta_of_request rfl
  have hretire : armedAlarmDelta (armAction (deadlineRetire command request)) =
      some (.retire (deadlineAlarmId request.requestId)) :=
    armDelta_armAction (deadlineAlarmId_ne_empty request.requestId)
  have harms : deadlineArms command request terminal =
      if terminal then [armAction (deadlineRetire command request)] else [] := by
    unfold deadlineArms
    split
    · rename_i next hpayload
      exact (hopen next hpayload).elim
    · rfl
  simp only [retiringArms, recordRequest, harms]
  cases terminal
  · simp [hinput]
  · simp [hinput, hresolution, hretire]

structure RequestRun where
  request : Request
  emitted : List Append

/-- One command decided on the current request; a decision without a request leaves it. -/
def RequestStep (recentOpen : ApprovalRecentOpen) (s : RequestRun)
    (input : Command × RequestSnapshot) (t : RequestRun) : Prop :=
  let decision := decideRequestTransition input.1 { input.2 with request := some s.request } recentOpen
  t = ⟨decision.request.getD s.request, s.emitted ++ decision.actions⟩

structure RunInv (opened : Request) (s : RequestRun) : Prop where
  terms : SameTerms opened s.request
  quorum : QuorumInv s.request
  resolution : resolutionRows opened.requestId s.emitted =
    if s.request.state = .opened then 0 else 1
  retired : retiringArms opened.requestId s.emitted = if s.request.state = .opened then 0 else 1

variable {recentOpen : ApprovalRecentOpen} {s t : RequestRun} {input : Command × RequestSnapshot}

section
variable (h : RequestStep recentOpen s input t)
include h

lemma RequestStep.decided : (t.request = s.request ∧ t.emitted = s.emitted) ∨
      ∃ inputDigest resolution terminal, (∀ next, input.1.payload ≠ .open next) ∧
        Moved s.request input.1 t.request resolution terminal ∧
        t.emitted = s.emitted ++
          (recordRequest input.1 t.request inputDigest resolution terminal).actions := by
  have hdecided : Decided s.request input.1 (requestInputDigest input.1.payload)
      (decideRequestTransition input.1 { input.2 with request := some s.request } recentOpen) :=
    decideRequestTransition_decided rfl
  simp only [RequestStep] at h
  revert h
  generalize decideRequestTransition input.1 { input.2 with request := some s.request } recentOpen =
    decision at hdecided
  rintro rfl
  cases hdecided with
  | idle _ hactions hrequest => exact .inl ⟨hrequest, by simp [hactions]⟩
  | recorded next resolution terminal hopen hmove =>
    exact .inr ⟨_, resolution, terminal, hopen, hmove, rfl⟩

lemma RequestStep.runInv (hs : RunInv opened s) :
    RunInv opened t := by
  rcases h.decided with ⟨hrequest, hemitted⟩ | ⟨inputDigest, resolution, terminal, hopen, hmove, hemitted⟩
  · obtain ⟨request, emitted⟩ := t
    simp only at hrequest hemitted
    subst hrequest hemitted
    exact hs
  · have hterms := hmove.sameTerms hs.terms
    have hstate := hmove.state
    refine ⟨hterms, hmove.quorumInv hs.quorum, ?_, ?_⟩
    · have hrows := resolutionRows_recordRequest input.1 t.request inputDigest resolution terminal
      have hbefore := hs.resolution
      rw [hterms.requestId] at hrows
      simp only [resolutionRows] at hrows hbefore ⊢
      rw [hemitted, countP_append, hbefore, hrows]
      cases terminal
      · simp_all
      · simp_all
    · have hrows := retiringArms_recordRequest t.request inputDigest resolution terminal hopen
      have hbefore := hs.retired
      rw [hterms.requestId] at hrows
      simp only [retiringArms] at hrows hbefore ⊢
      rw [hemitted, countP_append, hbefore, hrows]
      cases terminal
      · simp_all
      · simp_all

theorem RequestStep.closed (hs : s.request.state ≠ .opened) :
    t.request.state = s.request.state ∧ t.request.outcome = s.request.outcome := by
  rcases h.decided with ⟨hrequest, -⟩ | ⟨inputDigest, resolution, terminal, -, hmove, -⟩
  · simp [hrequest]
  · have hstate := hmove.state
    cases terminal
    · simpa using hstate
    · exact (hs hstate.1).elim

lemma RequestStep.early {requestId : String}
    (hpayload : input.1.payload = .timeout requestId) (hearly : input.1.at < s.request.deadline) :
    t.request.state = s.request.state := by
  rcases h.decided with ⟨hrequest, -⟩ | ⟨inputDigest, resolution, terminal, -, hmove, -⟩
  · rw [hrequest]
  · exact hmove.early hpayload hearly

end

theorem replies_inTime {trace : List (RequestRun × Command × RequestSnapshot)}
    (h : Transition.Run (RequestStep recentOpen) s trace t) (hs : SameTerms opened s.request)
    (hfresh : s.request.replies = []) :
    ∀ reply ∈ t.request.replies, ∃ e ∈ trace, ∃ answer, e.2.1.payload = .answer answer ∧
      reply = replyOf answer ∧ max e.2.1.at answer.receivedAt < opened.deadline := by
  induction h with
  | nil => simp [hfresh]
  | @snoc trace u v input run step ih =>
    have hterms : SameTerms opened u.request := by
      refine run.preserves (P := fun a => SameTerms opened a.request) hs ?_
      intro a l b ha hab
      rcases hab.decided with ⟨hrequest, -⟩ | ⟨_, _, _, -, hmove, -⟩
      · rw [hrequest]
        exact ha
      · exact hmove.sameTerms ha
    intro reply hreply
    have hold : reply ∈ u.request.replies → ∃ e ∈ trace ++ [(u, input)], ∃ answer,
        e.2.1.payload = .answer answer ∧ reply = replyOf answer ∧
          max e.2.1.at answer.receivedAt < opened.deadline := by
      intro hmem
      obtain ⟨e, he, answer, hanswer⟩ := ih reply hmem
      exact ⟨e, mem_append_left _ he, answer, hanswer⟩
    rcases step.decided with ⟨hrequest, -⟩ | ⟨_, _, _, -, hmove, -⟩
    · rw [hrequest] at hreply
      exact hold hreply
    · rcases hmove.replies with hreplies | ⟨answer, hattach, hreplies⟩
      · rw [hreplies] at hreply
        exact hold hreply
      · rw [hreplies] at hreply
        rcases mem_append.mp hreply with hmem | hmem
        · exact hold hmem
        · obtain rfl := mem_singleton.mp hmem
          have htime := hattach.inTime
          rw [hterms.deadline] at htime
          exact ⟨(u, input), mem_append_right _ (mem_singleton.mpr rfl), answer,
            hattach.payload, rfl, htime⟩

variable {snapshot : RequestSnapshot}

section
variable (hopen : command.payload = .open opened)
  (haccept : (decideRequestTransition command snapshot recentOpen).actions ≠ [])
include hopen haccept

theorem openRequest_accepted : opened.valid = true ∧ freshRequestShape opened = true ∧
      (decideRequestTransition command snapshot recentOpen).request = some opened ∧
      (decideRequestTransition command snapshot recentOpen).actions =
        [inputRecord command opened (requestInputDigest command.payload) .opened,
          armAction (deadlineArm command opened)] := by
  unfold decideRequestTransition at haccept ⊢
  split at haccept
  · simp [rejected] at haccept
  rename_i hguard
  rw [if_neg hguard]
  simp only [Bool.or_eq_true, not_or, Bool.not_eq_true', Bool.not_eq_false] at hguard
  have hvalid : opened.valid = true := by
    have hcommand := hguard.1
    simp only [Command.valid, hopen, Payload.valid, Bool.and_eq_true] at hcommand
    exact hcommand.2
  simp only at haccept ⊢
  unfold repeatedInput at haccept ⊢
  cases hinput : snapshot.inputRecord with
  | some previous =>
    simp only [hinput, Option.map_some, Option.getD_some] at haccept
    split at haccept
    · simp [rejected] at haccept
    unfold replayedInput at haccept
    split at haccept
    · simp [rejected] at haccept
    split at haccept
    · simp [rejected] at haccept
    · simp at haccept
  | none =>
    simp only [hinput, Option.map_none, Option.getD_none, transition, hopen, openRequest] at haccept ⊢
    split at haccept
    · simp [rejected] at haccept
    rename_i hadmitted
    rw [if_neg hadmitted]
    simp only [Bool.or_eq_true, not_or, Bool.not_eq_true', Bool.not_eq_false, admitsOpen,
      Bool.and_eq_true] at hadmitted
    exact ⟨hvalid, hadmitted.2.1.1.2, rfl, by simp [recordRequest, deadlineArms, hopen]⟩

theorem openRequest_runInv : opened.replies = [] ∧
      RunInv opened ⟨opened, (decideRequestTransition command snapshot recentOpen).actions⟩ := by
  obtain ⟨hvalid, hshape, -, hactions⟩ := openRequest_accepted hopen haccept
  simp only [freshRequestShape, Bool.and_eq_true, decide_eq_true_eq, length_eq_zero_iff] at hshape
  obtain ⟨⟨⟨hstate, -⟩, hseen⟩, hreplies⟩ := hshape
  have hthreshold : 0 < opened.threshold := by
    simp only [Request.valid, Request.validFields, Bool.and_eq_true, decide_eq_true_eq] at hvalid
    tauto
  have hrows := resolutionRows_recordRequest command opened (requestInputDigest command.payload)
    .opened false
  have harm : armedAlarmDelta (armAction (deadlineArm command opened)) =
      some (.upsert (deadlineAlarmId opened.requestId) (deadlineArm command opened).occurrenceId
        opened.deadline) := armDelta_armAction (deadlineAlarmId_ne_empty opened.requestId)
  have hinput : armedAlarmDelta (inputRecord command opened (requestInputDigest command.payload)
      .opened) = none := armedAlarmDelta_of_request rfl
  refine ⟨hreplies, SameTerms.refl opened, ⟨?_, ?_, ?_, ?_, ?_, ?_⟩, ?_, ?_⟩
  · simp [hreplies]
  · simp [hreplies]
  · simp [hreplies]
  · simp [hreplies, hthreshold]
  · simp [hstate]
  · simp [hseen]
  · simpa [hactions, hstate, recordRequest, deadlineArms, hopen] using hrows
  · simp [hactions, hstate, retiringArms, harm, hinput]

end

/-- A request over every run of commands after its accepted open: once closed, its state and outcome
stay; its resolution record and the retiring arm of its deadline are emitted once if it closes and
never otherwise; its replies are in quorum and came in time; no early timeout closes it. -/
theorem request_run_safe (recentOpen : ApprovalRecentOpen) (command : Command)
    (snapshot : RequestSnapshot) (opened : Request) (hopen : command.payload = .open opened)
    (haccept : (decideRequestTransition command snapshot recentOpen).actions ≠ [])
    (trace : List (RequestRun × Command × RequestSnapshot)) (final : RequestRun)
    (hrun : Transition.Run (RequestStep recentOpen)
      ⟨opened, (decideRequestTransition command snapshot recentOpen).actions⟩ trace final) :
    (decideRequestTransition command snapshot recentOpen).request = some opened ∧
      (∀ e ∈ trace, e.1.request.state ≠ .opened →
        final.request.state = e.1.request.state ∧ final.request.outcome = e.1.request.outcome) ∧
      (resolutionRows opened.requestId final.emitted =
          (if final.request.state = .opened then 0 else 1) ∧
        retiringArms opened.requestId final.emitted =
          if final.request.state = .opened then 0 else 1) ∧
      ((final.request.replies.map (·.responderId)).Nodup ∧
        (∀ reply ∈ final.request.replies, reply.responderId ∈ final.request.expectedResponders) ∧
        final.request.replies.length ≤ final.request.threshold ∧
        final.request.seenReplyIds.Nodup ∧
        (final.request.state = .resolved →
          final.request.replies.length = final.request.threshold)) ∧
      (∀ reply ∈ final.request.replies, ∃ e ∈ trace, ∃ answer, e.2.1.payload = .answer answer ∧
        reply = replyOf answer ∧ max e.2.1.at answer.receivedAt < opened.deadline) ∧
      ∀ input next requestId, RequestStep recentOpen final input next →
        input.1.payload = .timeout requestId → input.1.at < opened.deadline →
          next.request.state = final.request.state := by
  obtain ⟨hreplies, hstart⟩ := openRequest_runInv hopen haccept
  have hfinal : RunInv opened final := hrun.preserves hstart fun _ _ _ ha hstep => hstep.runInv ha
  refine ⟨(openRequest_accepted hopen haccept).2.2.1, ?_, ⟨hfinal.resolution, hfinal.retired⟩,
    ⟨hfinal.quorum.distinct, hfinal.quorum.expected, hfinal.quorum.bounded,
      hfinal.quorum.seenNodup, hfinal.quorum.full⟩,
    replies_inTime hrun (SameTerms.refl opened) hreplies, ?_⟩
  · intro e he hclosed
    obtain ⟨rest, hrest⟩ := hrun.since he
    have hkept := hrest.preserves (P := fun a => a.request.state = e.1.request.state ∧
      a.request.outcome = e.1.request.outcome) ⟨rfl, rfl⟩ (by
        rintro a l b ⟨hstate, houtcome⟩ hab
        obtain ⟨hstate', houtcome'⟩ := hab.closed (hstate ▸ hclosed)
        exact ⟨hstate'.trans hstate, houtcome'.trans houtcome⟩)
    exact hkept
  · intro input next requestId hstep hpayload hearly
    exact hstep.early hpayload (hfinal.terms.deadline ▸ hearly)

end

namespace RequestSample

/-- A session under owner `o` at fence 1 and revision 3. -/
def row : Row where
  toolsGeneration := 1
  systemHash := "system"
  policyGeneration := 1
  id := "s"
  parentId := none
  role := .resident
  fenceOwner := some "o"
  fence := 1
  revision := 3
  state := .running

def invocation : Node where
  id := "r"
  parentId := none
  sessionId := "s"
  kind := .tool
  intent := .record [("phase", some (.str "intent")), ("value", some .null),
    ("effectHash", some (.str "effect"))]
  effect := .null
  ts := 0
  ordinal := 2

/-- An answer request due at 10 from the one responder `a`. -/
def request : Request :=
  let unbound : Request := {
    requestId := "r", sessionId := "s", turnId := none, callId := "r", mode := .answer,
    parsedInput := .null, inputHash := @canonicalDigest textCoding .null, effectHash := "effect",
    generation := 1, toolsGeneration := 1, toolsHash := "tools", systemHash := "system",
    domainRevisions := [], deadline := 10, expectedResponders := ["a"], correlation := {},
    allowedActions := [.reportResult], bindingDigest := "", resolution := .first, threshold := 1,
    seenReplyIds := [], replies := [], state := .opened, outcome := none, createdAt := 1 }
  { unbound with bindingDigest := @requestBindingDigest textCoding unbound }

def openCommand : Command where
  inputId := "r:open"
  sessionId := "s"
  «at» := 1
  expectedRevision := 3
  authority := ⟨"o", 1⟩
  payload := .open request

def openSnapshot : RequestSnapshot := { row, invocation := some invocation }

def timeoutCommand : Command := { openCommand with
  inputId := "r:deadline", «at» := 10, expectedRevision := 5, payload := .timeout "r" }

def timeoutSnapshot : RequestSnapshot := { row := { row with revision := 5 } }

def recentOpen : ApprovalRecentOpen := ⟨5, 60000⟩

attribute [local instance] textCoding

/-- The request and its rows after the open and a timeout at the deadline. -/
def timedOut : RequestRun :=
  let opening := decideRequestTransition openCommand openSnapshot recentOpen
  let decision := decideRequestTransition timeoutCommand
    { timeoutSnapshot with request := some request } recentOpen
  ⟨decision.request.getD request, opening.actions ++ decision.actions⟩

lemma timedOut_step : RequestStep recentOpen
    ⟨request, (decideRequestTransition openCommand openSnapshot recentOpen).actions⟩
    (timeoutCommand, timeoutSnapshot) timedOut := by
  simp only [RequestStep, timedOut]

theorem request_run_timedOut :
    (resolutionRows "r" timedOut.emitted = (if timedOut.request.state = .opened then 0 else 1) ∧
      retiringArms "r" timedOut.emitted = if timedOut.request.state = .opened then 0 else 1) ∧
      timedOut.request.state = .expired := by
  have hsafe := request_run_safe recentOpen openCommand openSnapshot request rfl
    (by decide +kernel) _ timedOut (Transition.Run.nil.snoc timedOut_step)
  exact ⟨hsafe.2.2.1, by decide⟩

end RequestSample

end OpenOmni
