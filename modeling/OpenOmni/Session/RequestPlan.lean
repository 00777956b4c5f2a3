import OpenOmni.Session.RequestRun

/-! What a request decision with rows plans: which request it records, and where it found it. -/
namespace OpenOmni

open SessionTransition PlainValue

/-- Where the recorded request comes from: a command opens it for an invocation, or moves the one
that was read. -/
inductive Origin (command : Command) (snapshot : RequestSnapshot) (request : Request)
    (resolution : Resolution) (terminal : Bool) : Prop
  | opened (node : Node) (hpayload : command.payload = .open request)
      (hunknown : snapshot.request = none) (hstate : request.state = .opened)
      (hsession : request.sessionId = snapshot.row.id) (hterminal : terminal = false)
      (hnode : snapshot.invocation = some node) (hid : node.id = request.requestId)
      (hphase : node.intent.get? "phase" = some (.str "intent"))
  | moved (current : Request) (hpayload : ∀ next, command.payload ≠ .open next)
      (hcurrent : snapshot.request = some current) (hid : current.requestId = request.requestId)
      (hsession : current.sessionId = snapshot.row.id)
      (hmove : Moved current command request resolution terminal)

structure Records [PlainCoding] (command : Command) (snapshot : RequestSnapshot)
    (decision : RequestDecision) (request : Request) (resolution : Resolution) (terminal : Bool) :
    Prop where
  valid : command.valid = true
  owns : ownsRequestRevision command snapshot.row = true
  unrecorded : snapshot.inputRecord = none
  actions : decision.actions =
    (recordRequest command request (requestInputDigest command.payload) resolution terminal).actions
  receive : decision.receive = receivingIntake command request resolution
  target : request.requestId = targetRequestId command.payload
  origin : Origin command snapshot request resolution terminal

lemma recordedInvocation_phase {original : Option Node} {sessionId : String} {intent : PlainValue}
    (h : recordedInvocation original sessionId = some intent) :
    ∃ node, original = some node ∧ node.intent.get? "phase" = some (.str "intent") := by
  obtain ⟨node, rfl, h⟩ := Option.bind_eq_some_iff.mp h
  obtain ⟨-, -, h⟩ := Option.bind_eq_some_iff.mp h
  obtain ⟨value, hvalue, h⟩ := Option.bind_eq_some_iff.mp h
  obtain ⟨_, hphase, -⟩ := Option.bind_eq_some_iff.mp h
  have hvalue' : value = node.intent := by
    cases hintent : node.intent <;> simp_all [objectValue]
  refine ⟨node, rfl, ?_⟩
  rw [← hvalue']
  by_contra hne
  simp [hne] at hphase

section
variable [PlainCoding] {command : Command} {snapshot : RequestSnapshot} {inputDigest : String}
  {recentOpen : ApprovalRecentOpen}

lemma openRequest_records {next : Request} (hpayload : command.payload = .open next)
    (h : (openRequest command snapshot next inputDigest recentOpen).actions ≠ []) :
    (openRequest command snapshot next inputDigest recentOpen).actions =
        (recordRequest command next inputDigest .opened).actions ∧
      (openRequest command snapshot next inputDigest recentOpen).receive =
        receivingIntake command next .opened ∧ Origin command snapshot next .opened false := by
  simp only [openRequest] at h ⊢
  split at h
  · simp [rejected] at h
  · rename_i hguard
    rw [if_neg hguard]
    simp only [Bool.or_eq_true, not_or, Bool.not_eq_true', Bool.not_eq_false] at hguard
    have hadmits := hguard.2
    simp only [admitsOpen, freshRequestShape, Bool.and_eq_true, Option.isNone_iff_eq_none,
      decide_eq_true_eq] at hadmits
    obtain ⟨⟨⟨⟨⟨hunknown, horiginal⟩, hsession⟩, ⟨⟨hstate, -⟩, -⟩, -⟩, -⟩, -⟩ := hadmits
    refine ⟨rfl, rfl, ?_⟩
    unfold originalInvocationMatches at horiginal
    split at horiginal
    · contradiction
    · rename_i intent hintent
      obtain ⟨node, hnode, hphase⟩ := recordedInvocation_phase hintent
      split at horiginal
      · contradiction
      · simp only [Bool.and_eq_true, hnode, Option.any_some, decide_eq_true_eq] at horiginal
        obtain ⟨⟨⟨⟨hid, -⟩, -⟩, -⟩, -⟩ := horiginal
        exact .opened node hpayload hunknown hstate hsession rfl hnode hid hphase

theorem transition_targets (hpayload : ∀ request, command.payload ≠ .open request)
    (h : (transition command snapshot inputDigest recentOpen).actions ≠ []) :
    ∃ current, snapshot.request = some current ∧
      current.requestId = targetRequestId command.payload ∧ current.sessionId = snapshot.row.id := by
  unfold transition at h
  cases hcommand : command.payload with
  | «open» request => exact absurd hcommand (hpayload request)
  | _ =>
    rw [hcommand] at h
    cases hrequest : snapshot.request with
    | none => simp [hrequest, rejected] at h
    | some current =>
      simp only [hrequest] at h
      split at h
      · simp [rejected] at h
      · rename_i htargets
        simp only [targets, Bool.not_eq_true', Bool.not_eq_false, Bool.and_eq_true,
          decide_eq_true_eq] at htargets
        exact ⟨current, rfl, htargets.1, htargets.2⟩

lemma decideRequestTransition_records
    (h : (decideRequestTransition command snapshot recentOpen).actions ≠ []) :
    ∃ request resolution terminal, Records command snapshot
      (decideRequestTransition command snapshot recentOpen) request resolution terminal := by
  have hguard : (!command.valid || !ownsRequestRevision command snapshot.row) = false := by
    cases hrefused : !command.valid || !ownsRequestRevision command snapshot.row with
    | false => rfl
    | true =>
      rw [decideRequestTransition, if_pos hrefused] at h
      exact absurd rfl h
  obtain ⟨hvalid, howns⟩ : command.valid = true ∧ ownsRequestRevision command snapshot.row = true := by
    simpa using hguard
  have hunrecorded : snapshot.inputRecord = none := by
    cases hrecord : snapshot.inputRecord with
    | none => rfl
    | some previous =>
      exfalso
      apply h
      simp only [decideRequestTransition, hguard, repeatedInput, hrecord, Option.map_some,
        Option.getD_some, Bool.false_eq_true, if_false]
      split
      · rfl
      · unfold replayedInput
        split
        · rfl
        · split <;> rfl
  have hdecision : decideRequestTransition command snapshot recentOpen =
      transition command snapshot (requestInputDigest command.payload) recentOpen := by
    simp [decideRequestTransition, hguard, repeatedInput, hunrecorded]
  rw [hdecision] at h ⊢
  by_cases hpayload : ∃ request, command.payload = .open request
  · obtain ⟨next, hpayload⟩ := hpayload
    have hopen : transition command snapshot (requestInputDigest command.payload) recentOpen =
        openRequest command snapshot next (requestInputDigest command.payload) recentOpen := by
      simp [transition, hpayload]
    rw [hopen] at h ⊢
    obtain ⟨hactions, hreceive, horigin⟩ := openRequest_records hpayload h
    exact ⟨next, .opened, false, hvalid, howns, hunrecorded, hactions, hreceive,
      by rw [hpayload, targetRequestId], horigin⟩
  · have hpayload' : ∀ request, command.payload ≠ .open request := by
      intro request heq
      exact hpayload ⟨request, heq⟩
    obtain ⟨current, hrequest, htarget, hsession⟩ := transition_targets hpayload' h
    have hdecided : Decided current command (requestInputDigest command.payload)
        (transition command snapshot (requestInputDigest command.payload) recentOpen) :=
      transition_decided hrequest
    generalize transition command snapshot (requestInputDigest command.payload) recentOpen =
      decision at hdecided h
    cases hdecided with
    | idle _ hactions => exact absurd hactions h
    | recorded next resolution terminal hopen hmove =>
      have hid : next.requestId = current.requestId := (hmove.sameTerms (SameTerms.refl current)).requestId
      exact ⟨next, resolution, terminal, hvalid, howns, hunrecorded, rfl, rfl, hid.trans htarget,
        .moved current hpayload' hrequest hid.symm hsession hmove⟩

end

end OpenOmni
