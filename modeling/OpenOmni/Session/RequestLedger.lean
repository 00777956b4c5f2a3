import OpenOmni.Journal.Delivery
import OpenOmni.Session.Fork
import OpenOmni.Session.RequestPlan

/-! The request rows of a session file: whose records they are, and what of them every write and
every fork keeps. -/
namespace OpenOmni
open List

open SessionTransition PlainValue

def isInvocation (action : Append) : Bool := action.intent.get? "phase" = some (.str "intent")

def forkKeeps (action : Append) : Bool :=
  !isInvocation action || (!isForkExcluded action && !isForkRenamed action)

/-- A row of another writer: no request row, and no invocation that a fork would drop or rename. -/
def isForeign (action : Append) : Bool := action.kind ≠ .request && forkKeeps action

/-- `deliveryCommitAction` of a prompt or another delivery. -/
def deliveryCommitAction (delivery : DeliveryCommit) : Append where
  id := delivery.id
  parentId := delivery.parentActionId
  sessionId := delivery.sessionId
  kind := if delivery.kind = "prompt" then .prompt else if delivery.kind = "action" then .action
    else .signal
  intent := delivery.origin
  effect := record [("deliveryKind", some (.str delivery.kind)),
    ("content", some (.str delivery.content))]
  ts := delivery.createdAt

variable {a : Append} {command : Command} {request : Request} {resolution : Resolution} {node : Node}

lemma forkKeeps_of_not_invocation (h : isInvocation a = false) : forkKeeps a = true := by
  simp [forkKeeps, h]

theorem isForeign_receivingIntake
    (h : a ∈ (receivingIntake command request resolution).toList.map deliveryCommitAction) : isForeign a = true := by
  obtain ⟨delivery, hdelivery, rfl⟩ := mem_map.mp h
  have hkind : (deliveryCommitAction delivery).kind ≠ .request := by
    simp only [deliveryCommitAction]
    split
    · simp
    · split <;> simp
  have hphase : isInvocation (deliveryCommitAction delivery) = false := by
    unfold receivingIntake at hdelivery
    split at hdelivery
    · rename_i answer hanswer
      split at hdelivery
      · obtain rfl : delivery = replyIntake command.at request answer := by simpa using hdelivery
        cases houtbound : answer.outbound with
        | none => simp [isInvocation, deliveryCommitAction, replyIntake, houtbound, get?_record, List.lookup]
        | some outbound =>
          simp [isInvocation, deliveryCommitAction, replyIntake, houtbound, OutboundMessage.toPlain,
            get?_record, List.lookup]
      · simp at hdelivery
    · simp at hdelivery
  simp [isForeign, hkind, forkKeeps_of_not_invocation hphase]

section
variable {childId : String} {ids renames : List (String × String)} {node : Node}

lemma isInvocation_copyAction :
    isInvocation (copyAction node childId ids renames) = isInvocation node.toAppend := by
  have hphase : (remapPayload renames node.intent).get? "phase" = node.intent.get? "phase" :=
    remapPayload_get? _ _ (by decide) (by decide)
  simp only [isInvocation, copyAction, hphase]

lemma forkKeeps_copyAction :
    forkKeeps (copyAction node childId ids renames) = forkKeeps node.toAppend := by
  have hop : (remapPayload renames node.intent).get? "op" = node.intent.get? "op" :=
    remapPayload_get? _ _ (by decide) (by decide)
  have hkind : (remapPayload renames node.effect).get? "deliveryKind" =
      node.effect.get? "deliveryKind" := remapPayload_get? _ _ (by decide) (by decide)
  have hphase : (remapPayload renames node.effect).get? "phase" = node.effect.get? "phase" :=
    remapPayload_get? _ _ (by decide) (by decide)
  rw [forkKeeps, forkKeeps, isInvocation_copyAction]
  simp only [isForkExcluded, isForkRenamed, isArmRow, isInputRow, isDeliveryRow, copyAction, hop,
    hkind, hphase]
  rfl
end

lemma forkKept_of_invocation (hkept : forkKeeps node.toAppend = true)
    (hinvocation : isInvocation node.toAppend = true) :
    isForkExcluded node.toAppend = false ∧ isForkRenamed node.toAppend = false := by
  simpa [forkKeeps, hinvocation] using hkept

lemma forkKept_of_request (h : node.kind = .request) :
    isForkExcluded node.toAppend = false ∧ isForkRenamed node.toAppend = false := by
  simp [isForkExcluded, isArmRow, isForkRenamed, isInputRow, isDeliveryRow, isInputKind, h]

def Invoked (db : Db) (requestId : String) : Prop :=
  ∃ node ∈ db.actions, node.id = requestId ∧ isInvocation node.toAppend = true

lemma Invoked.grow {db db' : Db} {submitted : List Append} {requestId : String} (h : Invoked db requestId)
    (hgrow : Grows submitted db db') : Invoked db' requestId := by
  obtain ⟨node, hnode, hid, hphase⟩ := h
  exact ⟨node, hgrow.subset node hnode, hid, hphase⟩

def UnderInput [PlainCoding] (sessionId inputId : String) (action : Append) : Prop :=
  action.kind = .request ∧ action.sessionId = sessionId ∧
    jsonExtract action.intent ["inputId"] = some (.text inputId)

/-- The row is a resolution record, perhaps copied into another session. -/
def ResolvesRequest (command : Command) (request : Request) (resolution : Resolution)
    (row : Append) : Prop :=
  row = { resolutionRecord command request resolution with sessionId := row.sessionId }

lemma ResolvesRequest.copy {row : Append} (h : ResolvesRequest command request resolution row) (childId : String) :
    ResolvesRequest command request resolution { row with sessionId := childId } := by
  unfold ResolvesRequest at h ⊢
  rw [h]

section
variable [PlainCoding]

/-- The row is the record of a command's input, perhaps copied into another session. -/
structure RecordsInput (command : Command) (request : Request) (resolution : Resolution)
    (row : Append) : Prop where
  valid : command.valid = true
  target : request.requestId = targetRequestId command.payload
  eq : row = { inputRecord command request (requestInputDigest command.payload) resolution with
    sessionId := row.sessionId }

/-- A request row belongs to a request that some row called for. -/
def RequestRow (db : Db) (row : Append) : Prop :=
  ∃ command request resolution, Invoked db request.requestId ∧
    (RecordsInput command request resolution row ∨ ResolvesRequest command request resolution row)

structure LedgerInv (db : Db) : Prop where
  chain : ChainInv db
  requests : ∀ row ∈ db.actions, row.kind = .request → RequestRow db row.toAppend
  kept : ∀ row ∈ db.actions, forkKeeps row.toAppend = true
  once : ∀ sessionId inputId, ∀ a ∈ db.actions, ∀ b ∈ db.actions,
    UnderInput sessionId inputId a.toAppend → UnderInput sessionId inputId b.toAppend → a.id = b.id

/-- The session moved on from the revision, or has no row yet under the input id. -/
def Unrecorded (db : Db) (sessionId : String) (revision : ℕ) (inputId : String) : Prop :=
  ∃ current ∈ db.sessions, current.id = sessionId ∧ revision ≤ current.revision ∧
    (current.revision = revision →
      ∀ row ∈ db.actions, ¬ UnderInput sessionId inputId row.toAppend)

/-- The commit of a planned decision, under whichever authority its caller holds by then. -/
def requestCommit (command : Command) (decision : RequestDecision) (admission : List DeliveryCommit)
    (authority : Authority) (now : ℚ) (state : SessionState) : Commit where
  sessionId := command.sessionId
  owner := authority.owner
  fence := authority.fence
  now := now
  expectedRevision := command.expectedRevision
  actions := decision.actions ++ (decision.receive.toList ++ admission).map deliveryCommitAction
  state := state
  requestCount := decision.requestCount

variable {db db' : Db} {submitted : List Append} {command : Command} {request : Request}
  {resolution : Resolution} {row : Append} {sessionId inputId : String} {revision : ℕ}

lemma RecordsInput.underInput_iff (h : RecordsInput command request resolution row) :
    UnderInput sessionId inputId row ↔ row.sessionId = sessionId ∧ command.inputId = inputId := by
  have hkind : row.kind = .request := by rw [h.eq]; rfl
  have hinput : jsonExtract row.intent ["inputId"] = some (.text command.inputId) := by
    rw [h.eq]
    simp [inputRecord, jsonExtract, get?_record, List.lookup, sqlValue]
  simp [UnderInput, hkind, hinput]

lemma ResolvesRequest.not_underInput (h : ResolvesRequest command request resolution row) :
    ¬ UnderInput sessionId inputId row := by
  rintro ⟨-, -, hinput⟩
  rw [h] at hinput
  simp [resolutionRecord, jsonExtract, get?_record, List.lookup] at hinput

variable {node : Node} {inputDigest : String} {terminal : Bool} {a : Append}

lemma Db.mem_inputRows : node ∈ db.inputRows sessionId inputId ↔
      node ∈ db.actions ∧ UnderInput sessionId inputId node.toAppend := by
  simp only [inputRows, rows, mem_filter, Bool.and_eq_true, decide_eq_true_eq, UnderInput]
  tauto

lemma requestInputById_none (h : db.requestInputById sessionId inputId = none) :
    ∀ node ∈ db.actions, ¬ UnderInput sessionId inputId node.toAppend := by
  intro node hnode hunder
  have hmem := Db.mem_inputRows.mpr ⟨hnode, hunder⟩
  rw [Db.requestInputById, argmax_eq_none] at h
  rw [h] at hmem
  contradiction

theorem LedgerInv.inputRows_eq (h : LedgerInv db) (hmem : node ∈ db.inputRows sessionId inputId) :
    db.inputRows sessionId inputId = [node] := by
  have hnodup : (db.inputRows sessionId inputId).Nodup :=
    (List.Nodup.of_map _ h.chain.actionIds).filter _ |>.filter _
  have hall : ∀ other ∈ db.inputRows sessionId inputId, other = node := by
    intro other hother
    obtain ⟨hnode, hunder⟩ := Db.mem_inputRows.mp hmem
    obtain ⟨hother, hunder'⟩ := Db.mem_inputRows.mp hother
    exact inj_on_of_nodup_map h.chain.actionIds hother hnode
      (h.once _ _ other hother node hnode hunder' hunder)
  rw [eq_replicate_of_mem hall] at hmem hnodup ⊢
  have hlength := nodup_replicate.mp hnodup
  have hpos : (db.inputRows sessionId inputId).length ≠ 0 := by
    intro hzero
    simp [hzero] at hmem
  have hone : (db.inputRows sessionId inputId).length = 1 := by omega
  rw [hone, replicate_one]

lemma RequestRow.grow (h : RequestRow db row) (hgrow : Grows submitted db db') :
    RequestRow db' row := by
  obtain ⟨command, request, resolution, hinvoked, hrow⟩ := h
  exact ⟨command, request, resolution, hinvoked.grow hgrow, hrow⟩

theorem LedgerInv.grow (h : LedgerInv db) (hgrow : Grows submitted db db') (hchain : ChainInv db')
    (hrequests : ∀ a ∈ submitted, a.kind = .request → RequestRow db' a)
    (hkept : ∀ a ∈ submitted, forkKeeps a = true)
    (hfresh : ∀ sessionId inputId, ∀ a ∈ submitted, UnderInput sessionId inputId a →
      (∀ row ∈ db.actions, ¬ UnderInput sessionId inputId row.toAppend) ∧
      ∀ b ∈ submitted, UnderInput sessionId inputId b → a.id = b.id) : LedgerInv db' := by
  obtain ⟨new, hactions, hnew⟩ := hgrow
  have hmem : ∀ node ∈ db'.actions, node ∈ db.actions ∨ node.toAppend ∈ submitted := by
    intro node hnode
    rw [hactions] at hnode
    exact (mem_append.mp hnode).imp_right (hnew node)
  refine ⟨hchain, ?_, ?_, ?_⟩
  · intro node hnode hkind
    rcases hmem node hnode with hold | hsub
    · exact (h.requests node hold hkind).grow ⟨new, hactions, hnew⟩
    · exact hrequests _ hsub hkind
  · intro node hnode
    rcases hmem node hnode with hold | hsub
    · exact h.kept node hold
    · exact hkept _ hsub
  · intro sessionId inputId a ha b hb hunder hunder'
    rcases hmem a ha with hold | hsub
    · rcases hmem b hb with hold' | hsub'
      · exact h.once sessionId inputId a hold b hold' hunder hunder'
      · exact absurd hunder ((hfresh _ _ _ hsub' hunder').1 a hold)
    · rcases hmem b hb with hold' | hsub'
      · exact absurd hunder' ((hfresh _ _ _ hsub hunder).1 b hold')
      · exact (hfresh _ _ _ hsub hunder).2 _ hsub' hunder'

lemma not_underInput_of_foreign (h : isForeign row = true) : ¬ UnderInput sessionId inputId row := by
  rintro ⟨hkind, -⟩
  simp [isForeign, hkind] at h

theorem LedgerInv.foreign (h : LedgerInv db) (hgrow : Grows submitted db db') (hchain : ChainInv db')
    (hforeign : ∀ a ∈ submitted, isForeign a = true) : LedgerInv db' := by
  refine h.grow hgrow hchain ?_ ?_ ?_
  · intro a ha hkind
    have hrow := hforeign a ha
    simp [isForeign, hkind] at hrow
  · intro a ha
    have hrow := hforeign a ha
    simp only [isForeign, Bool.and_eq_true] at hrow
    exact hrow.2
  · intro sessionId inputId a ha hunder
    exact absurd hunder (not_underInput_of_foreign (hforeign a ha))

lemma Unrecorded.grow (h : Unrecorded db sessionId revision inputId) (hdb : ChainInv db)
    (hgrow : Grows submitted db db') (hdb' : ChainInv db') (hkept : FencesKept db db') :
    Unrecorded db' sessionId revision inputId := by
  obtain ⟨current, hcurrent, hid, hle, hnone⟩ := h
  obtain ⟨current', hcurrent', hid', -⟩ := hkept current hcurrent
  obtain ⟨hmono, hrows⟩ := hgrow.rows_eq hdb hdb' hcurrent hcurrent' hid'
  refine ⟨current', hcurrent', hid'.trans hid, hle.trans hmono, ?_⟩
  intro hrevision node hnode hunder
  have hsame : current'.revision = current.revision := by omega
  have hin : node ∈ db'.rows current.id := by
    simp only [Db.rows, mem_filter, decide_eq_true_eq]
    exact ⟨hnode, hunder.2.1.trans hid.symm⟩
  rw [hrows hsame] at hin
  exact hnone (hsame.symm.trans hrevision) node (mem_filter.mp hin).1 hunder

/-- What a planned decision with rows still is when its commit comes. -/
structure Planned (db : Db) (command : Command) (decision : RequestDecision) (request : Request)
    (resolution : Resolution) (terminal : Bool) : Prop where
  valid : command.valid = true
  target : request.requestId = targetRequestId command.payload
  actions : decision.actions =
    (recordRequest command request (requestInputDigest command.payload) resolution terminal).actions
  receive : decision.receive = receivingIntake command request resolution
  invoked : Invoked db request.requestId
  unrecorded : Unrecorded db command.sessionId command.expectedRevision command.inputId

section
variable {command : Command} {request : Request} {resolution : Resolution}
  (h : a ∈ (recordRequest command request inputDigest resolution terminal).actions)
include h

lemma mem_recordRequest : a = inputRecord command request inputDigest resolution ∨
      a = resolutionRecord command request resolution ∨ ∃ arm : Arm, a = armAction arm := by
  simp only [recordRequest, mem_append, mem_singleton] at h
  rcases h with (hinput | hresolution) | harm
  · exact .inl hinput
  · cases terminal with
    | false => simp at hresolution
    | true => exact .inr (.inl (mem_singleton.mp hresolution))
  · refine .inr (.inr ?_)
    unfold deadlineArms at harm
    split at harm
    · exact ⟨_, mem_singleton.mp harm⟩
    · cases terminal with
      | false => simp at harm
      | true => exact ⟨_, mem_singleton.mp harm⟩

lemma forkKeeps_recordRequest : forkKeeps a = true := by
  apply forkKeeps_of_not_invocation
  rcases mem_recordRequest h with rfl | rfl | ⟨arm, rfl⟩
  · simp [isInvocation, inputRecord, get?_record, List.lookup]
  · simp [isInvocation, resolutionRecord, get?_record, List.lookup]
  · simp [isInvocation, armAction, get?_record, List.lookup]

end

lemma Planned.grow {decision : RequestDecision} (h : Planned db command decision request resolution terminal)
    (hdb : ChainInv db) (hgrow : Grows submitted db db') (hdb' : ChainInv db') (hkept : FencesKept db db') :
    Planned db' command decision request resolution terminal :=
  { h with
    invoked := h.invoked.grow hgrow
    unrecorded := h.unrecorded.grow hdb hgrow hdb' hkept }

section
variable {decision : RequestDecision} {terminal : Bool} {admission : List DeliveryCommit}
  {authority : Authority} {now : ℚ} {state : SessionState} {cap : ℕ}

section
variable (h : Planned db command decision request resolution terminal)
include h

theorem Planned.rows (hadmission : ∀ d ∈ admission, isForeign (deliveryCommitAction d) = true) {a : Append}
    (ha : a ∈ (requestCommit command decision admission authority now state).actions) :
    a = inputRecord command request (requestInputDigest command.payload) resolution ∨
      a = resolutionRecord command request resolution ∨ isForeign a = true := by
  simp only [requestCommit, map_append, mem_append] at ha
  rcases ha with hplan | hreceive | hadmitted
  · rw [h.actions] at hplan
    refine (mem_recordRequest hplan).imp_right (Or.imp_right ?_)
    rintro ⟨arm, rfl⟩
    simpa [isForeign, armAction] using forkKeeps_recordRequest hplan
  · rw [h.receive] at hreceive
    exact .inr (.inr (isForeign_receivingIntake hreceive))
  · obtain ⟨delivery, hdelivery, rfl⟩ := mem_map.mp hadmitted
    exact .inr (.inr (hadmission delivery hdelivery))

theorem Planned.tooLate (hdb : LedgerInv db) {node : Node}
    (hnode : node ∈ db.inputRows command.sessionId command.inputId) :
    refused (write cap (.commit (requestCommit command decision admission authority now state)) db).1 =
      true := by
  by_contra hok
  obtain ⟨row, hrow, hid, -, -, hrevision⟩ := write_commit_authority (Bool.eq_false_iff.mpr hok)
  obtain ⟨current, hcurrent, hcurrentId, -, hnone⟩ := h.unrecorded
  obtain rfl := hdb.chain.session_unique hrow hcurrent (hid.trans hcurrentId.symm)
  obtain ⟨hmem, hunder⟩ := Db.mem_inputRows.mp hnode
  exact hnone hrevision node hmem hunder

theorem Planned.ledgerInv
    (hdb : LedgerInv db) (hadmission : ∀ d ∈ admission, isForeign (deliveryCommitAction d) = true) :
    LedgerInv (write cap (.commit
      (requestCommit command decision admission authority now state)) db).2 := by
  by_cases hrefused : refused (write cap (.commit
      (requestCommit command decision admission authority now state)) db).1 = true
  · rw [write_refused hrefused]
    exact hdb
  have hgrow := write_grows cap (.commit
    (requestCommit command decision admission authority now state)) db
  have hinput : ∀ sessionId inputId, ∀ a ∈
      (requestCommit command decision admission authority now state).actions,
      UnderInput sessionId inputId a →
        a = inputRecord command request (requestInputDigest command.payload) resolution ∧
          command.sessionId = sessionId ∧ command.inputId = inputId := by
    intro sessionId inputId a ha hunder
    rcases h.rows hadmission ha with rfl | rfl | hforeign
    · have hrecords : RecordsInput command request resolution (inputRecord command request
          (requestInputDigest command.payload) resolution) := ⟨h.valid, h.target, rfl⟩
      exact ⟨rfl, hrecords.underInput_iff.mp hunder⟩
    · have hresolves : ResolvesRequest command request resolution
          (resolutionRecord command request resolution) := rfl
      exact absurd hunder hresolves.not_underInput
    · exact absurd hunder (not_underInput_of_foreign hforeign)
  refine hdb.grow hgrow (write_chainInv cap _ hdb.chain).1 ?_ ?_ ?_
  · intro a ha hkind
    refine ⟨command, request, resolution, h.invoked.grow hgrow, ?_⟩
    rcases h.rows hadmission ha with rfl | rfl | hforeign
    · exact .inl ⟨h.valid, h.target, rfl⟩
    · exact .inr rfl
    · simp [isForeign, hkind] at hforeign
  · intro a ha
    rcases h.rows hadmission ha with rfl | rfl | hforeign
    · exact forkKeeps_of_not_invocation (by simp [isInvocation, inputRecord, get?_record, List.lookup])
    · exact forkKeeps_of_not_invocation
        (by simp [isInvocation, resolutionRecord, get?_record, List.lookup])
    · simp only [isForeign, Bool.and_eq_true] at hforeign
      exact hforeign.2
  · intro sessionId inputId a ha hunder
    obtain ⟨rfl, rfl, rfl⟩ := hinput _ _ a ha hunder
    refine ⟨fun node hnode hrecorded => hrefused ?_, fun b hb hunder' => ?_⟩
    · exact h.tooLate hdb (Db.mem_inputRows.mpr ⟨hnode, hrecorded⟩)
    · rw [(hinput _ _ b hb hunder').1]

end

end

lemma LedgerInv.empty : LedgerInv {} where
  chain := ChainInv.empty
  requests := by simp
  kept := by simp
  once := by simp

section
variable {row : Append} {command : Command} {request : Request} {resolution : Resolution}
  (h : RecordsInput command request resolution row ∨ ResolvesRequest command request resolution row)
include h

theorem requestRow_fields : row.kind = .request ∧ row.parentId = some request.requestId ∧
      ∀ key ∈ ["deliveryId", "turnId"], row.intent.get? key = none ∧ row.effect.get? key = none := by
  rcases h with ⟨-, -, heq⟩ | heq
  · rw [heq]
    refine ⟨rfl, rfl, ?_⟩
    cases hpayload : command.payload <;>
      simp [inputRecord, payloadEvidence, hpayload, get?_record, List.lookup]
  · rw [heq]
    refine ⟨rfl, rfl, ?_⟩
    simp [resolutionRecord, get?_record, List.lookup]

theorem requestRow_effect : row.effect.get? "request" = some request.toPlain := by
  rcases h with ⟨-, -, heq⟩ | heq
  · rw [heq]
    cases hpayload : command.payload <;>
      simp [inputRecord, payloadEvidence, hpayload, get?_record, List.lookup]
  · rw [heq]
    simp [resolutionRecord, get?_record, List.lookup]

end

lemma copyAction_request {childId : String} {ids renames : List (String × String)} {command : Command}
    {request : Request} {resolution : Resolution}
    (hrow : RecordsInput command request resolution node.toAppend ∨
      ResolvesRequest command request resolution node.toAppend) (hid : ids.lookup node.id = some node.id)
    (hparent : ids.lookup request.requestId = some request.requestId) :
    copyAction node childId ids renames = { node.toAppend with sessionId := childId } := by
  obtain ⟨-, hparentId, habsent⟩ := requestRow_fields hrow
  obtain ⟨hintent, heffect⟩ := habsent "deliveryId" (by simp)
  obtain ⟨hintent', heffect'⟩ := habsent "turnId" (by simp)
  simp only [copyAction, hid, hparentId, Option.bind_some, hparent, Option.getD_some,
    remapPayload_of_absent renames hintent hintent', remapPayload_of_absent renames heffect heffect']

section
variable {source childId : String} {nodes rest : List Node}

theorem LedgerInv.copy_request (h : LedgerInv db) (childId : String) (hrows : db.rows source = nodes ++ rest)
    {node : Node} (hnode : node ∈ nodes) (hkind : node.kind = .request) {eligible : List Node}
    (heligible : eligible = nodes.filter fun node => !isForkExcluded node.toAppend) :
    copyAction node childId (forkIds (forkRenames source eligible) eligible)
        (forkRenames source eligible) = { node.toAppend with sessionId := childId } ∧
      ∃ command request resolution, (RecordsInput command request resolution node.toAppend ∨
          ResolvesRequest command request resolution node.toAppend) ∧
        ∃ copy ∈ copyActions source childId eligible,
          copy.id = request.requestId ∧ isInvocation copy = true := by
  have hmem : ∀ other ∈ nodes, other ∈ db.actions ∧ other.sessionId = source := by
    intro other hother
    have hin : other ∈ db.rows source := by
      rw [hrows]
      exact mem_append_left _ hother
    simpa [Db.rows] using hin
  have hids : (eligible.map (·.id)).Nodup := heligible ▸ h.chain.eligible_nodup hrows _
  obtain ⟨hin, hsession⟩ := hmem node hnode
  obtain ⟨command, request, resolution, ⟨invocation, hinvocation, hid, hphase⟩, hrow⟩ :=
    h.requests node hin hkind
  obtain ⟨-, hparentId, -⟩ := requestRow_fields hrow
  obtain ⟨parent, hparent, hparentId', hparentSession, hearlier⟩ :=
    h.chain.parents node hin _ hparentId
  obtain rfl : parent = invocation :=
    inj_on_of_nodup_map h.chain.actionIds hparent hinvocation (hparentId'.trans hid.symm)
  have hparentRow : parent ∈ db.rows source := by
    simp [Db.rows, hparent, hparentSession, hsession]
  obtain ⟨hincluded, hkeptName⟩ := forkKept_of_invocation (h.kept parent hparent) hphase
  obtain ⟨hincluded', hkeptName'⟩ := forkKept_of_request hkind
  have hparentIn : parent ∈ eligible := by
    rw [heligible]
    exact mem_filter.mpr ⟨h.chain.mem_before hrows hnode hparentRow hearlier, by simp [hincluded]⟩
  have hnodeIn : node ∈ eligible := by
    rw [heligible]
    exact mem_filter.mpr ⟨hnode, by simp [hincluded']⟩
  have hlookup := forkIds_kept source hids hparentIn hkeptName
  rw [hid] at hlookup
  refine ⟨copyAction_request hrow (forkIds_kept source hids hnodeIn hkeptName') hlookup,
    command, request, resolution, hrow, ?_⟩
  obtain ⟨copy, hcopy, hcopyOf⟩ := exists_copyOf source childId hids
    hparentIn hkeptName
  refine ⟨copy, hcopy, hcopyOf.id.trans hid, ?_⟩
  rw [isInvocation, hcopyOf.intent _ (by decide) (by decide)]
  exact hphase

lemma RecordsInput.copy {row : Append} {command : Command} {request : Request}
    {resolution : Resolution} (h : RecordsInput command request resolution row) (childId : String) :
    RecordsInput command request resolution { row with sessionId := childId } := by
  refine ⟨h.valid, h.target, ?_⟩
  rw [h.eq]

theorem LedgerInv.fork (h : LedgerInv db) {cap : ℕ} {parent : Row} {anchorId : String}
    {pointers : GenerationPointers} {genesis : Append} {copies : List Append}
    (hcopies : planCopies parent.id childId anchorId (db.rows parent.id) = some copies)
    (hgenesis : isForeign genesis = true) :
    LedgerInv (write cap (.fork ⟨forkedRow childId parent pointers, genesis⟩ copies) {}).2 := by
  by_cases hrefused :
      refused (write cap (.fork ⟨forkedRow childId parent pointers, genesis⟩ copies) {}).1 = true
  · rw [write_refused hrefused]
    exact LedgerInv.empty
  have hexact := write_fork_rows (Bool.eq_false_iff.mpr hrefused)
  have hgrow := write_grows cap (.fork ⟨forkedRow childId parent pointers, genesis⟩ copies) {}
  obtain ⟨nodes, rest, hrows, hplan⟩ := planCopies_some hcopies
  generalize heligible : (nodes.filter fun node => !isForkExcluded node.toAppend) = eligible at hplan
  -- every request row the child is given is a row of the parent under another session
  have hcopied : ∀ a ∈ genesis :: copies, a.kind = .request →
      ∃ node ∈ nodes, node ∈ db.rows parent.id ∧ node.kind = .request ∧
        a = { node.toAppend with sessionId := childId } := by
    intro a ha hkind
    rcases mem_cons.mp ha with rfl | ha
    · simp [isForeign, hkind] at hgenesis
    · rw [hplan] at ha
      obtain ⟨node, hnode, rfl⟩ := mem_map.mp ha
      rw [← heligible] at hnode
      have hin := (mem_filter.mp hnode).1
      refine ⟨node, hin, ?_, hkind, (h.copy_request childId hrows hin hkind heligible.symm).1⟩
      rw [hrows]
      exact mem_append_left _ hin
  refine LedgerInv.empty.grow hgrow (write_chainInv cap _ ChainInv.empty).1 ?_ ?_ ?_
  · intro a ha hkind
    obtain ⟨node, hnode, -, hkind', rfl⟩ := hcopied a ha hkind
    obtain ⟨-, command, request, resolution, hrow, copy, hcopy, hid, hphase⟩ :=
      h.copy_request childId hrows hnode hkind' heligible.symm
    refine ⟨command, request, resolution, ?_, hrow.imp (·.copy childId) (·.copy childId)⟩
    have hin : copy ∈ genesis :: copies := by
      rw [hplan]
      exact mem_cons_of_mem _ hcopy
    rw [← hexact] at hin
    obtain ⟨kept, hkept, rfl⟩ := mem_map.mp hin
    exact ⟨kept, hkept, hid, hphase⟩
  · intro a ha
    rcases mem_cons.mp ha with rfl | ha
    · simp only [isForeign, Bool.and_eq_true] at hgenesis
      exact hgenesis.2
    · rw [hplan] at ha
      obtain ⟨node, hnode, rfl⟩ := mem_map.mp ha
      rw [← heligible] at hnode
      have hin : node ∈ db.rows parent.id := by
        rw [hrows]
        exact mem_append_left _ (mem_filter.mp hnode).1
      rw [forkKeeps_copyAction]
      exact h.kept node (mem_filter.mp hin).1
  · intro sessionId inputId a ha hunder
    obtain ⟨node, -, hnode, -, rfl⟩ := hcopied a ha hunder.1
    refine ⟨by simp, ?_⟩
    intro b hb hunder'
    obtain ⟨other, -, hother, -, rfl⟩ := hcopied b hb hunder'.1
    simp only [Db.rows, mem_filter, decide_eq_true_eq] at hnode hother
    exact h.once parent.id inputId node hnode.1 other hother.1 ⟨hunder.1, hnode.2, hunder.2.2⟩
      ⟨hunder'.1, hother.2, hunder'.2.2⟩

end

end

end OpenOmni
