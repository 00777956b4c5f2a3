import OpenOmni.Session.ForkTurns
import OpenOmni.Session.Outbound
import OpenOmni.Session.RequestTransition

/-! Which obligations of its parent the child of a fork takes over. -/
namespace OpenOmni

open PlainValue SessionTransition

section
variable [PlainCoding] {source childId : String} {nodes rows : List Node} {node copy : Node}

theorem jsonExtract_remapPayload (renames : List (String × String)) (payload : PlainValue) {key : String}
    (hdelivery : key ≠ "deliveryId") (hturn : key ≠ "turnId") (path : List String) :
    jsonExtract (remapPayload renames payload) (key :: path) = jsonExtract payload (key :: path) := by
  rw [jsonExtract, jsonExtract, remapPayload_get? _ _ hdelivery hturn]

lemma CopiedFrom.requestEntry (h : CopiedFrom source childId nodes node copy) :
    requestEntry copy = requestEntry node := by
  unfold OpenOmni.requestEntry
  rw [h.kind, h.effect, jsonExtract_remapPayload _ _ (by decide) (by decide),
    remapPayload_get? _ _ (by decide) (by decide)]

lemma CopiedFrom.outboundEntry (h : CopiedFrom source childId nodes node copy) (hids : (nodes.map (·.id)).Nodup) :
    outboundEntry copy = outboundEntry node := by
  unfold OpenOmni.outboundEntry
  by_cases hkind : node.kind = .message
  · have hid : copy.id = node.id := by
      rw [h.id]
      exact renameId_kept hids h.mem (by simp [isForkRenamed, isInputRow, isDeliveryRow, isInputKind, hkind])
    have hop : copy.intent.get? "op" = node.intent.get? "op" := by
      rw [h.intent]
      exact remapPayload_get? _ _ (by decide) (by decide)
    rw [h.kind, hid, h.effect, jsonExtract_remapPayload _ _ (by decide) (by decide),
      remapPayload_get? _ _ (by decide) (by decide)]
    unfold extractIs
    rw [hop]
  · simp [h.kind, hkind]

theorem ForkChild.requestRows (h : ForkChild source childId nodes rows) : requestRows rows = requestRows nodes := by
  unfold OpenOmni.requestRows
  rw [h.filterMap (fun row hrow => ?_) (fun node hnode => ?_) fun node copy hcopy => hcopy.requestEntry]
  · simp [OpenOmni.requestEntry, hrow]
  · have hkind : node.kind ≠ .request := by
      intro hkind
      simp [isForkExcluded, isArmRow, hkind] at hnode
    simp [OpenOmni.requestEntry, hkind]

theorem ForkChild.outboundRows (h : ForkChild source childId nodes rows) : outboundRows rows = outboundRows nodes := by
  unfold OpenOmni.outboundRows
  rw [h.filterMap (fun row hrow => ?_) (fun node hnode => ?_) fun node copy hcopy => hcopy.outboundEntry h.sourceIds]
  · simp [OpenOmni.outboundEntry, hrow]
  · have hkind : node.kind ≠ .message := by
      intro hkind
      simp [isForkExcluded, isArmRow, hkind] at hnode
    simp [OpenOmni.outboundEntry, hkind]

end

section
variable [PlainCoding]

def Closable (row : Row) (request : Request) : Prop :=
  ∃ command recentOpen, command.sessionId = row.id ∧
    (decideRequestTransition command { row, request := some request } recentOpen).request.any fun next =>
      next.state ≠ .opened

structure Activated (row : Row) (sessionId : String) : Prop where
  id : row.id = sessionId
  owner : ∃ owner, isId owner ∧ row.fenceOwner = some owner
  fence : 0 < row.fence ∧ isSafe row.fence
  revision : isSafe row.revision

theorem decideRequestTransition_foreign {command : Command} {row : Row} {request : Request}
    {recentOpen : ApprovalRecentOpen} (h : request.sessionId ≠ row.id) :
    decideRequestTransition command { row, request := some request } recentOpen = rejected := by
  have htargets : ∀ payload, targets request payload row.id = false := by
    intro payload
    simp [targets, h]
  unfold decideRequestTransition
  split
  · rfl
  · unfold repeatedInput transition
    cases command.payload with
    | «open» next => simp [openRequest, admitsOpen]
    | _ => simp [htargets]

def expireCommand (row : Row) (owner : String) (request : Request) : Command where
  inputId := request.requestId
  sessionId := row.id
  «at» := request.deadline
  expectedRevision := row.revision
  authority := ⟨owner, row.fence⟩
  payload := .timeout request.requestId

theorem closable_iff {row : Row} {request : Request} {sessionId : String} (hrow : Activated row sessionId)
    (hsession : isId sessionId) (hvalid : request.valid = true) (hopen : request.state = .opened) :
    Closable row request ↔ request.sessionId = sessionId := by
  constructor
  · rintro ⟨command, recentOpen, -, hcloses⟩
    by_contra hforeign
    rw [← hrow.id] at hforeign
    rw [decideRequestTransition_foreign hforeign] at hcloses
    cases hcloses
  · intro howned
    obtain ⟨owner, howner, hfenced⟩ := hrow.owner
    refine ⟨expireCommand row owner request, ⟨0, 0⟩, rfl, ?_⟩
    have hfields := hvalid
    simp only [Request.valid, Request.validFields, Bool.and_eq_true] at hfields
    obtain ⟨⟨⟨⟨⟨⟨⟨⟨⟨⟨⟨⟨⟨⟨⟨⟨⟨⟨⟨⟨⟨⟨hrequest, -⟩, -⟩, -⟩, -⟩, -⟩, -⟩, -⟩, -⟩, -⟩, -⟩, hdeadline⟩, -⟩, -⟩, -⟩, -⟩, -⟩, -⟩, -⟩, -⟩,
      -⟩, -⟩, -⟩ := hfields
    have hcommand : (expireCommand row owner request).valid = true := by
      have hid : isId row.id = true := by
        rw [hrow.id]
        exact hsession
      simp [Command.valid, expireCommand, Payload.valid, hrequest, hid, howner, hrow.fence.1, hrow.fence.2,
        hrow.revision, of_decide_eq_true hdeadline]
    have howns : ownsRequestRevision (expireCommand row owner request) row = true := by
      simp [ownsRequestRevision, expireCommand, hfenced]
    have htargets : targets request (.timeout request.requestId) row.id = true := by
      simp [targets, targetRequestId, howned, hrow.id]
    unfold decideRequestTransition
    rw [hcommand, howns]
    simp [repeatedInput, transition, expireCommand, htargets, hopen, expireRequest, recordRequest, Request.expire]

end

lemma Request.valid_of_ofPlain {v : PlainValue} {request : Request} (h : Request.ofPlain v = some request) :
    request.valid = true := by
  obtain ⟨_, -, h⟩ := Option.bind_eq_some_iff.mp h
  iterate 25 obtain ⟨_, -, h⟩ := Option.bind_eq_some_iff.mp h
  obtain ⟨_, hguard, h⟩ := Option.bind_eq_some_iff.mp h
  cases h
  by_contra hnot
  simp [hnot] at hguard

section
variable [PlainCoding] {cap : ℕ}

/-- Activating the session sends nothing, commits no other session's row, and leaves no request it cannot close. -/
structure OwesNothing (sessionId : String) (rows : List Node) : Prop where
  outbound : ∀ items, outboundRows rows = some items → ∀ item ∈ items, item.delivered = true
  requests : ∀ requests, requestRows rows = some requests → ∀ request ∈ requests, request.state = .opened →
    ∀ row, Activated row sessionId → Closable row request
  commits : ∀ items, pendingOutbound rows = some items → ∀ item ∈ items, ∀ actions send «at» row,
    redriveRow actions send «at» item = some row → row.sessionId = sessionId

/-- No message is pending among the rows, and no request of another session is open. -/
structure Discharged (sessionId : String) (rows : List Node) : Prop where
  outbound : ∀ items, outboundRows rows = some items → ∀ item ∈ items, item.delivered = true
  requests : ∀ requests, requestRows rows = some requests → ∀ request ∈ requests, request.state = .opened →
    request.sessionId = sessionId

lemma owesNothing_iff {sessionId : String} {rows : List Node} (hsession : isId sessionId) :
    OwesNothing sessionId rows ↔ Discharged sessionId rows := by
  have hvalid : ∀ requests, requestRows rows = some requests → ∀ request ∈ requests, request.valid = true := by
    intro requests hrequests request hrequest
    obtain ⟨v, hv⟩ := mem_readStates hrequests hrequest
    exact Request.valid_of_ofPlain hv
  constructor
  · intro h
    refine ⟨h.outbound, fun requests hrequests request hrequest hopen => ?_⟩
    -- any row under an activation's authority will do
    let row : Row := ⟨⟨0, "", 0⟩, sessionId, none, .child, some "o", 1, 0, .idle⟩
    have hrow : Activated row sessionId := ⟨rfl, ⟨"o", by decide, rfl⟩, ⟨Nat.one_pos, rfl⟩, rfl⟩
    exact (closable_iff hrow hsession (hvalid requests hrequests request hrequest) hopen).mp
      (h.requests requests hrequests request hrequest hopen row hrow)
  · intro h
    refine ⟨h.outbound, fun requests hrequests request hrequest hopen row hrow => ?_, ?_⟩
    · exact (closable_iff hrow hsession (hvalid requests hrequests request hrequest) hopen).mpr
        (h.requests requests hrequests request hrequest hopen)
    · intro items hitems item hitem
      obtain ⟨all, hall, rfl⟩ := Option.map_eq_some_iff.mp hitems
      obtain ⟨hmem, hpending⟩ := List.mem_filter.mp hitem
      rw [h.outbound all hall item hmem] at hpending
      cases hpending

lemma write_fork_valid {input : Materialize} {copies : List Append}
    (h : refused (write cap (.fork input copies) {}).1 = false) : isId input.row.id := by
  by_contra hid
  have hvalid : input.valid = false := by simp [Materialize.valid, Row.valid, hid]
  simp [write, transaction, runWrite, hvalid, refused] at h

/-- A fork takes over no obligation exactly when none stood at the anchor: no message was pending there, and no
request was open but one that already was the child's. -/
theorem fork_owes_nothing (ops : List WriteOp) {source anchorId : String} {anchor : Node} {nodes : List Node}
    {input : Materialize} {copies : List Append}
    (hread : readParentPrefix anchorId ((writes cap ops {}).rows source) = some (anchor, nodes))
    (hplan : planCopies source input.row.id anchorId ((writes cap ops {}).rows source) = some copies)
    (hwrite : refused (write cap (.fork input copies) {}).1 = false) :
    OwesNothing input.row.id ((write cap (.fork input copies) {}).2.rows input.row.id) ↔ Discharged input.row.id nodes := by
  have hchild := write_fork_child (writes_chainInv cap ops ChainInv.empty).1 hread hplan hwrite
  rw [owesNothing_iff (write_fork_valid hwrite)]
  constructor
  · intro h
    refine ⟨fun items hitems => h.outbound items ?_, fun requests hrequests => h.requests requests ?_⟩
    · rw [hchild.outboundRows, hitems]
    · rw [hchild.requestRows, hrequests]
  · intro h
    refine ⟨fun items hitems => h.outbound items ?_, fun requests hrequests => h.requests requests ?_⟩
    · rw [← hchild.outboundRows, hitems]
    · rw [← hchild.requestRows, hrequests]

end

namespace ForkSample

attribute [local instance] textCoding

/-- The child of a fork at the first prompt owes nothing. -/
theorem fork_owes_nothing_idle :
    OwesNothing child.row.id ((forked begun "a").2.rows child.row.id) := by
  have hfacts : readParentPrefix "a" ((writes 1000000 begun {}).rows "p") =
        some (⟨received "a" "first", 2⟩, (writes 1000000 begun {}).rows "p") ∧
      planCopies "p" child.row.id "a" ((writes 1000000 begun {}).rows "p") = some (copies begun "a") ∧
      refused (forked begun "a").1 = false ∧ outboundRows ((writes 1000000 begun {}).rows "p") = some [] ∧
      requestRows ((writes 1000000 begun {}).rows "p") = some [] := by
    decide +kernel
  obtain ⟨hread, hplan, hwrite, houtbound, hrequests⟩ := hfacts
  unfold forked at hwrite ⊢
  refine (fork_owes_nothing begun hread hplan hwrite).mpr ⟨fun items hitems => ?_, fun requests hread' => ?_⟩
  · rw [houtbound] at hitems
    cases hitems
    simp
  · rw [hrequests] at hread'
    cases hread'
    simp

def reply : OutboundMessage where
  messageId := "r:reply"
  sourceSessionId := "p"
  sourceActionId := "r"
  destinationSessionId := "q"
  requestId := "delegate"
  replyTo := "m"
  terminal := "completed"
  content := "done"
  digest := "digest"

def sealed : List Append :=
  [turnTerminalAction "r" (some "t") "p" ⟨"t", .result, none, "done", some "a", 0⟩ 2, outboundOpen reply 2]

def delegated : List WriteOp :=
  .materialize ⟨{ parentRow with parentId := some "q", role := .child }, configured "p:configure" "p" "create"⟩ ::
    begun.tail

def unacknowledged : List WriteOp :=
  delegated ++ [commit 2 started .running, commit 4 sealed .idle, commit 6 [received "b" "second"] .idle]

/-- The child finds its parent's reply pending, and acknowledges it with a row of its parent. -/
theorem forked_reply_pending :
    planCopies "p" "c" "b" ((writes 1000000 unacknowledged {}).rows "p") = some (copies unacknowledged "b") ∧
      refused (forked unacknowledged "b").1 = false ∧
      pendingOutbound ((forked unacknowledged "b").2.rows "c") = some [⟨reply, none⟩] ∧
      (∀ send «at» row, redriveRow (forked unacknowledged "b").2.actions send «at» ⟨reply, none⟩ = some row →
        row.sessionId = "p") ∧
      ¬ OwesNothing "c" ((forked unacknowledged "b").2.rows "c") := by
  have hfacts : planCopies "p" "c" "b" ((writes 1000000 unacknowledged {}).rows "p") = some (copies unacknowledged "b") ∧
      refused (forked unacknowledged "b").1 = false ∧
      pendingOutbound ((forked unacknowledged "b").2.rows "c") = some [⟨reply, none⟩] ∧
      outboundRows ((forked unacknowledged "b").2.rows "c") = some [⟨reply, none⟩] := by
    decide +kernel
  obtain ⟨hplan, hwrite, hpending, hrows⟩ := hfacts
  refine ⟨hplan, hwrite, hpending, fun send «at» row hrow => ?_, fun howes => ?_⟩
  · unfold redriveRow acknowledge at hrow
    split at hrow
    · exact (congrArg Append.sessionId (Option.some.inj hrow)).symm
    · cases hrow
  · have hdelivered := howes.outbound _ hrows ⟨reply, none⟩ (by simp)
    cases hdelivered

end ForkSample

end OpenOmni
