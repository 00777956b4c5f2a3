import OpenOmni.Lib.Paging
import OpenOmni.Protocol.Outbound
import OpenOmni.Store.Write

/-! The latest state of each request and each outbound message, as the paged reads list them. -/
namespace OpenOmni
open List PlainValue SessionTransition

/-- What a state read takes of a row: the key its states share, the text that orders it, and the state. -/
structure StateEntry where
  key : Option SqlValue
  cursor : Option String
  state : Option PlainValue

/-- The entries that are the last of their key; an entry without a key stands for itself. -/
def latestStates : List StateEntry → List StateEntry
  | [] => []
  | entry :: entries =>
    if entry.key.isSome && entries.any fun later => later.key = entry.key then latestStates entries
    else entry :: latestStates entries

/-- `ORDER BY` of the listed entries; a numeric key sorts before every cursor text and is never listed. -/
def orderedStates (entries : List StateEntry) : List (String × StateEntry) :=
  ((latestStates entries).filterMap fun entry => entry.cursor.map (·, entry)).mergeSort fun a b => a.1 ≤ b.1

def statePage : ℕ := 256

/-- Pages from the empty cursor on, each row parsed; `none` is the throw of a parse. -/
def readStates {α : Type} (parse : PlainValue → Option α) (entries : List StateEntry) : Option (List α) :=
  (Paging.pages Prod.fst (orderedStates entries) statePage (entries.length + 1) "").mapM fun listed =>
    listed.2.state.bind parse

section
variable [PlainCoding]

def textKey : Option SqlValue → Option String
  | some (.text s) => some s
  | _ => none

/-- A row of `requestStatesPage`; a row without a request id is listed nowhere. -/
def requestEntry (action : Node) : Option StateEntry :=
  if action.kind = .request then
    let key := jsonExtract action.effect ["request", "requestId"]
    some ⟨key, textKey key, action.effect.get? "request"⟩
  else none

/-- `requestRowsIn` of a session's rows. -/
def requestRows (rows : List Node) : Option (List Request) := readStates Request.ofPlain (rows.filterMap requestEntry)

/-- A row of `OUTBOUND_STATES_SQL`, listed under its own id where it names no message. -/
def outboundEntry (action : Node) : Option StateEntry :=
  if action.kind = .message && (extractIs action.intent "op" "open" || extractIs action.intent "op" "ack") then
    let key := jsonExtract action.effect ["outbound", "message", "messageId"]
    some ⟨key, if key.isNone then some action.id else textKey key, action.effect.get? "outbound"⟩
  else none

/-- `outboundRowsIn` of a session's rows. -/
def outboundRows (rows : List Node) : Option (List Outbound) := readStates Outbound.ofPlain (rows.filterMap outboundEntry)

end

lemma latestStates_sublist (entries : List StateEntry) : (latestStates entries).Sublist entries := by
  induction entries with
  | nil => exact List.Sublist.slnil
  | cons first entries ih =>
    unfold latestStates
    split
    · exact ih.cons first
    · exact ih.cons_cons first

variable {entries : List StateEntry}

lemma mem_of_mem_latestStates {entry : StateEntry} (h : entry ∈ latestStates entries) :
    entry ∈ entries := (latestStates_sublist entries).subset h

lemma empty_lt {s : String} (h : s ≠ "") : "" < s := by
  rw [String.lt_iff_toList_lt]
  cases hs : s.toList with
  | nil => exact absurd (String.toList_injective (by simpa using hs)) h
  | cons c cs => simp

theorem latestStates_keys (h : ∀ entry ∈ entries, entry.key.isSome) :
    (latestStates entries).Pairwise fun a b => a.key ≠ b.key := by
  induction entries with
  | nil => exact List.Pairwise.nil
  | cons first entries ih =>
    have hrest := ih fun entry hentry => h entry (mem_cons_of_mem _ hentry)
    unfold latestStates
    split
    · exact hrest
    · rename_i hlast
      refine pairwise_cons.mpr ⟨fun entry hentry heq => hlast ?_, hrest⟩
      rw [Bool.and_eq_true, any_eq_true]
      exact ⟨h first mem_cons_self, entry, mem_of_mem_latestStates hentry, by simpa using heq.symm⟩

lemma mem_readStates {α : Type} {parse : PlainValue → Option α} {out : List α} {a : α}
    (h : readStates parse entries = some out) (hmem : a ∈ out) : ∃ v, parse v = some a := by
  have hall : ∀ (part : List (String × StateEntry)) (out : List α),
      (part.mapM fun listed => listed.2.state.bind parse) = some out → a ∈ out → ∃ v, parse v = some a := by
    intro part
    induction part with
    | nil =>
      intro out hout hmem
      cases hout
      cases hmem
    | cons listed part ih =>
      intro out hout hmem
      rw [mapM_cons] at hout
      obtain ⟨first, hfirst, hout⟩ := Option.bind_eq_some_iff.mp hout
      obtain ⟨rest, hrest, hout⟩ := Option.bind_eq_some_iff.mp hout
      cases hout
      rcases mem_cons.mp hmem with rfl | hmem
      · obtain ⟨v, -, hv⟩ := Option.bind_eq_some_iff.mp hfirst
        exact ⟨v, hv⟩
      · exact ih rest hrest hmem
  exact hall _ out h hmem

def Keyed (entries : List StateEntry) : Prop :=
  ∀ entry ∈ entries, ∃ text, text ≠ "" ∧ entry.key = some (.text text) ∧ entry.cursor = some text

theorem statePages_eq (h : Keyed entries) :
    Paging.pages Prod.fst (orderedStates entries) statePage (entries.length + 1) "" = orderedStates entries := by
  have hmem : ∀ listed ∈ orderedStates entries, listed.2 ∈ latestStates entries ∧ listed.2.cursor = some listed.1 := by
    intro listed hlisted
    unfold orderedStates at hlisted
    rw [mem_mergeSort, mem_filterMap] at hlisted
    obtain ⟨entry, hentry, hcursor⟩ := hlisted
    obtain ⟨text, htext, rfl⟩ := Option.map_eq_some_iff.mp hcursor
    exact ⟨hentry, htext⟩
  have hsorted : (orderedStates entries).Pairwise fun a b => a.1 < b.1 := by
    have hle : (orderedStates entries).Pairwise fun a b => a.1 ≤ b.1 := by
      have hsort : (orderedStates entries).Pairwise fun a b => decide (a.1 ≤ b.1) = true :=
        pairwise_mergeSort
          (fun a b c hab hbc => by simpa using le_trans (by simpa using hab) (by simpa using hbc))
          (fun a b => by simpa using le_total a.1 b.1)
          ((latestStates entries).filterMap fun entry => entry.cursor.map (·, entry))
      exact hsort.imp fun hab => by simpa using hab
    have hne : (orderedStates entries).Pairwise fun a b => a.1 ≠ b.1 := by
      have hperm : (orderedStates entries).Perm ((latestStates entries).filterMap fun entry => entry.cursor.map (·, entry)) :=
        mergeSort_perm _ _
      refine (hperm.pairwise_iff fun {a b} hab => hab.symm).mpr ?_
      rw [pairwise_filterMap]
      have hkeys := latestStates_keys fun entry hentry => by
        obtain ⟨text, -, hkey, -⟩ := h entry hentry
        simp [hkey]
      refine hkeys.imp_of_mem fun {a b} ha hb hab x hx y hy heq => hab ?_
      obtain ⟨s, -, hs, hscursor⟩ := h a (mem_of_mem_latestStates ha)
      obtain ⟨t, -, ht, htcursor⟩ := h b (mem_of_mem_latestStates hb)
      rw [hscursor] at hx
      rw [htcursor] at hy
      cases hx
      cases hy
      rw [hs, ht]
      exact congrArg (fun text => some (SqlValue.text text)) heq
    exact hle.imp₂ (fun _ _ hab hne => lt_of_le_of_ne hab hne) hne
  have hlength : (orderedStates entries).length ≤ entries.length := by
    unfold orderedStates
    rw [length_mergeSort]
    exact (length_filterMap_le _ _).trans (latestStates_sublist entries).length_le
  have hbehind : Paging.behind Prod.fst (orderedStates entries) "" = orderedStates entries := by
    unfold Paging.behind
    rw [filter_eq_self]
    intro listed hlisted
    obtain ⟨hlatest, hlistedCursor⟩ := hmem listed hlisted
    obtain ⟨text, hne, -, hcursor⟩ := h listed.2 (mem_of_mem_latestStates hlatest)
    obtain rfl := Option.mem_unique hcursor hlistedCursor
    simpa using empty_lt hne
  rw [Paging.pages_eq hsorted (by decide), hbehind]
  rw [hbehind]
  omega

def outboundOpen (message : OutboundMessage) («at» : ℚ) : Append where
  id := message.sourceActionId ++ ":outbound"
  parentId := some message.sourceActionId
  sessionId := message.sourceSessionId
  kind := .message
  intent := record [("op", some (.str "open")), ("message", some message.toPlain)]
  effect := record [("outbound", some (Outbound.toPlain ⟨message, none⟩))]
  ts := «at»

/-- What the destination committed of a message: the message an answer carries, or the row's intent. -/
def receiptPayload (receipt : Receipt) : PlainValue :=
  match ((receipt.action.effect.get? "answer").bind Answer.ofPlain).bind (·.outbound) with
  | some outbound => outbound.toPlain
  | none => receipt.action.intent

variable [PlainCoding]

def receiptMatches (message : OutboundMessage) (receipt : Receipt) : Bool :=
  receipt.action.sessionId = message.destinationSessionId &&
    canonicalDigest (receiptPayload receipt) = canonicalDigest message.toPlain

/-- `acknowledge`; `none` is its throw. -/
def acknowledge (message : OutboundMessage) (receipt : Receipt) («at» : ℚ) : Option Append :=
  if receiptMatches message receipt then
    some {
      id := message.messageId ++ ":ack"
      parentId := some (message.sourceActionId ++ ":outbound")
      sessionId := message.sourceSessionId
      kind := .message
      intent := record [("op", some (.str "ack")), ("messageId", some (.str message.messageId))]
      effect := record [("outbound", some (Outbound.toPlain ⟨message, some ⟨receipt.action.id, receipt.revision⟩⟩))]
      ts := «at» }
  else none

/-- `outboundReceipt` of the rows of a file. -/
def outboundReceipt (actions : List Node) (destinationSessionId messageId : String) : Option Receipt :=
  (actions.find? fun a => a.sessionId = destinationSessionId &&
    ((a.kind = .prompt && a.id = messageId) ||
      (a.kind = .request && extractIs a.effect "phase" "answered" &&
        jsonExtract a.effect ["answer", "outbound", "messageId"] = some (.text messageId) &&
        ((a.effect.get? "answer").bind Answer.ofPlain).isSome))).map fun a => ⟨a, a.ordinal⟩

/-- The items that `dispatchSessionOutbound` goes through to the end. -/
def pendingOutbound (rows : List Node) : Option (List Outbound) := (outboundRows rows).map (·.filter (!·.delivered))

/-- The row that the redrive commits for a pending item: on the receipt its own file has, else on the one that
sending the message returns. -/
def redriveRow (actions : List Node) (send : OutboundMessage → Receipt) («at» : ℚ) (item : Outbound) : Option Append :=
  acknowledge item.message
    ((outboundReceipt actions item.message.destinationSessionId item.message.messageId).getD (send item.message)) «at»

end OpenOmni
