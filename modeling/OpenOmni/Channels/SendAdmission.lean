import Mathlib
import OpenOmni.Channels.ReplyDoor
import OpenOmni.Channels.Translate
import OpenOmni.Protocol.Plain

/-! The egress budget: its debit rows, the window they are counted in, and the claim of one more. -/
namespace OpenOmni
namespace Egress
open List

inductive MessageClass where
  | notify | converse
deriving DecidableEq

def MessageClass.text : MessageClass → String
  | .notify => "notify"
  | .converse => "converse"

structure ClassCaps where
  notify : Option ℕ
  converse : Option ℕ

structure QuietHours where
  startMinuteUtc : ℕ
  endMinuteUtc : ℕ

structure SocialBudget where
  targetActorId : String
  maxPerWindow : ℕ
  windowMs : ℕ
  cooldownMs : ℕ
  classCaps : Option ClassCaps
  quietHours : Option QuietHours
  doNotContact : Bool
  expiresAt : Option ℚ

structure EgressDebitRow where
  id : String
  senderId : String
  targetActorId : String
  «class» : MessageClass
  «at» : ℚ
deriving DecidableEq

structure EgressDebitState where
  countInWindow : ℕ
  notifyInWindow : ℕ
  converseInWindow : ℕ
  lastSendAt : Option ℚ

inductive MessageDenialCode where
  | requestDuplicate | approvalRequired | dncDenied | budgetExhausted | cooldownSuppressed
deriving DecidableEq

def MessageDenialCode.text : MessageDenialCode → String
  | .requestDuplicate => "request_duplicate"
  | .approvalRequired => "approval_required"
  | .dncDenied => "dnc_denied"
  | .budgetExhausted => "budget_exhausted"
  | .cooldownSuppressed => "cooldown_suppressed"

inductive Verdict where
  | allow
  | suppress (code : MessageDenialCode)

/-- `minuteOfDayUtc` of an instant that is not before the epoch. -/
def minuteOfDayUtc («at» : ℚ) : ℤ := ⌊«at» / 60000⌋ % (24 * 60)

/-- `withinQuietHours`: a window that starts behind its end wraps past midnight. -/
def withinQuietHours («at» : ℚ) (quietHours : QuietHours) : Bool :=
  let minute := minuteOfDayUtc «at»
  if quietHours.startMinuteUtc = quietHours.endMinuteUtc then false
  else if quietHours.startMinuteUtc < quietHours.endMinuteUtc then
    decide ((quietHours.startMinuteUtc : ℤ) ≤ minute ∧ minute < quietHours.endMinuteUtc)
  else decide ((quietHours.startMinuteUtc : ℤ) ≤ minute ∨ minute < quietHours.endMinuteUtc)

def classCap (budget : SocialBudget) (sendClass : MessageClass) : Option ℕ :=
  budget.classCaps.bind fun caps => match sendClass with
    | .notify => caps.notify
    | .converse => caps.converse

def EgressDebitState.classCount (state : EgressDebitState) : MessageClass → ℕ
  | .notify => state.notifyInWindow
  | .converse => state.converseInWindow

/-- `evaluateSocialBudget` with a budget in hand. -/
def evaluateSocialBudget (budget : SocialBudget) (state : EgressDebitState) (sendClass : MessageClass)
    («at» : ℚ) : Verdict :=
  if budget.doNotContact then .suppress .dncDenied
  else if (budget.expiresAt.any fun expiresAt => decide (expiresAt < «at»)) then .suppress .budgetExhausted
  else if budget.quietHours.any (withinQuietHours «at») then .suppress .cooldownSuppressed
  else if (state.lastSendAt.any fun lastSendAt =>
      decide (0 < budget.cooldownMs ∧ «at» - lastSendAt < budget.cooldownMs)) then .suppress .cooldownSuppressed
  else if budget.maxPerWindow ≤ state.countInWindow then .suppress .budgetExhausted
  else if ((classCap budget sendClass).any fun cap => decide (cap ≤ state.classCount sendClass)) then
    .suppress .budgetExhausted
  else .allow

variable {budget : SocialBudget} {rows debits : List EgressDebitRow} {row : EgressDebitRow}

theorem evaluateSocialBudget_allow {state : EgressDebitState} {sendClass : MessageClass} {now : ℚ}
    (h : evaluateSocialBudget budget state sendClass now = .allow) : state.countInWindow < budget.maxPerWindow ∧
      ∀ last, state.lastSendAt = some last → 0 < budget.cooldownMs → (budget.cooldownMs : ℚ) ≤ now - last := by
  unfold evaluateSocialBudget at h
  split at h
  · cases h
  · split at h
    · cases h
    · split at h
      · cases h
      · split at h
        · cases h
        · rename_i hcooldown
          split at h
          · cases h
          · rename_i hcount
            refine ⟨by omega, ?_⟩
            intro last hlast hpos
            by_contra hlt
            apply hcooldown
            rw [hlast]
            simp only [Option.any_some, decide_eq_true_eq]
            exact ⟨hpos, lt_of_not_ge hlt⟩

def pairRows (debits : List EgressDebitRow) (senderId targetActorId : String) : List EgressDebitRow :=
  debits.filter fun row => row.senderId = senderId ∧ row.targetActorId = targetActorId

/-- `MAX(at)`. -/
def lastSendAt : List EgressDebitRow → Option ℚ
  | [] => none
  | row :: rows => some (match lastSendAt rows with
    | some last => max row.at last
    | none => row.at)

lemma le_lastSendAt (h : row ∈ rows) : ∃ last, lastSendAt rows = some last ∧ row.at ≤ last := by
  induction rows with
  | nil => cases h
  | cons head rows ih =>
    rcases mem_cons.mp h with rfl | h
    · refine ⟨_, rfl, ?_⟩
      cases lastSendAt rows with
      | none => exact le_refl _
      | some last => exact le_max_left _ _
    · obtain ⟨last, hlast, hle⟩ := ih h
      refine ⟨max head.at last, ?_, le_trans hle (le_max_right _ _)⟩
      simp [lastSendAt, hlast]

/-- `read`: the projection of a pair's debits, counted from the start of the window on. -/
def read (debits : List EgressDebitRow) (senderId targetActorId : String) (windowStartAt : ℚ) : EgressDebitState :=
  let rows := pairRows debits senderId targetActorId
  { countInWindow := rows.countP fun row => windowStartAt ≤ row.at
    notifyInWindow := rows.countP fun row => windowStartAt ≤ row.at ∧ row.class = .notify
    converseInWindow := rows.countP fun row => windowStartAt ≤ row.at ∧ row.class = .converse
    lastSendAt := lastSendAt rows }

inductive ClaimResult where
  | claimed
  | refused (code : MessageDenialCode)

/-- `claim`: a row under the same id answers for itself when it is the same row and is an invariant broken
when it is not; a new row is judged by the window it falls in and appended. -/
def claim (debits : List EgressDebitRow) (row : EgressDebitRow) (windowStartAt : ℚ)
    (evaluate : EgressDebitState → Verdict) : Except String (List EgressDebitRow × ClaimResult) :=
  match debits.find? (·.id = row.id) with
  | some existing =>
    if existing.senderId ≠ row.senderId ∨ existing.targetActorId ≠ row.targetActorId ∨
        existing.class ≠ row.class ∨ existing.at ≠ row.at then
      .error ("egress debit id " ++ row.id ++ " already identifies a different claim")
    else .ok (debits, .claimed)
  | none =>
    match evaluate (read debits row.senderId row.targetActorId windowStartAt) with
    | .suppress code => .ok (debits, .refused code)
    | .allow => .ok (debits ++ [row], .claimed)

lemma claim_found {existing : EgressDebitRow} (h : debits.find? (·.id = row.id) = some existing) (windowStartAt : ℚ)
    (evaluate : EgressDebitState → Verdict) : claim debits row windowStartAt evaluate =
      if existing = row then .ok (debits, .claimed)
      else .error ("egress debit id " ++ row.id ++ " already identifies a different claim") := by
  have hid : existing.id = row.id := by simpa using find?_some h
  have hsame : existing = row ↔ ¬ (existing.senderId ≠ row.senderId ∨ existing.targetActorId ≠ row.targetActorId ∨
      existing.class ≠ row.class ∨ existing.at ≠ row.at) := by
    cases existing
    cases row
    simp only at hid
    simp only [EgressDebitRow.mk.injEq, ne_eq]
    tauto
  unfold claim
  rw [h]
  by_cases heq : existing = row
  · simp only [if_neg (hsame.mp heq), if_pos heq]
  · have hdiffer := not_not.mp (mt hsame.mpr heq)
    simp only [if_pos hdiffer, if_neg heq]

def inWindow (start : ℚ) (length : ℕ) (row : EgressDebitRow) : Bool :=
  decide (start ≤ row.at ∧ row.at ≤ start + length)

/-- What a budget promises of the debits of one sender and target. -/
structure WithinBudget (budget : SocialBudget) (rows : List EgressDebitRow) : Prop where
  window : ∀ start, rows.countP (inWindow start budget.windowMs) ≤ budget.maxPerWindow
  cooldown : rows.Pairwise fun earlier later => (budget.cooldownMs : ℚ) ≤ |later.at - earlier.at|

lemma withinBudget_nil (budget : SocialBudget) : WithinBudget budget [] where
  window := by simp
  cooldown := .nil

/-- A claim that the budget allows keeps what it promises, whatever the order of the clocks: the window it is
judged by reaches from its own start past every later row. -/
theorem WithinBudget.append (h : WithinBudget budget rows)
    (hcount : (rows.countP fun r => row.at - budget.windowMs ≤ r.at) < budget.maxPerWindow)
    (hcooldown : ∀ last, lastSendAt rows = some last → 0 < budget.cooldownMs →
      (budget.cooldownMs : ℚ) ≤ row.at - last) : WithinBudget budget (rows ++ [row]) where
  window := by
    intro start
    rw [countP_append]
    by_cases hin : inWindow start budget.windowMs row = true
    · have hle : rows.countP (inWindow start budget.windowMs) ≤
          rows.countP fun r => row.at - budget.windowMs ≤ r.at := by
        apply countP_mono_left
        intro r _ hr
        simp only [inWindow, decide_eq_true_eq] at hin hr ⊢
        linarith [hin.2, hr.1]
      simp only [countP_singleton, hin, if_true]
      omega
    · simp only [countP_singleton, hin, Bool.false_eq_true, if_false, Nat.add_zero]
      exact h.window start
  cooldown := by
    rw [pairwise_append]
    refine ⟨h.cooldown, pairwise_singleton _ _, ?_⟩
    intro earlier hearlier later hlater
    obtain rfl := mem_singleton.mp hlater
    rcases Nat.eq_zero_or_pos budget.cooldownMs with hzero | hpos
    · rw [hzero]
      simp
    · obtain ⟨last, hlast, hle⟩ := le_lastSendAt hearlier
      have hfar := hcooldown last hlast hpos
      have habs := le_abs_self (later.at - earlier.at)
      linarith

lemma pairRows_append (debits : List EgressDebitRow) (row : EgressDebitRow) (senderId targetActorId : String) :
    pairRows (debits ++ [row]) senderId targetActorId =
      if row.senderId = senderId ∧ row.targetActorId = targetActorId then
        pairRows debits senderId targetActorId ++ [row]
      else pairRows debits senderId targetActorId := by
  unfold pairRows
  rw [filter_append]
  split
  · rename_i h
    simp [h]
  · rename_i h
    simp [h]

def UniqueIds (debits : List EgressDebitRow) : Prop := (debits.map (·.id)).Nodup

theorem UniqueIds.find? (h : UniqueIds debits) (hrow : row ∈ debits) : debits.find? (·.id = row.id) = some row := by
  induction debits with
  | nil => cases hrow
  | cons head debits ih =>
    rw [UniqueIds, map_cons, nodup_cons] at h
    rcases mem_cons.mp hrow with rfl | hrow
    · simp
    · have hne : head.id ≠ row.id := by
        intro heq
        exact h.1 (mem_map.mpr ⟨row, hrow, heq.symm⟩)
      rw [find?_cons_of_neg (by simpa using hne)]
      exact ih h.2 hrow

lemma UniqueIds.append (h : UniqueIds debits) (hnew : debits.find? (·.id = row.id) = none) :
    UniqueIds (debits ++ [row]) := by
  rw [UniqueIds, map_append, map_singleton, nodup_append]
  refine ⟨h, nodup_singleton _, ?_⟩
  intro id hid other hother
  obtain rfl := mem_singleton.mp hother
  rintro rfl
  obtain ⟨r, hr, heq⟩ := mem_map.mp hid
  have := find?_eq_none.mp hnew r hr
  simp [heq] at this

inductive MessageOperation where
  | fireAndForget | awaited
deriving DecidableEq

/-- `Outbound.Payload` as it is signed. -/
inductive SendPayload where
  | parts (parts : List Translate.Part)
  | spec (spec : PlainValue)
  | react (messageId emoji : String) (replaces : Option String)
deriving DecidableEq

structure SendInput where
  messageId : String
  senderId : String
  targetActorId : String
  operation : MessageOperation
  payload : SendPayload
  «at» : ℚ
  requestSpec : Option PlainValue
  «class» : Option MessageClass
  consented : Bool

structure DeliveryTarget where
  actorId : String
  endpointId : String
  channel : String
  externalId : String
  identity : ChannelIdentity
  conversation : Option PlainValue

/-- A send whose grant is checked. `authorizeSend` resolves the target of the actor the input names. -/
structure AuthorizedSend where
  input : SendInput
  target : DeliveryTarget
  actor : target.actorId = input.targetActorId

inductive SignedContent where
  | body (text : String)
  | payload (payload : SendPayload)
deriving DecidableEq

/-- `signedContent`: one plain text part signs as its body. -/
def signedContent : SendPayload → SignedContent
  | .parts [.text text] => .body text
  | payload => .payload payload

/-- `signedTarget`: the identity of the bot is not signed. -/
structure SignedTarget where
  actorId : String
  endpointId : String
  channel : String
  externalId : String
  conversation : Option PlainValue
  owner : Bool
deriving DecidableEq

def signedTarget (target : DeliveryTarget) : SignedTarget where
  actorId := target.actorId
  endpointId := target.endpointId
  channel := target.channel
  externalId := target.externalId
  conversation := target.conversation
  owner := target.identity = .owner

/-- The value `sendSignature` writes as JSON. The clock of the attempt is not in it. -/
structure Signature where
  messageId : String
  senderId : String
  operation : MessageOperation
  «class» : Option MessageClass
  content : SignedContent
  target : SignedTarget
  requestSpec : Option PlainValue
deriving DecidableEq

def sendSignature (send : AuthorizedSend) : Signature where
  messageId := send.input.messageId
  senderId := send.input.senderId
  operation := send.input.operation
  «class» := send.input.class
  content := signedContent send.input.payload
  target := signedTarget send.target
  requestSpec := send.input.requestSpec

/-- The characters `encodeURIComponent` leaves as they are. -/
def uriUnreserved (c : Char) : Bool := c.isAlphanum || c ∈ "-_.!~*'()".toList

def hexDigit (n : ℕ) : Char := if n < 10 then Char.ofNat (48 + n) else Char.ofNat (55 + n)

def encodeURIComponent (s : String) : String :=
  String.join (s.toList.map fun c =>
    if uriUnreserved c then c.toString
    else String.join ((c.toString.toUTF8.toList).map fun b =>
      String.ofList ['%', hexDigit (b.toNat / 16), hexDigit (b.toNat % 16)]))

def sendStreamId (messageId : String) : String := "gateway_send:" ++ encodeURIComponent messageId

structure SendAdmission where
  signature : Signature
  budgeted : Bool
  sendClass : MessageClass
deriving DecidableEq

/-- The admission facts by their stream, and the debit rows. The two lie in different databases. -/
structure Stores where
  facts : Dict String SendAdmission
  debits : List EgressDebitRow
deriving DecidableEq

structure Ports where
  budgets : Option (List SocialBudget)
  ownerTier : String → Bool

inductive Outcome where
  | admitted (admission : SendAdmission)
  | denied (code : MessageDenialCode) (reason : String)
  /-- `SendAdmissionConflict` is thrown. -/
  | conflict (message : String)
  /-- `ChannelStoreInvariant` is thrown. -/
  | storeInvariant (message : String)
  | crashed
deriving DecidableEq

def classOf (operation : MessageOperation) («class» : Option MessageClass) : MessageClass :=
  «class».getD (if operation = .awaited then .converse else .notify)

def sendClass (input : SendInput) : MessageClass := classOf input.operation input.class

/-- `existingAdmission`: the recorded admission, or the message of its conflict. -/
def existingAdmission (stores : Stores) (send : AuthorizedSend) : Option (Except String SendAdmission) :=
  (stores.facts.get? (sendStreamId send.input.messageId)).map fun admission =>
    if admission.signature ≠ sendSignature send then
      .error ("message id " ++ send.input.messageId ++ " was already admitted with different content")
    else .ok admission

/-- `recordAdmission`: an insert that a recorded fact is not overwritten by. -/
def recordAdmission (stores : Stores) (send : AuthorizedSend) (budgeted : Bool) (sendClass : MessageClass) :
    Except String (Stores × SendAdmission) :=
  let admission : SendAdmission := ⟨sendSignature send, budgeted, sendClass⟩
  match existingAdmission stores send with
  | none => .ok ({ stores with facts := stores.facts.set (sendStreamId send.input.messageId) admission }, admission)
  | some (.ok raced) => .ok (stores, raced)
  | some (.error message) => .error message

def debitId (messageId : String) : String := "gateway-send:" ++ messageId

def debitRow (input : SendInput) (sendClass : MessageClass) : EgressDebitRow where
  id := debitId input.messageId
  senderId := input.senderId
  targetActorId := input.targetActorId
  «class» := sendClass
  «at» := input.at

/-- `repairBudgetDebit`: the debit of a budgeted admission, claimed past every budget. -/
def repairBudgetDebit (stores : Stores) (input : SendInput) (admission : SendAdmission) : Except String Stores :=
  if admission.budgeted then
    (claim stores.debits (debitRow input admission.sendClass) input.at fun _ => .allow).map fun claimed =>
      { stores with debits := claimed.1 }
  else .ok stores

def activeBudgetFor (budgets : Option (List SocialBudget)) (targetActorId : String) («at» : ℚ) : Option SocialBudget :=
  budgets.bind (·.find? fun candidate => candidate.targetActorId = targetActorId ∧
    candidate.expiresAt.all fun expiresAt => decide («at» < expiresAt))

/-- The gate of a send without a budget: the Owner's consent, or the Owner as its target. -/
def needsConsent (ports : Ports) (input : SendInput) : Bool :=
  ports.budgets.isSome && (activeBudgetFor ports.budgets input.targetActorId input.at).isNone &&
    !input.consented && !ports.ownerTier input.targetActorId

inductive Crash where
  | never | afterDebit | afterFact
deriving DecidableEq

/-- The end of an admission behind its debit: the fact, and the repair of the debit it may lack. -/
def recordAndRepair (stores : Stores) (send : AuthorizedSend) (budgeted : Bool) (crash : Crash) : Stores × Outcome :=
  if crash = .afterDebit then (stores, .crashed)
  else match recordAdmission stores send budgeted (sendClass send.input) with
    | .error message => (stores, .conflict message)
    | .ok (recorded, admission) =>
      if crash = .afterFact then (recorded, .crashed)
      else match repairBudgetDebit recorded send.input admission with
        | .error message => (recorded, .storeInvariant message)
        | .ok repaired => (repaired, .admitted admission)

/-- `admitSend` of an id whose admission is recorded with this content. -/
def admitKnown (stores : Stores) (send : AuthorizedSend) (admission : SendAdmission) : Stores × Outcome :=
  match repairBudgetDebit stores send.input admission with
  | .error message => (stores, .storeInvariant message)
  | .ok repaired => (repaired, .admitted admission)

/-- `admitSend` of a new id under the budget in force. -/
def admitWithin (stores : Stores) (send : AuthorizedSend) (budget : SocialBudget) (crash : Crash) : Stores × Outcome :=
  let input := send.input
  match claim stores.debits (debitRow input (sendClass input)) (input.at - budget.windowMs)
      (fun state => evaluateSocialBudget budget state (sendClass input) input.at) with
  | .error message => (stores, .storeInvariant message)
  | .ok (_, .refused code) =>
    (stores, .denied code ("active-egress budget suppressed a " ++ (sendClass input).text ++ " send " ++
      input.senderId ++ " -> " ++ input.targetActorId ++ " (" ++ code.text ++ ")"))
  | .ok (debits, .claimed) => recordAndRepair { stores with debits := debits } send true crash

/-- `admitSend` of a new id. -/
def admitNew (stores : Stores) (ports : Ports) (send : AuthorizedSend) (crash : Crash) : Stores × Outcome :=
  let input := send.input
  if needsConsent ports input then
    (stores, .denied .approvalRequired ("no Owner-declared budget for " ++ input.targetActorId ++ ": a " ++
      (sendClass input).text ++ " send " ++ input.senderId ++ " -> " ++ input.targetActorId ++
      " needs the Owner's consent"))
  else match activeBudgetFor ports.budgets input.targetActorId input.at with
    | none => recordAndRepair stores send false crash
    | some budget => admitWithin stores send budget crash

/-- `admitSend`, and where the process ends inside it. What is thrown rolls the ledger's fact back, but none
is written before a throw can happen. -/
def admitSend (stores : Stores) (ports : Ports) (send : AuthorizedSend) (crash : Crash) : Stores × Outcome :=
  match existingAdmission stores send with
  | some (.error message) =>
    if send.input.operation = .awaited then (stores, .denied .requestDuplicate message)
    else (stores, .conflict message)
  | some (.ok admission) => admitKnown stores send admission
  | none => admitNew stores ports send crash

end Egress
end OpenOmni
