import OpenOmni.Journal.Delivery
import OpenOmni.Store.PendingTail
import OpenOmni.Store.TurnReads

/-! How a session routes what it finds at rest: the snapshot of an admission, and the decision on it. -/
namespace OpenOmni
open List

open SessionTurn

/-- `CAPABILITY_KINDS`. -/
def capabilityKinds : List Kind := [.tool, .compaction, .action]

/-- `admitInputKind(registered, kind) === "ok"`; the checkpoint kind is no journal kind. -/
def admitInputKind (registered : List Kind) (kind : Kind) : Bool :=
  if capabilityKinds.contains kind then registered.contains kind else kind ≠ .foldCheckpoint

lemma admitInputKind_input {registered : List Kind} (h : .action ∈ registered) (kind : InputKind) :
    admitInputKind registered (inputRowKind kind) = true := by
  cases kind with
  | action => simpa [admitInputKind, inputRowKind, capabilityKinds] using h
  | _ => rfl

structure AdmissionSnapshot where
  row : Row
  pending : List DeliveryRow
  opened : Option OpenTurn
  terminal : Option (Node × Terminal)
  capabilityKinds : Option (List Kind)

inductive AdmissionRefusal where
  | unknownKind | missingCapabilityKinds
deriving DecidableEq

inductive AdmissionDecision where
  | stop
  | start
  | refused (reason : Option AdmissionRefusal)
  | recover (opened : OpenTurn)
  | resume (item : DeliveryRow)
  | consume (items : List DeliveryRow)
deriving DecidableEq

def AdmissionDecision.isRefused : AdmissionDecision → Bool
  | .refused _ => true
  | _ => false

def InputKind.heads (kind : InputKind) : Bool := kind = .prompt || kind = .action

def decideIdleDeliveries (pending : List DeliveryRow) : AdmissionDecision :=
  if pending = [] then .stop
  else match pending.findIdx? fun item => item.kind.heads with
    | some 0 => .start
    | some first => .consume (pending.take first)
    | none => .consume pending

def decideSessionAdmission (snapshot : AdmissionSnapshot) : AdmissionDecision :=
  let { row, pending, opened, terminal, capabilityKinds } := snapshot
  match capabilityKinds with
  | none => .refused (some .missingCapabilityKinds)
  | some registered =>
    if pending.any fun item => !admitInputKind registered (inputRowKind item.kind) then .refused (some .unknownKind)
    else if pending.any fun item => item.sessionId ≠ row.id || item.status ≠ .pending then .refused none
    else if opened.any fun turn => turn.action.sessionId ≠ row.id then .refused none
    else if terminal.any fun found => found.1.sessionId ≠ row.id then .refused none
    else match row.state with
      | .running => match opened with
        | none => .refused none
        | some turn => .recover turn
      | .interrupted => match opened with
        | some turn => .recover turn
        | none => match pending.find? fun input => input.kind = .resume with
          | none => .stop
          | some item =>
            if terminal.any fun found => found.2.kind = .interrupted then .resume item else .consume [item]
      | .idle => if opened.isNone then decideIdleDeliveries pending else .refused none

lemma decideIdleDeliveries_accepts (pending : List DeliveryRow) :
    (decideIdleDeliveries pending).isRefused = false := by
  unfold decideIdleDeliveries
  split
  · rfl
  · split <;> rfl

structure AdmissionSnapshot.Owned (snapshot : AdmissionSnapshot) : Prop where
  pending : ∀ item ∈ snapshot.pending, item.sessionId = snapshot.row.id ∧ item.status = .pending
  opened : ∀ turn ∈ snapshot.opened, turn.action.sessionId = snapshot.row.id
  terminal : ∀ found ∈ snapshot.terminal, found.1.sessionId = snapshot.row.id

theorem decideSessionAdmission_idle {snapshot : AdmissionSnapshot} {registered : List Kind} (howned : snapshot.Owned)
    (hkinds : snapshot.capabilityKinds = some registered) (haction : .action ∈ registered)
    (hidle : snapshot.row.state = .idle) (hopened : snapshot.opened = none) :
    decideSessionAdmission snapshot = decideIdleDeliveries snapshot.pending := by
  obtain ⟨row, pending, opened, terminal, kinds⟩ := snapshot
  dsimp only at hkinds hidle hopened
  subst hkinds hopened
  have hadmits : (pending.any fun item => !admitInputKind registered (inputRowKind item.kind)) = false := by
    simp [admitInputKind_input haction]
  have hpending : ¬ (pending.any fun item => decide (item.sessionId ≠ row.id) || decide (item.status ≠ .pending)) =
      true := by
    rw [any_eq_true]
    rintro ⟨item, hitem, hforeign⟩
    have hitem := howned.pending item hitem
    simp [hitem.1, hitem.2] at hforeign
  have hterminal : ¬ (terminal.any fun found => decide (found.1.sessionId ≠ row.id)) = true := by
    cases terminal with
    | none => simp
    | some found => simp [howned.terminal found rfl]
  unfold decideSessionAdmission
  dsimp only
  rw [hadmits, if_neg Bool.false_ne_true, if_neg hpending, if_neg (by simp), if_neg hterminal, hidle]
  rfl

lemma openDeliveryRow_owned {action : Node} {index : ℕ} {item : DeliveryRow}
    (h : openDeliveryRow action index = some item) : item.sessionId = action.sessionId ∧ item.status = .pending := by
  unfold openDeliveryRow at h
  simp only [Option.bind_eq_bind, Option.bind_eq_some_iff] at h
  obtain ⟨kind, -, content, -, delivery, -, h⟩ := h
  cases h
  exact ⟨rfl, rfl⟩

section
variable [PlainCoding] (numText : ℚ → String)

/-- `admissionSnapshot` of the session's rows; `none` is a throw of its reads. -/
def admissionSnapshot (row : Row) (rows : List Node) (capabilityKinds : Option (List Kind)) :
    Option AdmissionSnapshot := do
  let pending ← pendingRows numText rows
  let opened ← latestOpenTurnIn rows
  return ⟨row, pending, opened, latestTurnTerminal rows, capabilityKinds⟩

variable {numText}

theorem admissionSnapshot_owned {row : Row} {rows : List Node} {kinds : Option (List Kind)} {snapshot : AdmissionSnapshot}
    (hrows : ∀ node ∈ rows, node.sessionId = row.id) (h : admissionSnapshot numText row rows kinds = some snapshot) :
    snapshot.Owned ∧ snapshot.row = row ∧ snapshot.capabilityKinds = kinds ∧
      pendingRows numText rows = some snapshot.pending ∧ latestOpenTurnIn rows = some snapshot.opened := by
  unfold admissionSnapshot at h
  obtain ⟨pending, hpending, h⟩ := Option.bind_eq_some_iff.mp h
  obtain ⟨opened, hopened, h⟩ := Option.bind_eq_some_iff.mp h
  cases h
  refine ⟨⟨fun item hitem => ?_, fun turn hturn => ?_, fun found hfound => ?_⟩, rfl, rfl, hpending, hopened⟩
  · obtain ⟨-, rfl⟩ := openDeliveryRows_eq_some.mp hpending
    obtain ⟨index, hindex, rfl⟩ := mem_mapIdx.mp hitem
    obtain ⟨action, haction, hfirst⟩ := mem_filterMap.mp (getElem_mem hindex)
    obtain ⟨hsession, hstatus⟩ := openDeliveryRow_owned hfirst
    exact ⟨hsession.trans (hrows action (mem_of_mem_filter haction)), hstatus⟩
  · dsimp only at hturn
    rw [Option.mem_def] at hturn
    exact hrows _ (latestOpenTurnIn_action (hturn ▸ hopened))
  · obtain ⟨action, haction, hterminal⟩ := Option.bind_eq_some_iff.mp hfound
    obtain ⟨terminal, -, hpair⟩ := Option.bind_eq_some_iff.mp hterminal
    cases hpair
    exact hrows _ (mem_of_mem_filter (mem_of_getLast? haction))

end

end OpenOmni
