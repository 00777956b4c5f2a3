import OpenOmni.Protocol.SessionTurn

/-! The rows of received and delivered inputs, and which inputs a boundary consumes. -/
namespace OpenOmni
open List

open PlainValue SessionTurn

def inputRowKind : InputKind → Kind
  | .prompt => .prompt
  | .action => .action
  | .interrupt | .resume | .cancel => .signal

inductive DeliveryTarget where
  | turn (turnId : String)
  | pending

/-- `EncodedPayload` of a value. -/
def encoded (value : PlainValue) : PlainValue := record [("encodingVersion", some (.num 1)), ("value", some value)]

def InputKind.isControl : InputKind → Bool
  | .interrupt | .resume | .cancel => true
  | .prompt | .action => false

/-- One row of `deliveryActions`. -/
def deliveryAction (item : DeliveryRow) (target : DeliveryTarget) (boundary : Boundary) (parentId : Option String) :
    Append where
  id := item.id ++ ":delivery"
  parentId := parentId
  sessionId := item.sessionId
  kind := inputRowKind item.kind
  intent :=
    if item.kind.isControl then
      record [("deliveryId", some (.str item.id)), ("control", some (.str item.kind.text))]
    else
      record [("deliveryId", some (.str item.id)), ("delivery", some (.str (item.delivery.getD .followUp).text))]
  effect := record [("phase", some (.str "delivery")),
    ("turnId", some (.str (match target with | .turn turnId => turnId | .pending => item.id))),
    ("deliveryId", some (.str item.id)), ("kind", some (.str item.kind.text)),
    ("content", some (.str item.content)), ("origin", some (encoded item.origin)),
    ("boundary", some (.str boundary.text))]
  ts := item.createdAt

/-- `deliveryActions`: each row stands under the one before. -/
def deliveryActions (items : List DeliveryRow) (target : DeliveryTarget) (boundary : Boundary)
    (parentId : Option String) : List Append :=
  match items with
  | [] => []
  | item :: items =>
    deliveryAction item target boundary parentId ::
      deliveryActions items target boundary (some (item.id ++ ":delivery"))

def receivedMessageAction (id sessionId : String) (kind : InputKind) (content : String) (origin : PlainValue)
    (parentActionId : Option String) («at» : ℚ) (delivery : Option DeliveryWidth) : Append where
  id := id
  parentId := parentActionId
  sessionId := sessionId
  kind := inputRowKind kind
  intent := origin
  effect := record [("deliveryKind", some (.str kind.text)), ("content", some (.str content)),
    ("delivery", delivery.map fun width => .str width.text)]
  ts := «at»

/-- An `action` input that was computed against an older compaction head. -/
def isStale (compactionHead : ℕ) (row : DeliveryRow) : Bool :=
  row.kind = .action && row.after.any (· < compactionHead)

/-- `staleActionBacklog`: the live rows and the stale ones. -/
def staleActionBacklog (backlog : List DeliveryRow) (compactionHead : ℕ) : List DeliveryRow × List DeliveryRow :=
  (backlog.filter fun row => !isStale compactionHead row, backlog.filter (isStale compactionHead))

inductive ConsumptionWidth where
  | all | one

structure ConsumptionSettings where
  steering : ConsumptionWidth
  followUp : ConsumptionWidth

def ConsumptionWidth.take (mode : ConsumptionWidth) (rows : List DeliveryRow) : List DeliveryRow :=
  match mode with
  | .one => rows.take 1
  | .all => rows

structure Consumption where
  consumed : List DeliveryRow
  stale : List DeliveryRow

def chosenIds (live : List DeliveryRow) (boundary : Boundary) (settings : ConsumptionSettings) : List String :=
  let inputs := live.filter fun item => !item.kind.isControl
  let steer := inputs.filter fun item => item.delivery.getD .followUp = .steer
  let followUp := inputs.filter fun item => item.delivery.getD .followUp = .followUp
  (live.filter (·.kind.isControl) ++
    (if boundary = .afterTools ∨ boundary = .turnEnd then settings.steering.take steer else []) ++
    (if boundary = .turnEnd then settings.followUp.take followUp else [])).map (·.id)

def boundaryConsumption (backlog : List DeliveryRow) (boundary : Boundary) (settings : ConsumptionSettings)
    (compactionHead : ℕ) : Consumption :=
  let (live, stale) := staleActionBacklog backlog compactionHead
  ⟨live.filter fun item => (chosenIds live boundary settings).contains item.id, stale⟩

/-- What is left of a backlog: the inputs that the consumption has no row for. -/
def Consumption.remaining (c : Consumption) (backlog : List DeliveryRow) : List DeliveryRow :=
  backlog.filter fun item => !(c.consumed ++ c.stale).contains item

/-- The lane an input waits in; controls wait in none. -/
def DeliveryRow.lane (row : DeliveryRow) : Option DeliveryWidth :=
  if row.kind.isControl then none else some (row.delivery.getD .followUp)

/-- A boundary that is reached, with the inputs that arrived before it. -/
structure Drain where
  arrived : List DeliveryRow
  boundary : Boundary
  settings : ConsumptionSettings
  compactionHead : ℕ

structure Drained extends Consumption where
  left : List DeliveryRow

/-- What boundaries reached one after another make of a backlog. -/
def drained : List DeliveryRow → List Drain → Drained
  | backlog, [] => ⟨⟨[], []⟩, backlog⟩
  | backlog, d :: ds =>
    let c := boundaryConsumption (backlog ++ d.arrived) d.boundary d.settings d.compactionHead
    let later := drained (c.remaining (backlog ++ d.arrived)) ds
    ⟨⟨c.consumed ++ later.consumed, c.stale ++ later.stale⟩, later.left⟩

section
variable {backlog live : List DeliveryRow} {boundary : Boundary} {settings : ConsumptionSettings} {compactionHead : ℕ}
  {item : DeliveryRow} {drains : List Drain}

lemma boundaryConsumption_consumed : (boundaryConsumption backlog boundary settings compactionHead).consumed.Sublist
    backlog := filter_sublist.trans filter_sublist

/-- What a boundary takes of the inputs of one lane. -/
def taken (live : List DeliveryRow) (boundary : Boundary) (settings : ConsumptionSettings) : Option DeliveryWidth → List DeliveryRow
  | none => live.filter (·.lane = none)
  | some .steer => if boundary = .afterTools ∨ boundary = .turnEnd then
      settings.steering.take (live.filter (·.lane = some .steer)) else []
  | some .followUp => if boundary = .turnEnd then settings.followUp.take (live.filter (·.lane = some .followUp)) else []

lemma taken_isPrefix (live : List DeliveryRow) (boundary : Boundary) (settings : ConsumptionSettings)
    (lane : Option DeliveryWidth) : taken live boundary settings lane <+: live.filter (·.lane = lane) := by
  have htake : ∀ (mode : ConsumptionWidth) (rows : List DeliveryRow), mode.take rows <+: rows := by
    rintro (_ | _) rows
    · exact prefix_rfl
    · exact take_prefix _ _
  rcases lane with _ | _ | _
  · exact prefix_rfl
  all_goals
    simp only [taken]
    split
    · exact htake _ _
    · exact nil_prefix

lemma chosenIds_eq : chosenIds live boundary settings =
    (taken live boundary settings none ++ taken live boundary settings (some .steer) ++
      taken live boundary settings (some .followUp)).map (·.id) := by
  have hinputs : ∀ width, (live.filter fun item => !item.kind.isControl).filter
      (fun item => item.delivery.getD .followUp = width) = live.filter (·.lane = some width) := by
    intro width
    rw [filter_filter]
    refine filter_congr fun item _ => ?_
    cases hcontrol : item.kind.isControl <;> simp [DeliveryRow.lane, hcontrol]
  have hcontrols : live.filter (·.kind.isControl) = live.filter (·.lane = none) :=
    filter_congr fun item _ => by simp [DeliveryRow.lane]
  simp only [chosenIds, hinputs, hcontrols, taken]

lemma chosen_iff (hids : (live.map (·.id)).Nodup) (hitem : item ∈ live) :
    (chosenIds live boundary settings).contains item.id = true ↔ item ∈ taken live boundary settings item.lane := by
  have hlane : ∀ {lane x}, x ∈ taken live boundary settings lane → x ∈ live ∧ x.lane = lane := fun hx => by
    simpa using (taken_isPrefix _ _ _ _).subset hx
  rw [contains_iff_mem, chosenIds_eq, mem_map]
  constructor
  · rintro ⟨x, hx, hid⟩
    obtain ⟨lane, hx⟩ : ∃ lane, x ∈ taken live boundary settings lane := by
      rcases mem_append.mp hx with hx | hx
      · rcases mem_append.mp hx with hx | hx
        · exact ⟨_, hx⟩
        · exact ⟨_, hx⟩
      · exact ⟨_, hx⟩
    rwa [← inj_on_of_nodup_map hids (hlane hx).1 hitem hid, (hlane hx).2]
  · intro hx
    refine ⟨item, ?_, rfl⟩
    rcases hl : item.lane with _ | _ | _ <;> rw [hl] at hx <;> simp [hx]

lemma boundaryConsumption_lane (boundary : Boundary) (settings : ConsumptionSettings) (compactionHead : ℕ)
    (hids : (backlog.map (·.id)).Nodup) : let c := boundaryConsumption backlog boundary settings compactionHead
    (c.consumed ++ c.stale ++ c.remaining backlog).Perm backlog ∧ (∀ item ∈ c.stale, item.lane ≠ none) ∧
      (∀ item ∈ c.remaining backlog, item.lane ≠ none) ∧
      ∀ lane, (c.consumed.filter (·.lane = lane) ++ (c.remaining backlog).filter (·.lane = lane)).Sublist
        (backlog.filter (·.lane = lane)) := by
  intro c
  set live := backlog.filter fun row => !isStale compactionHead row with hlive
  set chosen := fun item : DeliveryRow => (chosenIds live boundary settings).contains item.id with hchosen
  have hsub : live.Sublist backlog := filter_sublist
  have hlids : (live.map (·.id)).Nodup := hids.sublist (hsub.map _)
  have hconsumed : c.consumed = live.filter chosen := rfl
  have hstale : c.stale = backlog.filter (isStale compactionHead) := rfl
  have hremaining : c.remaining backlog = live.filter (!chosen ·) := by
    rw [Consumption.remaining, hlive, filter_filter]
    refine filter_congr fun item hitem => ?_
    rw [Bool.eq_iff_iff, contains_eq_mem, Bool.not_eq_true', decide_eq_false_iff_not, hconsumed, hstale, hlive]
    simp only [mem_append, mem_filter, hitem, true_and]
    cases isStale compactionHead item <;> cases chosen item <;> simp
  have hcontrol : ∀ item ∈ live, item.lane = none → chosen item = true := by
    intro item hitem hlane
    rw [hchosen, chosen_iff hlids hitem, hlane]
    simpa [taken] using ⟨hitem, hlane⟩
  refine ⟨?_, fun item hitem => ?_, fun item hitem hlane => ?_, fun lane => ?_⟩
  · have hlivePerm := filter_append_perm chosen live
    rw [← hconsumed, ← hremaining] at hlivePerm
    refine (perm_append_comm.append_right _).trans ?_
    rw [append_assoc, hstale]
    exact (hlivePerm.append_left _).trans (filter_append_perm _ _)
  · have hkind : item.kind = .action := by
      simp only [hstale, mem_filter, isStale, Bool.and_eq_true, decide_eq_true_eq] at hitem
      exact hitem.2.1
    simp [DeliveryRow.lane, InputKind.isControl, hkind]
  · rw [hremaining, mem_filter] at hitem
    simp [hcontrol item hitem.1 hlane] at hitem
  · obtain ⟨rest, hrest⟩ := taken_isPrefix live boundary settings lane
    have hnodup : (live.filter (·.lane = lane)).Nodup := hlids.of_map.filter _
    rw [← hrest, nodup_append] at hnodup
    have hmem : ∀ item ∈ taken live boundary settings lane ++ rest,
        chosen item = true ↔ item ∈ taken live boundary settings lane := by
      intro item hitem
      rw [hrest, mem_filter, decide_eq_true_eq] at hitem
      rw [hchosen, chosen_iff hlids hitem.1, hitem.2]
    have htaken : ∀ item ∈ taken live boundary settings lane, chosen item = true := fun item hitem =>
      (hmem item (mem_append_left _ hitem)).mpr hitem
    have hrestOut : ∀ item ∈ rest, ¬ chosen item = true := fun item hitem h =>
      hnodup.2.2 item ((hmem item (mem_append_right _ hitem)).mp h) item hitem rfl
    rw [hconsumed, hremaining, filter_comm, filter_comm _ (fun item => !chosen item), ← hrest, filter_append,
      filter_append, filter_eq_self.mpr htaken, filter_eq_nil_iff.mpr hrestOut, append_nil,
      filter_eq_nil_iff.mpr fun item hitem => by simp [htaken item hitem], nil_append,
      filter_eq_self.mpr fun item hitem => by simp [hrestOut item hitem], hrest]
    exact hsub.filter _

/-- Over any boundaries reached one after another every input is consumed, closed as stale or left, and only one of
these; the inputs of a lane are taken in the order of their arrival; and no control is passed over. -/
theorem inputs_drained_once (hids : ((backlog ++ drains.flatMap (·.arrived)).map (·.id)).Nodup) : let d := drained backlog drains
    (d.consumed ++ d.stale ++ d.left).Perm (backlog ++ drains.flatMap (·.arrived)) ∧
      (∀ lane, ((d.consumed ++ d.left).filter (·.lane = lane)).Sublist
        ((backlog ++ drains.flatMap (·.arrived)).filter (·.lane = lane))) ∧
      (∀ item ∈ d.stale, item.lane ≠ none) ∧ (drains ≠ [] → ∀ item ∈ d.left, item.lane ≠ none) := by
  induction drains generalizing backlog with
  | nil => exact ⟨by simp [drained], fun lane => by simp [drained], by simp [drained], fun h => (h rfl).elim⟩
  | cons d ds ih =>
    rw [flatMap_cons, ← append_assoc] at hids ⊢
    set seen := backlog ++ d.arrived
    set c := boundaryConsumption seen d.boundary d.settings d.compactionHead
    obtain ⟨hperm, hstale, hcontrols, hlanes⟩ := boundaryConsumption_lane d.boundary d.settings d.compactionHead
      (hids.sublist ((sublist_append_left _ _).map _))
    obtain ⟨hpermLater, hlanesLater, hstaleLater, hcontrolsLater⟩ := @ih (c.remaining seen)
      (hids.sublist ((filter_sublist.append_right _).map _))
    set rest := drained (c.remaining seen) ds
    change (c.consumed ++ rest.consumed ++ (c.stale ++ rest.stale) ++ rest.left).Perm _ ∧ _
    refine ⟨?_, fun lane => ?_, forall_mem_append.mpr ⟨hstale, hstaleLater⟩, fun _ => ?_⟩
    · calc c.consumed ++ rest.consumed ++ (c.stale ++ rest.stale) ++ rest.left
        _ ~ c.consumed ++ c.stale ++ (rest.consumed ++ rest.stale ++ rest.left) := by
          simp only [append_assoc]
          exact (perm_append_comm_assoc _ _ _).append_left _
        _ ~ c.consumed ++ c.stale ++ (c.remaining seen ++ ds.flatMap (·.arrived)) := hpermLater.append_left _
        _ ~ seen ++ ds.flatMap (·.arrived) := by
          rw [← append_assoc]
          exact hperm.append_right _
    · have hlane := hlanesLater lane
      have hnow := hlanes lane
      simp only [filter_append] at hlane hnow ⊢
      change ((c.consumed ++ rest.consumed).filter _ ++ rest.left.filter _).Sublist _
      rw [filter_append, append_assoc]
      refine (hlane.append_left _).trans ?_
      rw [← append_assoc]
      exact hnow.append_right _
    · cases ds with
      | nil => exact hcontrols
      | cons => exact hcontrolsLater nofun

def waiting (id : String) (kind : InputKind) : DeliveryRow := ⟨id, "s", kind, "", .null, none, none, .pending, 0, 0⟩

def interrupted : List Drain := [⟨[waiting "b" .prompt, waiting "c" .interrupt], .turnEnd, ⟨.all, .one⟩, 0⟩]

theorem inputs_drained_once_interrupted : ((drained [waiting "a" .prompt] interrupted).consumed ++
    (drained [waiting "a" .prompt] interrupted).stale ++ (drained [waiting "a" .prompt] interrupted).left).Perm
      [waiting "a" .prompt, waiting "b" .prompt, waiting "c" .interrupt] :=
  (inputs_drained_once (by decide)).1

end

section
variable {items : List DeliveryRow} {target : DeliveryTarget} {boundary : Boundary} {parentId : Option String}

theorem mem_deliveryActions {action : Append} (h : action ∈ deliveryActions items target boundary parentId) :
    ∃ item ∈ items, ∃ parent, action = deliveryAction item target boundary parent := by
  induction items generalizing parentId with
  | nil => simp [deliveryActions] at h
  | cons item items ih =>
    rcases mem_cons.mp h with rfl | h
    · exact ⟨item, mem_cons_self, parentId, rfl⟩
    · obtain ⟨other, hother, parent, rfl⟩ := ih h
      exact ⟨other, mem_cons_of_mem item hother, parent, rfl⟩

lemma exists_deliveryAction {item : DeliveryRow} (h : item ∈ items) :
    ∃ parent, deliveryAction item target boundary parent ∈ deliveryActions items target boundary parentId := by
  induction items generalizing parentId with
  | nil => simp at h
  | cons first items ih =>
    rcases mem_cons.mp h with rfl | h
    · exact ⟨parentId, mem_cons_self⟩
    · obtain ⟨parent, hmem⟩ := @ih (some (first.id ++ ":delivery")) h
      exact ⟨parent, mem_cons_of_mem _ hmem⟩

lemma deliveryAction_deliveryId (item : DeliveryRow) (target : DeliveryTarget) (boundary : Boundary)
    (parent : Option String) :
    (deliveryAction item target boundary parent).intent.get? "deliveryId" = some (.str item.id) := by
  unfold deliveryAction
  dsimp only
  split <;> simp [get?_record, List.lookup]

end

end OpenOmni
