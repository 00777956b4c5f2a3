import OpenOmni.Journal.TurnActions
import OpenOmni.Session.Admission
import OpenOmni.Session.ForkChild

/-! When the child of a fork has no open turn, and so is admitted. -/
namespace OpenOmni
open List

open PlainValue SessionTurn

lemma strict_get? {keys : List String} {v : PlainValue} {key : String} (h : v.strict keys = true) (hkey : key ∉ keys) :
    v.get? key = none := by
  cases v with
  | obj fields =>
    rw [get?_obj, lookup_eq_none_iff]
    intro f hf
    have hin := all_eq_true.mp h f hf
    have hne : key ≠ f.1 := by
      intro heq
      rw [heq] at hkey
      exact hkey (by simpa using hin)
    simpa using hne
  | _ => rfl

theorem Intent.ofPlain_remapPayload (renames : List (String × String)) (v : PlainValue) :
    Intent.ofPlain (remapPayload renames v) = Intent.ofPlain v := by
  have habsent : ∀ w : PlainValue, (Intent.ofPlain w).isSome → w.get? "deliveryId" = none ∧ w.get? "turnId" = none := by
    intro w hsome
    obtain ⟨intent, hintent⟩ := Option.isSome_iff_exists.mp hsome
    obtain ⟨hstrict, -⟩ := Intent.ofPlain_strict hintent
    exact ⟨strict_get? hstrict (by decide), strict_get? hstrict (by decide)⟩
  by_cases hcopy : (Intent.ofPlain (remapPayload renames v)).isSome
  · obtain ⟨hdelivery, hturn⟩ := habsent _ hcopy
    rw [remapPayload_get?_ref _ _ (Or.inl rfl), Option.map_eq_none_iff] at hdelivery
    rw [remapPayload_get?_ref _ _ (Or.inr rfl), Option.map_eq_none_iff] at hturn
    rw [remapPayload_of_absent _ hdelivery hturn]
  · by_cases hsource : (Intent.ofPlain v).isSome
    · obtain ⟨hdelivery, hturn⟩ := habsent _ hsource
      rw [remapPayload_of_absent _ hdelivery hturn]
    · rw [Bool.not_eq_true, Option.isSome_eq_false_iff, Option.isNone_iff_eq_none] at hcopy hsource
      rw [hcopy, hsource]

section
variable {source childId : String} {nodes rows : List Node} {node copy : Node}

lemma CopiedFrom.turnIntent (h : CopiedFrom source childId nodes node copy) : turnIntent copy = turnIntent node := by
  unfold OpenOmni.turnIntent
  rw [h.kind, h.intent, Intent.ofPlain_remapPayload]

lemma CopiedFrom.phase (h : CopiedFrom source childId nodes node copy) (text : String) :
    extractIs copy.intent "phase" text = extractIs node.intent "phase" text ∧
      extractIs copy.effect "phase" text = extractIs node.effect "phase" text := by
  have hintent : copy.intent.get? "phase" = node.intent.get? "phase" := by
    rw [h.intent]
    exact remapPayload_get? _ _ (by decide) (by decide)
  have heffect : copy.effect.get? "phase" = node.effect.get? "phase" := by
    rw [h.effect]
    exact remapPayload_get? _ _ (by decide) (by decide)
  simp [extractIs, hintent, heffect]

lemma isForkRenamed_turn (h : node.kind = .turn) : isForkRenamed node.toAppend = false := by
  simp [isForkRenamed, isInputRow, isDeliveryRow, isInputKind, h]

lemma isForkExcluded_not_turn (h : isForkExcluded node.toAppend = true) : node.kind ≠ .turn := by
  intro hkind
  simp [isForkExcluded, isArmRow, hkind] at h

section
variable (h : ForkChild source childId nodes rows)
include h

lemma ForkChild.isTerminalOf {turn : Node}
    (hturn : turn ∈ forkEligible nodes) (hkind : turn.kind = .turn) :
    rows.any (isTerminalOf turn.id) = nodes.any (isTerminalOf turn.id) := by
  refine h.any (fun row hrow => ?_) (fun other hother => ?_) fun other copy hcopy => ?_
  · simp [OpenOmni.isTerminalOf, hrow]
  · simp [OpenOmni.isTerminalOf, isForkExcluded_not_turn hother]
  · unfold OpenOmni.isTerminalOf
    rw [hcopy.kind, (hcopy.phase "terminal").2, hcopy.effect, h.extractIs_kept hturn (isForkRenamed_turn hkind)]

theorem ForkChild.openIntentsPage :
    List.Forall₂ (CopiedFrom source childId nodes) (openIntentsPage nodes 0) (openIntentsPage rows 0) := by
  apply List.forall₂_take
  refine h.filter (fun row hrow => ?_) (fun node hnode => ?_) fun node copy hcopy => ?_
  · simp [hrow]
  · simp [isForkExcluded_not_turn hnode]
  · by_cases hkind : node.kind = .turn
    · have hid : copy.id = node.id := by
        rw [hcopy.id]
        exact renameId_kept h.sourceIds hcopy.mem (isForkRenamed_turn hkind)
      have hnode : 0 < node.ordinal := h.sourceOrdinals node (mem_of_mem_filter hcopy.mem)
      rw [hcopy.kind, (hcopy.phase "intent").1, hid, h.isTerminalOf hcopy.mem hkind]
      simp [hnode, hcopy.ordinal]
    · simp [hcopy.kind, hkind]

lemma ForkChild.latestTurnUpdate {turn : Node}
    (hturn : turn ∈ forkEligible nodes) (hkind : turn.kind = .turn) :
    Option.Rel (CopiedFrom source childId nodes) (latestTurnUpdate nodes turn.id) (latestTurnUpdate rows turn.id) := by
  apply List.forall₂_getLast?
  refine h.filter (fun row hrow => ?_) (fun node hnode => ?_) fun node copy hcopy => ?_
  · simp [hrow]
  · simp [isForkExcluded_not_turn hnode]
  · have hkept := h.extractIs_kept hturn (isForkRenamed_turn hkind)
    rw [hcopy.kind, hcopy.intent, hcopy.effect, hkept, hkept]

theorem ForkChild.openTurnsPageIn : openTurnsPageIn rows 0 = [] ↔ openTurnsPageIn nodes 0 = [] := by
  rw [openTurnsPageIn_nil, openTurnsPageIn_nil]
  have hpages := h.openIntentsPage
  have hone : ∀ node copy, node ∈ OpenOmni.openIntentsPage nodes 0 → CopiedFrom source childId nodes node copy →
      ((turnIntent copy = none ∧ ∀ update ∈ OpenOmni.latestTurnUpdate rows copy.id, turnIntent update = none) ↔
        turnIntent node = none ∧ ∀ update ∈ OpenOmni.latestTurnUpdate nodes node.id, turnIntent update = none) := by
    intro node copy hnode hcopy
    have hkind : node.kind = .turn := by
      have hpass := (mem_filter.mp (mem_of_mem_take hnode)).2
      simp only [Bool.and_eq_true, decide_eq_true_eq] at hpass
      exact hpass.1.1.1
    have hid : copy.id = node.id := by
      rw [hcopy.id]
      exact renameId_kept h.sourceIds hcopy.mem (isForkRenamed_turn hkind)
    have hupdate := h.latestTurnUpdate hcopy.mem hkind
    rw [hcopy.turnIntent, hid]
    refine and_congr_right fun _ => ?_
    cases hsource : OpenOmni.latestTurnUpdate nodes node.id with
    | none =>
      cases hchild : OpenOmni.latestTurnUpdate rows node.id with
      | none => simp
      | some update =>
        rw [hsource, hchild] at hupdate
        cases hupdate
    | some update =>
      cases hchild : OpenOmni.latestTurnUpdate rows node.id with
      | none =>
        rw [hsource, hchild] at hupdate
        cases hupdate
      | some copied =>
        rw [hsource, hchild] at hupdate
        cases hupdate with
        | some hcopied => simp [hcopied.turnIntent]
  constructor
  · intro hchild node hnode
    obtain ⟨copy, hcopy, hfrom⟩ := List.exists_right_of_forall₂ hpages hnode
    exact (hone node copy hnode hfrom).mp (hchild copy hcopy)
  · intro hsource copy hcopy
    obtain ⟨node, hnode, hfrom⟩ := List.exists_left_of_forall₂ hpages hcopy
    exact (hone node copy hnode hfrom).mpr (hsource node hnode)

end

end

section
variable [PlainCoding] (numText : ℚ → String)

/-- The child's history has no open turn, and its admission refuses none of the inputs received since. -/
structure ForkAdmits (childId : String) (child : Db) : Prop where
  opened : latestOpenTurnIn (child.rows childId) = some none
  admits : ∀ row ∈ child.sessions, row.id = childId → ∀ received : List Node,
    (∀ node ∈ received, node.sessionId = childId ∧ node.kind ≠ .turn) → ∀ registered : List Kind, .action ∈ registered →
      ∀ snapshot, admissionSnapshot numText row (child.rows childId ++ received) (some registered) = some snapshot →
        (decideSessionAdmission snapshot).isRefused = false

variable {numText} {cap : ℕ}

/-- A fork is admissible exactly when no turn of its parent was open at the anchor. -/
theorem fork_admits (ops : List WriteOp) {source anchorId : String} {anchor : Node} {nodes : List Node}
    {input : Materialize} {copies : List Append}
    (hread : readParentPrefix anchorId ((writes cap ops {}).rows source) = some (anchor, nodes))
    (hplan : planCopies source input.row.id anchorId ((writes cap ops {}).rows source) = some copies)
    (hidle : input.row.state = .idle) (hwrite : refused (write cap (.fork input copies) {}).1 = false) :
    ForkAdmits numText input.row.id (write cap (.fork input copies) {}).2 ↔ latestOpenTurnIn nodes = some none := by
  have hchild := write_fork_child (writes_chainInv cap ops ChainInv.empty).1 hread hplan hwrite
  have hopened : latestOpenTurnIn ((write cap (.fork input copies) {}).2.rows input.row.id) = some none ↔
      latestOpenTurnIn nodes = some none := by
    rw [latestOpenTurnIn_eq_nothing, latestOpenTurnIn_eq_nothing, hchild.openTurnsPageIn]
  constructor
  · intro hadmits
    exact hopened.mp hadmits.opened
  · intro hclosed
    have hnone := hopened.mpr hclosed
    refine ⟨hnone, ?_⟩
    intro row hrow hid received hreceived registered haction snapshot hsnapshot
    have hstate : row.state = .idle := (write_fork_states row hrow).trans hidle
    have howned : ∀ node ∈ (write cap (.fork input copies) {}).2.rows input.row.id ++ received,
        node.sessionId = row.id := by
      intro node hnode
      rw [hid]
      rcases mem_append.mp hnode with hnode | hnode
      · exact hchild.owned node hnode
      · exact (hreceived node hnode).1
    obtain ⟨howns, hsame, hkinds, -, hturn⟩ := admissionSnapshot_owned howned hsnapshot
    -- what was received since opens no turn
    have hstill : snapshot.opened = none := by
      have hpage := latestOpenTurnIn_eq_nothing _ |>.mp hnone
      rw [← openTurnsPageIn_append fun node hnode => (hreceived node hnode).2] at hpage
      rw [(latestOpenTurnIn_eq_nothing _).mpr hpage] at hturn
      exact (Option.some.inj hturn).symm
    rw [decideSessionAdmission_idle howns hkinds haction (by rw [hsame, hstate]) hstill]
    exact decideIdleDeliveries_accepts _

end

namespace ForkSample

attribute [local instance] textCoding

def numText (q : ℚ) : String := PlainValue.text (.num q)

def pointers : GenerationPointers := ⟨1, "system", 1⟩

def snapshot : PlainValue :=
  record [("generation", some (.num 1)), ("revertTo", some (.num 0)), ("tools", some (.arr [])),
    ("toolsHash", some (.str "tools")), ("bundles", some (.arr [])), ("systemPreset", some (.str "")),
    ("systemBlocks", some (.arr [])), ("systemValue", some (.str "")), ("systemHash", some (.str "system")),
    ("policyGeneration", some (.num 1))]

def configured (id sessionId operation : String) : Append where
  id := id
  parentId := none
  sessionId := sessionId
  kind := .sessionConfigure
  intent := record [("operation", some (.str operation))]
  effect := record [("phase", some (.str "configured")), ("snapshot", some snapshot)]
  revert := some (record [("generation", some (.num 0))])
  ts := 0

def parentRow : Row where
  toGenerationPointers := pointers
  id := "p"
  parentId := none
  role := .resident
  fenceOwner := none
  fence := 0
  revision := 0
  state := .idle

def child : Materialize := ⟨forkedRow "c" parentRow pointers, configured "c:configure" "c" "fork"⟩

def commit (expectedRevision : ℕ) (actions : List Append) (state : SessionState) : WriteOp :=
  .commit { sessionId := "p", owner := "o", fence := 1, now := 1, expectedRevision, actions, state }

def received (id content : String) : Append := receivedMessageAction id "p" .prompt content (.obj []) none 1 none

def item (id content : String) : DeliveryRow where
  id := id
  sessionId := "p"
  kind := .prompt
  content := content
  origin := .obj []
  delivery := none
  after := none
  status := .pending
  createdAt := 1
  ordinal := 1

def started : List Append :=
  deliveryActions [item "a" "first"] (.turn "t") .beforeLlm (some "a") ++
    [turnIntentAction "t" (some "a:delivery") "p" "r" ["a"] [] ⟨1, "tools", "system", 1⟩ 0 (some "a") 1]

def begun : List WriteOp :=
  [.materialize ⟨parentRow, configured "p:configure" "p" "create"⟩, .adoptFence ⟨"p", "o", 1⟩,
    commit 1 [received "a" "first"] .idle]

def midTurn : List WriteOp := begun ++ [commit 2 started .running, commit 4 [received "b" "second"] .running]

def copies (ops : List WriteOp) (anchorId : String) : List Append :=
  (planCopies "p" "c" anchorId ((writes 1000000 ops {}).rows "p")).getD []

def forked (ops : List WriteOp) (anchorId : String) : Except Refusal WriteOutcome × Db :=
  write 1000000 (.fork child (copies ops anchorId)) {}

theorem fork_admits_idle : ForkAdmits numText child.row.id (forked begun "a").2 := by
  have hfacts : readParentPrefix "a" ((writes 1000000 begun {}).rows "p") =
        some (⟨received "a" "first", 2⟩, (writes 1000000 begun {}).rows "p") ∧
      planCopies "p" child.row.id "a" ((writes 1000000 begun {}).rows "p") = some (copies begun "a") ∧
      refused (forked begun "a").1 = false ∧ latestOpenTurnIn ((writes 1000000 begun {}).rows "p") = some none := by
    decide +kernel
  obtain ⟨hread, hplan, hwrite, hclosed⟩ := hfacts
  have hidle : child.row.state = .idle := rfl
  unfold forked at hwrite ⊢
  exact (fork_admits begun hread hplan hidle hwrite).mpr hclosed

/-- The child of a fork at the second prompt has the first one's turn open, and refuses what it finds. -/
theorem forked_mid_turn_refused :
    planCopies "p" "c" "b" ((writes 1000000 midTurn {}).rows "p") = some (copies midTurn "b") ∧
      refused (forked midTurn "b").1 = false ∧
      (admissionSnapshot numText { child.row with revision := 6 } ((forked midTurn "b").2.rows "c")
        (some [.action])).map decideSessionAdmission = some (.refused none) ∧
      ¬ ForkAdmits numText "c" (forked midTurn "b").2 := by
  have hfacts : planCopies "p" "c" "b" ((writes 1000000 midTurn {}).rows "p") = some (copies midTurn "b") ∧
      refused (forked midTurn "b").1 = false ∧
      (admissionSnapshot numText { child.row with revision := 6 } ((forked midTurn "b").2.rows "c")
        (some [.action])).map decideSessionAdmission = some (.refused none) ∧
      latestOpenTurnIn ((forked midTurn "b").2.rows "c") ≠ some none := by
    decide +kernel
  obtain ⟨hplan, hwrite, hrefused, hopen⟩ := hfacts
  exact ⟨hplan, hwrite, hrefused, fun hadmits => hopen hadmits.opened⟩

end ForkSample

end OpenOmni
