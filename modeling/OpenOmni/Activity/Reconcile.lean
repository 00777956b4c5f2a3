import Mathlib
import OpenOmni.Lib.Dict
import OpenOmni.Lib.Selection

/-! The rows that the observations of a child bring to its ledger, next to those that were admitted before. -/
namespace OpenOmni
namespace Activity
open List

inductive Phase where
  | observed | requested | waiting | decided | result | terminal
deriving DecidableEq

inductive Generation where
  | sizeAndPrefixHash (size : ℕ) (prefixSha256 : String)
  | inode (device inode : String)
deriving DecidableEq

structure TranscriptRef where
  machine : String
  «export» : String
  path : String
  generation : Generation
  offsetBytes : ℕ
  lengthBytes : ℕ
  dialect : String
  version : String
deriving DecidableEq

inductive Ref where
  | transcript (ref : TranscriptRef)
  | hook (event : String) (receivedAt : ℕ) (seq : ℕ)
deriving DecidableEq

structure Diagnostic where
  code : String
  detail : String
deriving DecidableEq

structure ChildLifecycleEvidence where
  child : String
  turn : String
  toolUseId : Option String
  phase : Phase
  ref : Ref
  diagnostics : List Diagnostic
deriving DecidableEq

structure SourceObservation where
  evidence : ChildLifecycleEvidence
  observedAt : ℕ

/-- A refused line of the spool, whose sequence was used before. -/
structure SpoolReplay where
  child : String
  seq : ℕ
  digest : String

structure Fact where
  child : String
  turn : String
  toolUseId : Option String
  phase : Phase
deriving DecidableEq

structure Receipt where
  factKey : String
  ref : Ref
  diagnostics : List Diagnostic
  observedAt : ℕ
deriving DecidableEq

inductive Content where
  | fact (fact : Fact)
  | receipt (receipt : Receipt)
  | conflict (key receivedDigest : String)
  | diagnostic (child turn : String) (ref : TranscriptRef) (diagnostic : Diagnostic)
deriving DecidableEq

structure ChildRow where
  key : String
  content : Content
deriving DecidableEq

/-- The canonical text of a row and the digests; `receipt` is the one over the fact, the source and the reference. -/
structure Canonical where
  json : ChildRow → String
  digest : Content → String
  receipt : String → Ref → String

structure Book where
  known : Dict String ChildRow
  added : List ChildRow

def authority : Ref → ℕ
  | .transcript _ => 1
  | .hook _ _ _ => 2

def childReceipts (rows : List ChildRow) (child : String) : List (Fact × Receipt) :=
  let facts := Dict.ofEntries (rows.filterMap fun row => match row.content with
    | .fact fact => some (row.key, fact)
    | _ => none)
  rows.filterMap fun row => match row.content with
    | .receipt receipt => ((facts.get? receipt.factKey).filter (·.child = child)).map (·, receipt)
    | _ => none

section
variable (canon : Canonical)

def conflictRow (row : ChildRow) : ChildRow :=
  let content := .conflict row.key (canon.digest row.content)
  ⟨canon.digest content, content⟩

def Book.append (b : Book) (row : ChildRow) : Book :=
  match b.known.get? row.key with
  | some previous =>
    if canon.json previous = canon.json row ∨ b.known.contains (conflictRow canon row).key then b
    else ⟨b.known.set (conflictRow canon row).key (conflictRow canon row), b.added ++ [conflictRow canon row]⟩
  | none => ⟨b.known.set row.key row, b.added ++ [row]⟩

def factRow (evidence : ChildLifecycleEvidence) : ChildRow :=
  let content := .fact ⟨evidence.child, evidence.turn, evidence.toolUseId, evidence.phase⟩
  ⟨canon.digest content, content⟩

/-- A later read is not a new observation of the same retained bytes: a receipt that is known keeps its clock. -/
def receiptRow (known : Dict String ChildRow) (o : SourceObservation) : ChildRow :=
  let key := canon.receipt (factRow canon o.evidence).key o.evidence.ref
  ⟨key, .receipt ⟨(factRow canon o.evidence).key, o.evidence.ref, o.evidence.diagnostics,
    match known.get? key with
    | some ⟨_, .receipt previous⟩ => previous.observedAt
    | _ => o.observedAt⟩⟩

def observe (b : Book) (o : SourceObservation) : Book :=
  let b := b.append canon (factRow canon o.evidence)
  b.append canon (receiptRow canon b.known o)

/-- The row of a replay whose bytes are not those of the receipt with its sequence. -/
def replayRow (rows : List ChildRow) (r : SpoolReplay) : Option ChildRow := do
  let previous ← (childReceipts rows r.child).find? fun entry => match entry.2.ref with
    | .hook _ _ seq => seq = r.seq
    | .transcript _ => false
  let digest ← previous.2.diagnostics.find? (·.code = "source_sha256")
  if digest.detail = r.digest then none
  else some (conflictRow canon ⟨canon.receipt previous.2.factKey previous.2.ref, .receipt { previous.2 with
    diagnostics := previous.2.diagnostics.map fun entry =>
      if entry.code = "source_sha256" then { entry with detail := r.digest } else entry }⟩)

def replay (b : Book) (r : SpoolReplay) : Book :=
  ((replayRow canon b.known.values r).map (b.append canon)).getD b

def opened (admitted : List ChildRow) : Book := ⟨Dict.ofEntries (admitted.map fun row => (row.key, row)), []⟩

def pass (observations : List SourceObservation) (replays : List SpoolReplay) (b : Book) : Book :=
  replays.foldl (replay canon) ((observations.mergeSort fun a b =>
    decide (authority b.evidence.ref ≤ authority a.evidence.ref)).foldl (observe canon) b)

def reconcile (observations : List SourceObservation) (admitted : List ChildRow) (replays : List SpoolReplay) :
    List ChildRow := (pass canon observations replays (opened admitted)).added

def Settled (known : Dict String ChildRow) (row : ChildRow) : Prop :=
  ∃ previous, known.get? row.key = some previous ∧
    (canon.json previous = canon.json row ∨ known.contains (conflictRow canon row).key = true)

def Keyed (row : ChildRow) : Prop :=
  row.key = match row.content with
    | .receipt receipt => canon.receipt receipt.factKey receipt.ref
    | content => canon.digest content

end

section
variable {canon : Canonical} {base known known' : Dict String ChildRow} {b : Book} {row : ChildRow} {rows : List ChildRow}

def Grows (known known' : Dict String ChildRow) : Prop :=
  ∀ key value, known.get? key = some value → known'.get? key = some value

lemma Settled.grow (h : Settled canon known row) (hgrows : Grows known known') : Settled canon known' row := by
  obtain ⟨previous, hprevious, hsame⟩ := h
  refine ⟨previous, hgrows _ _ hprevious, hsame.imp_right fun hconflict => ?_⟩
  rw [Dict.contains_iff, Option.isSome_iff_exists] at hconflict ⊢
  exact hconflict.imp fun value hvalue => hgrows _ _ hvalue

/-- What is known are the rows of the base and those that were added, each under its own key. -/
structure Book.Ok (canon : Canonical) (base : Dict String ChildRow) (b : Book) : Prop where
  entries : b.known.entries = base.entries ++ b.added.map fun row => (row.key, row)
  unique : b.known.Unique
  keyed : ∀ key value, b.known.get? key = some value → value.key = key ∧ Keyed canon value

lemma append_cases (canon : Canonical) (b : Book) (row : ChildRow) :
    Settled canon b.known row ∧ b.append canon row = b ∨ ∃ added, b.known.get? added.key = none ∧
      b.append canon row = ⟨b.known.set added.key added, b.added ++ [added]⟩ ∧
      (added = row ∨ added = conflictRow canon row ∧ (b.known.get? row.key).isSome) := by
  unfold Book.append
  cases hprevious : b.known.get? row.key with
  | none => exact .inr ⟨row, hprevious, rfl, .inl rfl⟩
  | some previous =>
    dsimp only
    split_ifs with hsame
    · exact .inl ⟨⟨previous, hprevious, hsame⟩, rfl⟩
    · refine .inr ⟨conflictRow canon row, ?_, rfl, .inr ⟨rfl, rfl⟩⟩
      rw [not_or, Dict.contains_iff, Option.not_isSome_iff_eq_none] at hsame
      exact hsame.2

lemma append_of_settled (h : Settled canon b.known row) : b.append canon row = b := by
  obtain ⟨previous, hprevious, hsame⟩ := h
  rw [Book.append, hprevious]
  exact if_pos hsame

lemma grows_append (canon : Canonical) (b : Book) (row : ChildRow) : Grows b.known (b.append canon row).known := by
  intro key value hvalue
  rcases append_cases canon b row with ⟨-, heq⟩ | ⟨added, hnone, heq, -⟩
  · rwa [heq]
  · rw [heq, Dict.get?_set_of_ne _ _ fun hkey => ?_]
    · exact hvalue
    · rw [← hkey, hvalue] at hnone
      cases hnone

lemma settled_append (canon : Canonical) (b : Book) (row : ChildRow) :
    Settled canon (b.append canon row).known row := by
  rcases append_cases canon b row with ⟨h, heq⟩ | ⟨added, -, heq, rfl | ⟨rfl, hsome⟩⟩
  · rwa [heq]
  · exact ⟨added, by rw [heq]; exact Dict.get?_set_self _ _ _, .inl rfl⟩
  · obtain ⟨previous, hprevious⟩ := Option.isSome_iff_exists.mp hsome
    refine ⟨previous, grows_append canon b row _ _ hprevious, .inr ?_⟩
    rw [heq, Dict.contains_set, if_pos rfl]

lemma Book.Ok.append (h : b.Ok canon base) (hrow : Keyed canon row) : (b.append canon row).Ok canon base := by
  rcases append_cases canon b row with ⟨-, heq⟩ | ⟨added, hnone, heq, hadded⟩
  · rwa [heq]
  · have hkeyed : Keyed canon added := by
      rcases hadded with rfl | ⟨rfl, -⟩
      · exact hrow
      · rfl
    rw [heq]
    refine ⟨?_, h.unique.set _ _, fun key value hvalue => ?_⟩
    · have hcontains : b.known.contains added.key = false := by rw [Dict.contains_iff, hnone]; rfl
      simp [Dict.set, hcontains, h.entries]
    · rw [Dict.get?_set] at hvalue
      split_ifs at hvalue with hkey
      · cases hvalue
        exact ⟨hkey.symm, hkeyed⟩
      · exact h.keyed key value hvalue

def Seen (canon : Canonical) (known : Dict String ChildRow) (evidence : ChildLifecycleEvidence) : Prop :=
  Settled canon known (factRow canon evidence) ∧ ∀ observedAt, Settled canon known (receiptRow canon known ⟨evidence, observedAt⟩)

lemma receiptRow_of_some {o : SourceObservation} {value : ChildRow}
    (h : known.get? (receiptRow canon known o).key = some value) (hgrows : Grows known known') :
    receiptRow canon known' o = receiptRow canon known o := by
  have h' := hgrows _ _ h
  unfold receiptRow at h h' ⊢
  dsimp only at h h' ⊢
  rw [h, h']

lemma Seen.grow {evidence : ChildLifecycleEvidence} (h : Seen canon known evidence) (hgrows : Grows known known') :
    Seen canon known' evidence := by
  refine ⟨h.1.grow hgrows, fun observedAt => ?_⟩
  obtain ⟨value, hvalue, -⟩ := h.2 observedAt
  rw [receiptRow_of_some hvalue hgrows]
  exact (h.2 observedAt).grow hgrows

lemma observe_of_seen {o : SourceObservation} (h : Seen canon b.known o.evidence) : observe canon b o = b := by
  unfold observe
  dsimp only
  rw [append_of_settled h.1]
  exact append_of_settled (h.2 o.observedAt)

def Apart (canon : Canonical) : Prop := ∀ factKey ref content, canon.receipt factKey ref ≠ canon.digest content

lemma receiptRow_of_receipt {evidence : ChildLifecycleEvidence} {observedAt : ℕ} {key : String} {receipt : Receipt}
    (h : known.get? (canon.receipt (factRow canon evidence).key evidence.ref) = some ⟨key, .receipt receipt⟩) :
    receiptRow canon known ⟨evidence, observedAt⟩ = ⟨canon.receipt (factRow canon evidence).key evidence.ref,
      .receipt ⟨(factRow canon evidence).key, evidence.ref, evidence.diagnostics, receipt.observedAt⟩⟩ := by
  unfold receiptRow
  dsimp only
  rw [h]

lemma receiptRow_append (hkeys : Apart canon) (o : SourceObservation) (observedAt : ℕ)
    (hok : (b.append canon (receiptRow canon b.known o)).Ok canon base) :
    receiptRow canon (b.append canon (receiptRow canon b.known o)).known ⟨o.evidence, observedAt⟩ =
      receiptRow canon b.known o := by
  obtain ⟨⟨key, content⟩, hvalue, -⟩ := settled_append canon b (receiptRow canon b.known o)
  obtain ⟨rfl, hkeyed⟩ := hok.keyed _ _ hvalue
  cases content with
  | fact | conflict | diagnostic => exact absurd hkeyed (hkeys _ _ _)
  | receipt receipt =>
    rw [receiptRow_of_receipt hvalue]
    cases hprevious : b.known.get? (receiptRow canon b.known o).key with
    | some previous =>
      have hgrown := grows_append canon b (receiptRow canon b.known o) _ _ hprevious
      cases hgrown.symm.trans hvalue
      exact (receiptRow_of_receipt hprevious).symm
    | none =>
      rw [Book.append, hprevious] at hvalue
      have hrow := Option.some.inj ((Dict.get?_set_self _ _ _).symm.trans hvalue)
      obtain rfl := Content.receipt.inj (congrArg ChildRow.content hrow)
      rfl

lemma Book.Ok.observed (h : b.Ok canon base) (hkeys : Apart canon) (o : SourceObservation) :
    (observe canon b o).Ok canon base ∧ Grows b.known (observe canon b o).known ∧
      Seen canon (observe canon b o).known o.evidence := by
  have hfact := h.append (rfl : Keyed canon (factRow canon o.evidence))
  set mid := b.append canon (factRow canon o.evidence) with hmid
  have hok := hfact.append (rfl : Keyed canon (receiptRow canon mid.known o))
  have hgrows := grows_append canon mid (receiptRow canon mid.known o)
  have hsettled := settled_append canon mid (receiptRow canon mid.known o)
  change (mid.append canon (receiptRow canon mid.known o)).Ok canon base ∧ _
  refine ⟨hok, fun key value hvalue => hgrows _ _ (grows_append canon b _ _ _ hvalue),
    (settled_append canon b _).grow hgrows, fun observedAt => ?_⟩
  change Settled canon (mid.append canon _).known (receiptRow canon (mid.append canon _).known _)
  rw [receiptRow_append hkeys o observedAt hok]
  exact hsettled

lemma foldl_observe (hkeys : Apart canon) (h : b.Ok canon base) (observations : List SourceObservation) :
    (observations.foldl (observe canon) b).Ok canon base ∧ Grows b.known (observations.foldl (observe canon) b).known ∧
      ∀ o ∈ observations, Seen canon (observations.foldl (observe canon) b).known o.evidence := by
  induction observations generalizing b with
  | nil => exact ⟨h, fun _ _ => id, forall_mem_nil _⟩
  | cons o observations ih =>
    obtain ⟨hok, hgrows, hseen⟩ := h.observed hkeys o
    obtain ⟨hend, hrest, hall⟩ := ih hok
    exact ⟨hend, fun _ _ hvalue => hrest _ _ (hgrows _ _ hvalue), forall_mem_cons.mpr ⟨hseen.grow hrest, hall⟩⟩

lemma foldl_observe_of_seen {observations : List SourceObservation}
    (h : ∀ o ∈ observations, Seen canon b.known o.evidence) : observations.foldl (observe canon) b = b := by
  induction observations with
  | nil => rfl
  | cons o observations ih =>
    rw [forall_mem_cons] at h
    rw [foldl_cons, observe_of_seen h.1, ih h.2]

def IsConflict (row : ChildRow) : Prop := ∃ key digest, row.content = .conflict key digest

lemma childReceipts_append {conflicts : List ChildRow} (h : ∀ row ∈ conflicts, IsConflict row) (child : String) :
    childReceipts (rows ++ conflicts) child = childReceipts rows child := by
  have hnone : ∀ {β : Type} {f : ChildRow → Option β}, (∀ row key digest, row.content = .conflict key digest → f row = none) →
      (rows ++ conflicts).filterMap f = rows.filterMap f := by
    intro β f hf
    have hnil : conflicts.filterMap f = [] := by
      rw [filterMap_eq_nil_iff]
      intro row hrow
      obtain ⟨key, digest, hcontent⟩ := h row hrow
      exact hf row key digest hcontent
    rw [filterMap_append, hnil, append_nil]
  unfold childReceipts
  dsimp only
  rw [hnone fun row _ _ hcontent => by rw [hcontent], hnone fun row _ _ hcontent => by rw [hcontent]]

lemma Book.Ok.replayed (h : b.Ok canon base) (r : SpoolReplay) : (replay canon b r).Ok canon base ∧
    Grows b.known (replay canon b r).known ∧
    (∃ conflicts, (∀ row ∈ conflicts, IsConflict row) ∧
      (replay canon b r).known.values = b.known.values ++ conflicts) ∧
    ∀ row, replayRow canon b.known.values r = some row → Settled canon (replay canon b r).known row := by
  unfold replay
  cases hrow : replayRow canon b.known.values r with
  | none => exact ⟨h, fun _ _ => id, ⟨[], forall_mem_nil _, (append_nil _).symm⟩, by rintro _ ⟨⟩⟩
  | some row =>
    have hconflict : ∃ receipt, row = conflictRow canon receipt := by
      simp only [replayRow, Option.bind_eq_bind, Option.bind_eq_some_iff] at hrow
      obtain ⟨previous, -, digest, -, hrow⟩ := hrow
      split_ifs at hrow
      exact ⟨_, (Option.some.inj hrow).symm⟩
    obtain ⟨receipt, rfl⟩ := hconflict
    refine ⟨h.append rfl, grows_append canon b _, ?_, ?_⟩
    · rcases append_cases canon b (conflictRow canon receipt) with ⟨-, heq⟩ | ⟨added, hnone, heq, hadded⟩
      · exact ⟨[], forall_mem_nil _, by simp [heq]⟩
      · refine ⟨[added], forall_mem_singleton.mpr ?_, ?_⟩
        · rcases hadded with rfl | ⟨rfl, -⟩ <;> exact ⟨_, _, rfl⟩
        · have hcontains : b.known.contains added.key = false := by rw [Dict.contains_iff, hnone]; rfl
          simp [heq, Dict.values, Dict.set, hcontains]
    · rintro _ ⟨⟩
      exact settled_append canon b _

lemma foldl_replay (h : b.Ok canon base) (replays : List SpoolReplay) :
    (replays.foldl (replay canon) b).Ok canon base ∧ Grows b.known (replays.foldl (replay canon) b).known ∧
      (∃ conflicts, (∀ row ∈ conflicts, IsConflict row) ∧
        (replays.foldl (replay canon) b).known.values = b.known.values ++ conflicts) ∧
      ∀ r ∈ replays, ∀ row, replayRow canon b.known.values r = some row →
        Settled canon (replays.foldl (replay canon) b).known row := by
  induction replays generalizing b with
  | nil => exact ⟨h, fun _ _ => id, ⟨[], forall_mem_nil _, (append_nil _).symm⟩, forall_mem_nil _⟩
  | cons r replays ih =>
    obtain ⟨hok, hgrows, ⟨conflicts, hconflicts, hvalues⟩, hsettled⟩ := h.replayed r
    obtain ⟨hend, hrest, ⟨later, hlater, hvalues'⟩, hall⟩ := ih hok
    refine ⟨hend, fun _ _ hvalue => hrest _ _ (hgrows _ _ hvalue), ⟨conflicts ++ later,
      forall_mem_append.mpr ⟨hconflicts, hlater⟩, by rw [foldl_cons, hvalues', hvalues, append_assoc]⟩, ?_⟩
    refine forall_mem_cons.mpr ⟨fun row hrow => (hsettled row hrow).grow hrest, fun r' hr' row hrow => ?_⟩
    refine hall r' hr' row ?_
    rw [← hrow, hvalues]
    unfold replayRow
    rw [childReceipts_append hconflicts]

lemma foldl_replay_of_settled {replays : List SpoolReplay} (h : ∀ r ∈ replays, ∀ row,
      replayRow canon b.known.values r = some row → Settled canon b.known row) : replays.foldl (replay canon) b = b := by
  induction replays with
  | nil => rfl
  | cons r replays ih =>
    rw [forall_mem_cons] at h
    have hsame : replay canon b r = b := by
      unfold replay
      cases hrow : replayRow canon b.known.values r with
      | none => rfl
      | some row => exact append_of_settled (h.1 row hrow)
    rw [foldl_cons, hsame, ih h.2]

lemma keyed_opened (h : ∀ row ∈ rows, Keyed canon row) : (opened rows).Ok canon (opened rows).known := by
  refine ⟨(append_nil _).symm, Dict.unique_ofEntries _, fun key value hvalue => ?_⟩
  have hset : ∀ (rows : List ChildRow) (d : Dict String ChildRow), (∀ row ∈ rows, Keyed canon row) →
      (∀ value, d.get? key = some value → value.key = key ∧ Keyed canon value) →
      ∀ value, ((rows.map fun row => (row.key, row)).foldl (fun d e => d.set e.1 e.2) d).get? key = some value →
        value.key = key ∧ Keyed canon value := by
    intro rows
    induction rows with
    | nil => exact fun _ _ hd => hd
    | cons row rows ih =>
      intro d hrows hd
      rw [forall_mem_cons] at hrows
      refine ih (d.set row.key row) hrows.2 fun value hvalue => ?_
      rw [Dict.get?_set] at hvalue
      split_ifs at hvalue with hkey
      · cases hvalue
        exact ⟨hkey.symm, hrows.1⟩
      · exact hd value hvalue
  exact hset rows .empty h (by rintro _ ⟨⟩) value hvalue

lemma opened_append (h : b.Ok canon (opened rows).known) : opened (rows ++ b.added) = ⟨b.known, []⟩ := by
  have hunique := h.unique
  rw [Dict.Unique, h.entries] at hunique
  have hentries := Dict.foldl_set_entries hunique
  have hknown : (opened (rows ++ b.added)).known = b.known := by
    rw [opened, Dict.ofEntries, map_append, foldl_append]
    exact congrArg Dict.mk (hentries.trans h.entries.symm)
  rw [← hknown]
  rfl

theorem reconcile_again {observations again : List SourceObservation} {admitted : List ChildRow}
    {replays replaysAgain : List SpoolReplay} (hkeys : Apart canon) (hadmitted : ∀ row ∈ admitted, Keyed canon row)
    (hagain : ∀ o ∈ again, ∃ o' ∈ observations, o.evidence = o'.evidence) (hreplays : replaysAgain ⊆ replays) :
    reconcile canon again (admitted ++ reconcile canon observations admitted replays) replaysAgain = [] := by
  set sorted := observations.mergeSort fun a b => decide (authority b.evidence.ref ≤ authority a.evidence.ref) with hsorted
  obtain ⟨hread, -, hseen⟩ := foldl_observe hkeys (keyed_opened hadmitted) sorted
  obtain ⟨hok, hgrows, ⟨conflicts, hconflicts, hvalues⟩, hsettled⟩ := foldl_replay hread replays
  have hadded : reconcile canon observations admitted replays =
      (replays.foldl (replay canon) (sorted.foldl (observe canon) (opened admitted))).added := rfl
  generalize replays.foldl (replay canon) (sorted.foldl (observe canon) (opened admitted)) = final at *
  have hquiet : replaysAgain.foldl (replay canon) ⟨final.known, []⟩ = ⟨final.known, []⟩ := by
    refine foldl_replay_of_settled fun r hr row hrow => hsettled r (hreplays hr) row ?_
    rw [← hrow, hvalues]
    unfold replayRow
    rw [childReceipts_append hconflicts]
  rw [hadded, reconcile, pass, opened_append hok, foldl_observe_of_seen fun o ho => ?_, hquiet]
  obtain ⟨o', ho', heq⟩ := hagain o (mem_mergeSort.mp ho)
  rw [heq]
  exact (hseen o' (mem_mergeSort.mpr ho')).grow hgrows

def sample : Canonical := ⟨ChildRow.key, fun _ => "content", fun _ _ => "receipt"⟩

def ended (observedAt : ℕ) : SourceObservation := ⟨⟨"child", "turn", none, .terminal, .hook "stop" 3 1, []⟩, observedAt⟩

theorem reconcile_again_later : reconcile sample [ended 9] ([] ++ reconcile sample [ended 4] [] []) [] = [] :=
  reconcile_again (fun _ _ _ => show "receipt" ≠ "content" by decide) nofun (fun o ho => ⟨ended 4, mem_cons_self, by rw [mem_singleton.mp ho]; rfl⟩)
    (fun _ h => h)

end

structure StateReceipt where
  fact : Fact
  receipt : Receipt

def receiptPosition (receipt : Receipt) : ℕ :=
  match receipt.ref with
  | .hook _ _ seq => seq
  | .transcript _ => receipt.observedAt

def generationSize : Generation → ℤ
  | .sizeAndPrefixHash size _ => size
  | .inode _ _ => -1

section
open Selection

-- the canonical text of a generation, and the order of texts
variable {τ : Type*} [LinearOrder τ] (text : Generation → τ)

def compareTranscriptRefs (next current : TranscriptRef) : ℤ :=
  let size := generationSize next.generation - generationSize current.generation
  if text next.generation = text current.generation then next.offsetBytes - current.offsetBytes
  else if size ≠ 0 then size
  else if text current.generation < text next.generation then 1 else -1

def compareReceipts (next current : Receipt) : ℤ :=
  let rank : ℤ := authority next.ref - authority current.ref
  let position : ℤ := receiptPosition next - receiptPosition current
  if rank ≠ 0 then rank
  else if position ≠ 0 then position
  else match next.ref, current.ref with
    | .transcript next, .transcript current => compareTranscriptRefs text next current
    | _, _ => 0

def outranked (current next : StateReceipt) : StateReceipt :=
  if 0 < compareReceipts text next.receipt current.receipt then next else current

def currentState : List StateReceipt → Option StateReceipt
  | [] => none
  | first :: rest => some (rest.foldl (outranked text) first)

def Outranks (next current : StateReceipt) : Prop := 0 < compareReceipts text next.receipt current.receipt

/-- Where a receipt stands among the receipts of a child. -/
def standing (receipt : Receipt) : ℕ ×ₗ ℕ ×ₗ ℤ ×ₗ WithBot τ ×ₗ ℕ :=
  toLex (authority receipt.ref, toLex (receiptPosition receipt, match receipt.ref with
    | .hook _ _ _ => toLex (0, toLex (⊥, 0))
    | .transcript ref => toLex (generationSize ref.generation, toLex (↑(text ref.generation), ref.offsetBytes))))

variable {text} {receipts : List StateReceipt}

lemma outranks_iff (htext : text.Injective) (next current : StateReceipt) :
    Outranks text next current ↔ standing text current.receipt < standing text next.receipt := by
  obtain ⟨-, ⟨-, nref, -, nextAt⟩⟩ := next
  obtain ⟨-, ⟨-, cref, -, currentAt⟩⟩ := current
  cases nref <;> cases cref <;>
    simp only [Outranks, compareReceipts, compareTranscriptRefs, standing, Prod.Lex.toLex_lt_toLex, authority, receiptPosition,
      WithBot.coe_lt_coe, WithBot.coe_inj, htext.eq_iff]
  case transcript.transcript =>
    rcases eq_or_ne currentAt nextAt with rfl | hposition
    · rw [if_neg (by simp), if_neg (by simp)]
      split_ifs with hsame hsize hless
      · simp [hsame]
      · simp [Ne.symm hsame]
        omega
      · simp [hless]
        omega
      · simp [hless, Ne.symm hsame]
        omega
    · rw [if_neg (by omega), if_pos (by omega)]
      simp [hposition]
  all_goals
    split_ifs <;> simp <;> omega

lemma foldl_outranked_of_best {a : StateReceipt} (h : ∀ c ∈ receipts, ¬ Outranks text c a) :
    receipts.foldl (outranked text) a = a := by
  induction receipts with
  | nil => rfl
  | cons c receipts ih =>
    rw [forall_mem_cons] at h
    rw [foldl_cons, outranked, if_neg (show ¬ 0 < compareReceipts .. from h.1), ih h.2]

lemma best_of_currentState (htext : text.Injective) {top : StateReceipt} (h : currentState text receipts = some top) :
    Best (Outranks text) receipts top := by
  cases receipts with
  | nil => cases h
  | cons first rest =>
    cases h
    refine foldl_best (fun a => ?_) (fun a b c => ?_) first rest fun best _ x _ => ?_
    · rw [outranks_iff htext]
      exact lt_irrefl _
    · simp only [outranks_iff htext]
      exact fun hab hbc => hbc.trans hab
    · unfold outranked
      split_ifs with h
      · exact .inl ⟨h, rfl⟩
      · exact .inr ⟨h, rfl⟩

/-- The state that a child's receipts give depends on their order exactly when two of them are outranked by none. -/
theorem currentState_perm_iff (htext : text.Injective) :
    (∀ other, other ~ receipts → currentState text other = currentState text receipts) ↔
      ∀ a b, Best (Outranks text) receipts a → Best (Outranks text) receipts b → a = b := by
  constructor
  · intro h a b ha hb
    have hfirst : ∀ {a}, Best (Outranks text) receipts a → currentState text receipts = some a := by
      intro a ha
      obtain ⟨front, back, hsplit⟩ := append_of_mem ha.1
      rw [← h (a :: (front ++ back)) (hsplit ▸ perm_middle.symm), currentState, foldl_outranked_of_best fun c hc => ha.2 c ?_]
      rw [hsplit, mem_append, mem_cons]
      exact (mem_append.mp hc).imp_right .inr
    exact Option.some.inj ((hfirst ha).symm.trans (hfirst hb))
  · intro h other hother
    rcases other with _ | ⟨first, rest⟩
    · rw [hother.symm.eq_nil]
    rcases receipts with _ | ⟨first', rest'⟩
    · exact nomatch hother.eq_nil
    · have hbest := best_of_currentState htext (rfl : currentState text (first :: rest) = some _)
      exact congrArg some (h _ _ (hbest.mono (fun c hc => hother.mem_iff.mpr hc) (hother.mem_iff.mp hbest.1))
        (best_of_currentState htext rfl))

def sampleText : Generation → ℕ ×ₗ String ×ₗ String
  | .sizeAndPrefixHash size hash => toLex (size + 1, toLex (hash, ""))
  | .inode device inode => toLex (0, toLex (device, inode))

def heard (phase : Phase) : StateReceipt := ⟨⟨"child", "turn", none, phase⟩, ⟨"", .hook "stop" 3 1, [], 4⟩⟩

theorem currentState_perm_iff_tied : (∀ other, other ~ [heard .result, heard .terminal] →
      currentState sampleText other = currentState sampleText [heard .result, heard .terminal]) ↔
    ∀ a b, Best (Outranks sampleText) [heard .result, heard .terminal] a →
      Best (Outranks sampleText) [heard .result, heard .terminal] b → a = b :=
  currentState_perm_iff (by rintro (_ | _) (_ | _) h <;> simp_all [sampleText])

end
end Activity
end OpenOmni
