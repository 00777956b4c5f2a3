import OpenOmni.Fold.Carried
import OpenOmni.Fold.TailBound

/-! The kernels that write one file, each with the tails it carries, among every other writer of the file. -/
namespace OpenOmni
open List

open PlainValue SessionTransition FoldCheckpoint Transition

section
variable [PlainCoding]

/-- A file and, of each kernel over it, the tail that it carries of each session. -/
structure Writers where
  db : Db
  tails : ℕ → String → Option WriterTail

inductive WritersEvent where
  | commit (kernel : ℕ) (port : Option PinAction) (input : Commit)
  | write (op : WriteOp)
  | restart (kernel : ℕ)

def Writers.committed (cap : ℕ) (s : Writers) (kernel : ℕ) (port : Option PinAction) (input : Commit) : FoldCommit :=
  commitFoldBatch cap port s.db (s.tails kernel input.sessionId) input

/-- A kernel commits through its tail, any writer writes past all tails, or a kernel starts anew. -/
inductive WritersStep (cap : ℕ) : Writers → WritersEvent → Writers → Prop where
  | commit {a : Writers} {kernel : ℕ} {port : Option PinAction} {input : Commit} :
      ComposedPort port → WritersStep cap a (.commit kernel port input)
        ⟨(a.committed cap kernel port input).db, Function.update a.tails kernel
          (Function.update (a.tails kernel) input.sessionId (a.committed cap kernel port input).tail)⟩
  | write {a : Writers} {op : WriteOp} : WritersStep cap a (.write op) ⟨(write cap op a.db).2, a.tails⟩
  | restart {a : Writers} {kernel : ℕ} :
      WritersStep cap a (.restart kernel) ⟨a.db, Function.update a.tails kernel fun _ => none⟩

def Writers.Fresh (s : Writers) : Prop := s.db = {} ∧ s.tails = fun _ _ => none

/-- A tail is of no later revision, and of the rows where it is of theirs. -/
structure TailKept (db : Db) (sessionId : String) (tail : WriterTail) : Prop where
  revision : tail.revision ≤ (db.rows sessionId).length
  current : tail.revision = (db.rows sessionId).length → CarriedAt sessionId (db.rows sessionId) tail

structure WritersInv (s : Writers) : Prop where
  chain : ChainInv s.db
  kept : ∀ kernel sessionId tail, s.tails kernel sessionId = some tail → TailKept s.db sessionId tail

theorem TailKept.grow {db db' : Db} {submitted : List Append} {sessionId : String} {tail : WriterTail}
    (h : TailKept db sessionId tail) (hgrows : Grows submitted db db') : TailKept db' sessionId tail := by
  obtain ⟨new, hactions, -⟩ := hgrows
  have hrows : db'.rows sessionId = db.rows sessionId ++ new.filter (·.sessionId = sessionId) := by
    simp [Db.rows, hactions]
  have hrevision := h.revision
  constructor
  · rw [hrows, length_append]
    omega
  · intro hcurrent
    rw [hrows, length_append] at hcurrent
    have hnone : new.filter (·.sessionId = sessionId) = [] := length_eq_zero_iff.mp (by omega)
    rw [hrows, hnone, append_nil]
    apply h.current
    omega

theorem committed_grows (cap : ℕ) (s : Writers) (kernel : ℕ) (port : Option PinAction) (input : Commit) :
    ∃ submitted, Grows submitted s.db (s.committed cap kernel port input).db := by
  have hkernel : ∀ {batch row receipts db'}, kernelCommit cap batch s.db = (.ok (row, receipts), db') →
      Grows batch.actions s.db db' := by
    intro batch row receipts db' hcommit
    have hgrows := write_grows cap (.commit batch) s.db
    have hdb : (write cap (.commit batch) s.db).2 = db' := by
      unfold kernelCommit at hcommit
      split at hcommit
      · rename_i hwrite
        rw [hwrite]
        exact (Prod.mk.inj hcommit).2
      · cases (Prod.mk.inj hcommit).1
      · cases (Prod.mk.inj hcommit).1
    rwa [hdb] at hgrows
  have hcase := commitFoldBatch_cases cap port s.db (s.tails kernel input.sessionId) input
  unfold Writers.committed
  generalize commitFoldBatch cap port s.db (s.tails kernel input.sessionId) input = committed at hcase ⊢
  cases hcase with
  | failed failure warned => exact ⟨[], Grows.refl _ _⟩
  | counted _ _ _ hcommit | planned _ _ _ hcommit | fallback _ _ _ _ _ hcommit => exact ⟨_, hkernel hcommit⟩

variable {cap : ℕ} {s : Writers}

lemma committed_chain (hdb : ChainInv s.db) {kernel : ℕ} {port : Option PinAction} {input : Commit} :
    ChainInv (s.committed cap kernel port input).db := by
  have hcase := commitFoldBatch_cases cap port s.db (s.tails kernel input.sessionId) input
  unfold Writers.committed
  generalize commitFoldBatch cap port s.db (s.tails kernel input.sessionId) input = committed at hcase ⊢
  cases hcase with
  | failed failure warned => exact hdb
  | counted _ _ _ hcommit | planned _ _ _ hcommit | fallback _ _ _ _ _ hcommit => exact (kernelCommit_ok hdb hcommit).chain

lemma WritersInv.carried (h : WritersInv s) (kernel : ℕ) (input : Commit) :
    ∀ tail, s.tails kernel input.sessionId = some tail → tail.revision = (s.db.rows input.sessionId).length →
      CarriedAt input.sessionId (s.db.rows input.sessionId) tail :=
  fun tail htail hcurrent => (h.kept kernel input.sessionId tail htail).current hcurrent

lemma WritersInv.step {a b : Writers} {event : WritersEvent} (ha : WritersInv a) (h : WritersStep cap a event b) :
    WritersInv b := by
  cases h with
  | @commit kernel port input hport =>
    refine ⟨committed_chain ha.chain, ?_⟩
    intro other sessionId tail htail
    obtain ⟨submitted, hgrows⟩ := committed_grows cap a kernel port input
    dsimp only at htail ⊢
    have hbefore : a.tails other sessionId = some tail → TailKept (a.committed cap kernel port input).db sessionId tail :=
      fun hold => (ha.kept other sessionId tail hold).grow hgrows
    by_cases hkernel : other = kernel
    · subst hkernel
      rw [Function.update_self] at htail
      by_cases hsession : sessionId = input.sessionId
      · subst hsession
        rw [Function.update_self] at htail
        obtain ⟨hrevision, hat⟩ := commitFoldBatch_carried ha.chain hport (ha.carried other input) htail
        exact ⟨hrevision.le, fun _ => hat⟩
      · rw [Function.update_of_ne hsession] at htail
        exact hbefore htail
    · rw [Function.update_of_ne hkernel] at htail
      exact hbefore htail
  | @write op =>
    refine ⟨(write_chainInv cap op ha.chain).1, ?_⟩
    intro other sessionId tail htail
    exact (ha.kept other sessionId tail htail).grow (write_grows cap op a.db)
  | @restart kernel =>
    refine ⟨ha.chain, ?_⟩
    intro other sessionId tail htail
    dsimp only at htail ⊢
    by_cases hkernel : other = kernel
    · subst hkernel
      rw [Function.update_self] at htail
      cases htail
    · rw [Function.update_of_ne hkernel] at htail
      exact ha.kept other sessionId tail htail

lemma Writers.Fresh.inv (h : s.Fresh) : WritersInv s := by
  obtain ⟨hdb, htails⟩ := h
  constructor
  · rw [hdb]
    exact ChainInv.empty
  · intro kernel sessionId tail htail
    rw [htails] at htail
    cases htail

lemma WritersInv.visits {t : Writers} {trace : List (Writers × WritersEvent)} (hs : s.Fresh)
    (run : Run (WritersStep cap) s trace t) : ∀ e ∈ trace, WritersInv e.1 :=
  run.visits hs.inv fun _ _ _ ha hstep => ha.step hstep

end

namespace WritersSample

attribute [local instance] textCoding

def settings : PlainValue :=
  record [("steering", some (.str "all")), ("followUp", some (.str "all")),
    ("checkpoint", some (record [("everyActions", some (.num 1)), ("maxTailBytes", some (.num 4096))]))]

def genesis : Append where
  id := "s:configure"
  parentId := none
  sessionId := "s"
  kind := .sessionConfigure
  intent := record [("settings", some settings)]
  effect := .null
  ts := 0

def start : Writers := ⟨{}, fun _ _ => none⟩

def created : Writers := ⟨(write 500 (.materialize ⟨TailSample.sessionRow, genesis⟩) start.db).2, start.tails⟩

def activated : Writers := ⟨(write 500 (.adoptFence TailSample.authority) created.db).2, created.tails⟩

def opening : Commit where
  sessionId := "s"
  owner := "runner"
  fence := 1
  now := 1
  expectedRevision := 1
  actions := [⟨"opened", some "s:configure", "s", .policyDecision, record [("phase", some (.str "intent"))], .null, none, 1⟩]
  state := .idle

def closing : Commit where
  sessionId := "s"
  owner := "runner"
  fence := 1
  now := 2
  expectedRevision := 2
  actions := [⟨"closed", some "opened", "s", .policyDecision, .null, record [("phase", some (.str "result"))], none, 2⟩]
  state := .idle

def opened : Writers where
  db := (activated.committed 500 0 none opening).db
  tails := Function.update activated.tails 0
    (Function.update (activated.tails 0) "s" (activated.committed 500 0 none opening).tail)

def closed : Writers where
  db := (opened.committed 500 0 none closing).db
  tails := Function.update opened.tails 0 (Function.update (opened.tails 0) "s" (opened.committed 500 0 none closing).tail)

lemma fresh_start : start.Fresh := ⟨rfl, rfl⟩

end WritersSample
end OpenOmni
