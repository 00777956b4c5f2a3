import OpenOmni.Lib.Dict
import OpenOmni.Lib.Run
import OpenOmni.Lib.Slots

/-! The file of attach generations: its lock directory, and the file-system steps of `compareAndSet` in each
of the processes that share it. -/
namespace OpenOmni
namespace Generation
open List

/-- A call as the host makes it: the next generation is the one behind the generation it expects. -/
structure Call where
  machineId : String
  expected : Option ℕ
deriving DecidableEq

def Call.next (c : Call) : ℕ := c.expected.getD 0 + 1

/-- The lock directory with its pid file, and which `mkdir` made it. -/
structure LockDir where
  pid : Option ℕ
  made : ℕ

/-- What `lockedCompareAndSet` has to answer with behind its publication. -/
structure Ending where
  published : Bool
  result : Bool
  failed : Bool
deriving DecidableEq

/-- Where a process stands inside `compareAndSet`, and the lock directory it stands in. -/
inductive Pc where
  | idle
  | mkdir (c : Call) (attempt : ℕ)
  | readPid (c : Call) (attempt : ℕ)
  | kill (c : Call) (attempt pid made : ℕ)
  | steal (c : Call) (attempt made : ℕ)
  | writePid (c : Call) (made : ℕ)
  | abandon (made : ℕ)
  | read (c : Call) (made : ℕ)
  | writeTmp (c : Call) (made : ℕ) (generations : Dict String ℕ)
  | rename (c : Call) (made : ℕ) (generations : Dict String ℕ)
  | rmTmp (made : ℕ) (ending : Ending)
  | rmPid (made : ℕ) (ending : Ending) (again : Bool)
  | rmDir (made : ℕ) (ending : Ending) (again : Bool)
  | returned (result : Except Unit Bool)
  | crashed
deriving DecidableEq

structure Proc where
  pid : ℕ
  pc : Pc

structure Commit where
  process : ℕ
  call : Call
deriving DecidableEq

/-- The shared files, the processes, and the generations published so far. `minted` counts the lock
directories ever made. -/
structure World where
  lock : Option LockDir
  file : Option (Dict String ℕ)
  tmp : Option (Dict String ℕ)
  minted : ℕ
  procs : List Proc
  commits : List Commit

/-- `read`: a missing file holds no generation. -/
def World.generations (w : World) : Dict String ℕ := w.file.getD Dict.empty

/-- `process.kill(pid, 0)` finds no process. -/
def World.gone (w : World) (pid : ℕ) : Bool := !w.procs.any fun p => p.pid = pid ∧ p.pc ≠ .crashed

def World.move (w : World) (i : ℕ) (p : Proc) (pc : Pc) : World := { w with procs := w.procs.set i { p with pc := pc } }

/-- The end of `acquireLock`'s loop. -/
def nextAttempt (c : Call) (attempt : ℕ) : Pc :=
  if attempt + 1 < 2 then .mkdir c (attempt + 1) else .returned (.ok false)

def Ending.answer (e : Ending) : Except Unit Bool := if e.failed then .error () else .ok e.result

/-- A cleanup that throws fails the call only when nothing was published. -/
def Ending.cleanupFailed (e : Ending) : Ending := { e with failed := e.failed || !e.published }

/-- The next file-system step of process `i`, each atomic. -/
def advance (w : World) (i : ℕ) (p : Proc) : Option World :=
  match p.pc with
  | .mkdir c attempt =>
    match w.lock with
    | none => some { w.move i p (.writePid c w.minted) with lock := some ⟨none, w.minted⟩, minted := w.minted + 1 }
    | some _ => some (w.move i p (.readPid c attempt))
  | .readPid c attempt =>
    match w.lock with
    | some ⟨some pid, made⟩ => some (w.move i p (.kill c attempt pid made))
    | _ => some (w.move i p (.returned (.error ())))
  | .kill c attempt pid made =>
    if pid < 1 then some (w.move i p (.returned (.ok false)))
    else if w.gone pid then some (w.move i p (.steal c attempt made))
    else some (w.move i p (.returned (.ok false)))
  | .steal c attempt _ =>
    match w.lock with
    | none => some (w.move i p (.returned (.error ())))
    | some _ => some { w.move i p (nextAttempt c attempt) with lock := none }
  | .writePid c made =>
    match w.lock with
    | none => some (w.move i p (.abandon made))
    | some dir => some { w.move i p (.read c made) with lock := some { dir with pid := some p.pid } }
  | .abandon _ => some { w.move i p (.returned (.error ())) with lock := none }
  | .read c made =>
    if w.generations.get? c.machineId ≠ c.expected then some (w.move i p (.rmTmp made ⟨false, false, false⟩))
    else some (w.move i p (.writeTmp c made w.generations))
  | .writeTmp c made generations =>
    some { w.move i p (.rename c made generations) with tmp := some (generations.set c.machineId c.next) }
  | .rename c made _ =>
    match w.tmp with
    | none => some (w.move i p (.rmTmp made ⟨false, false, true⟩))
    | some generations => some { w.move i p (.rmTmp made ⟨true, true, false⟩) with
        file := some generations, tmp := none, commits := w.commits ++ [⟨i, c⟩] }
  | .rmTmp made ending => some { w.move i p (.rmPid made ending false) with tmp := none }
  | .rmPid made ending again =>
    some { w.move i p (.rmDir made ending again) with lock := w.lock.map fun dir => { dir with pid := none } }
  | .rmDir made ending again =>
    match w.lock with
    | some ⟨none, _⟩ => some { w.move i p (.returned ending.answer) with lock := none }
    | _ =>
      if again then some (w.move i p (.returned ending.cleanupFailed.answer))
      else some (w.move i p (.rmPid made ending.cleanupFailed true))
  | .idle | .returned _ | .crashed => none

inductive Event where
  | start (pid : ℕ)
  | call (i : ℕ) (c : Call)
  | run (i : ℕ)
  | crash (i : ℕ)

def step (w : World) : Event → Option World
  | .start pid => some { w with procs := w.procs ++ [⟨pid, .idle⟩] }
  | .call i c => do
    let p ← w.procs[i]?
    match p.pc with
    | .idle | .returned _ => some (w.move i p (.mkdir c 0))
    | _ => none
  | .run i => do
    let p ← w.procs[i]?
    advance w i p
  | .crash i => do
    let p ← w.procs[i]?
    some (w.move i p .crashed)

def start (file : Option (Dict String ℕ)) : World := ⟨none, file, none, 0, [], []⟩

/-- Two processes judge the lock of a dead third one; the second removes the lock the first has made since. -/
def stolenLock : List Event :=
  let c : Call := ⟨"m", none⟩
  [.start 1, .call 0 c, .run 0, .run 0, .crash 0,
    .start 2, .start 3,
    .call 1 c, .run 1, .run 1, .run 1,
    .call 2 c, .run 2, .run 2, .run 2,
    .run 1, .run 1, .run 1, .run 1,
    .run 2, .run 2, .run 2, .run 2,
    .run 1, .run 1, .run 2, .run 2]

example : (stolenLock.foldlM step (start none)).map (·.commits) =
    some [⟨1, ⟨"m", none⟩⟩, ⟨2, ⟨"m", none⟩⟩] := by decide

def Pc.holds : Pc → Option ℕ
  | .writePid _ made => some made
  | .abandon made => some made
  | .read _ made => some made
  | .writeTmp _ made _ => some made
  | .rename _ made _ => some made
  | .rmTmp made _ => some made
  | .rmPid made _ _ => some made
  | .rmDir made _ _ => some made
  | _ => none

def Proc.lockPid (p : Proc) : Option ℕ :=
  match p.pc with
  | .writePid _ _ => none
  | .rmDir _ _ _ => none
  | _ => some p.pid

def Pc.Plain : Pc → Prop
  | .abandon _ => False
  | .rmPid _ _ again => again = false
  | .rmDir _ _ again => again = false
  | _ => True

/-- What the lock keeps: a holder stands under its own directory, alone, and nobody judges it dead. -/
structure Locked (w : World) : Prop where
  held : ∀ (i : ℕ) (p : Proc) made, w.procs[i]? = some p → p.pc.holds = some made → w.lock = some ⟨p.lockPid, made⟩
  alone : ∀ (i j : ℕ) (p q : Proc) made, w.procs[i]? = some p → w.procs[j]? = some q → p.pc.holds = some made →
    q.pc.holds = some made → i = j
  minted : ∀ dir, w.lock = some dir → dir.made < w.minted
  judged : ∀ (i : ℕ) (p : Proc) c attempt pid made, w.procs[i]? = some p → p.pc = .kill c attempt pid made →
    made < w.minted ∧ ∀ (j : ℕ) (q : Proc), w.procs[j]? = some q → q.pc.holds = some made → q.pid = pid
  dead : ∀ (i : ℕ) (p : Proc) c attempt made, w.procs[i]? = some p → p.pc = .steal c attempt made →
    made < w.minted ∧ ∀ (j : ℕ) (q : Proc), w.procs[j]? = some q → q.pc.holds ≠ some made
  plain : ∀ (i : ℕ) (p : Proc), w.procs[i]? = some p → p.pc.Plain

lemma locked_start (file : Option (Dict String ℕ)) : Locked (start file) where
  held := by simp [start]
  alone := by simp [start]
  minted := by simp [start]
  judged := by simp [start]
  dead := by simp [start]
  plain := by simp [start]

variable {w w' : World} {i j made : ℕ} {p q : Proc} {pc : Pc}

lemma Locked.exclusive (h : Locked w) {made' : ℕ} (hp : w.procs[i]? = some p) (hq : w.procs[j]? = some q)
    (hmade : p.pc.holds = some made) (hmade' : q.pc.holds = some made') : i = j := by
  have hlock := h.held i p made hp hmade
  rw [h.held j q made' hq hmade', Option.some.injEq, LockDir.mk.injEq] at hlock
  rw [hlock.2] at hmade'
  exact h.alone i j p q made hp hq hmade hmade'

section
variable (h : Locked w) (hp : w.procs[i]? = some p) (hprocs : w'.procs = w.procs.set i { p with pc := pc })
include h hp hprocs

/-- What one process may do to the lock: it comes to hold a new directory or goes on under its own, leaves the
lock alone while another holds it, and judges only what it has seen. -/
theorem Locked.of (hminted : w.minted ≤ w'.minted) (hlock : ∀ dir, w'.lock = some dir → dir.made < w'.minted)
    (hself : ∀ made, pc.holds = some made → w'.lock = some ⟨Proc.lockPid ⟨p.pid, pc⟩, made⟩ ∧
      (p.pc.holds = some made ∨ w.minted ≤ made))
    (hothers : ∀ (j : ℕ) (q : Proc) made, j ≠ i → w.procs[j]? = some q → q.pc.holds = some made → w'.lock = w.lock)
    (hkill : ∀ c attempt pid made, pc = .kill c attempt pid made →
      made < w.minted ∧ ∀ (j : ℕ) (q : Proc), w.procs[j]? = some q → q.pc.holds = some made → q.pid = pid)
    (hsteal : ∀ c attempt made, pc = .steal c attempt made →
      made < w.minted ∧ ∀ (j : ℕ) (q : Proc), w.procs[j]? = some q → q.pc.holds ≠ some made) (hplain : pc.Plain) :
    Locked w' := by
  -- a directory somebody else holds is an old one
  have hold : ∀ (j : ℕ) (q : Proc) made, w.procs[j]? = some q → q.pc.holds = some made → made < w.minted :=
    fun j q made hq hmade => h.minted _ (h.held j q made hq hmade)
  refine ⟨?_, ?_, hlock, ?_, ?_, ?_⟩
  · intro j q made hq hmade
    rw [hprocs] at hq
    rcases Slots.set_cases hp hq with ⟨rfl, rfl⟩ | ⟨hj, hq⟩
    · exact (hself made hmade).1
    · rw [hothers j q made hj hq hmade]
      exact h.held j q made hq hmade
  · intro j k q r made hq hr hqMade hrMade
    rw [hprocs] at hq hr
    rcases Slots.set_cases hp hq with ⟨rfl, rfl⟩ | ⟨hj, hqOld⟩
    · rcases Slots.set_cases hp hr with ⟨rfl, -⟩ | ⟨hk, hr⟩
      · rfl
      · rcases (hself made hqMade).2 with hown | hnew
        · exact h.alone _ _ p r made hp hr hown hrMade
        · have := hold k r made hr hrMade
          omega
    · rcases Slots.set_cases hp hr with ⟨rfl, rfl⟩ | ⟨hk, hrOld⟩
      · rcases (hself made hrMade).2 with hown | hnew
        · exact h.alone _ _ q p made hqOld hp hqMade hown
        · have := hold j q made hqOld hqMade
          omega
      · exact h.alone j k q r made hqOld hrOld hqMade hrMade
  · intro j q c attempt pid made hq hpc
    rw [hprocs] at hq
    have hseen : made < w.minted ∧ ∀ (k : ℕ) (r : Proc), w.procs[k]? = some r → r.pc.holds = some made → r.pid = pid := by
      rcases Slots.set_cases hp hq with ⟨-, rfl⟩ | ⟨-, hq⟩
      · exact hkill c attempt pid made hpc
      · exact h.judged j q c attempt pid made hq hpc
    refine ⟨by omega, ?_⟩
    intro k r hr hmade
    rw [hprocs] at hr
    rcases Slots.set_cases hp hr with ⟨-, rfl⟩ | ⟨-, hr⟩
    · rcases (hself made hmade).2 with hown | hnew
      · exact hseen.2 i p hp hown
      · omega
    · exact hseen.2 k r hr hmade
  · intro j q c attempt made hq hpc
    rw [hprocs] at hq
    have hseen : made < w.minted ∧ ∀ (k : ℕ) (r : Proc), w.procs[k]? = some r → r.pc.holds ≠ some made := by
      rcases Slots.set_cases hp hq with ⟨-, rfl⟩ | ⟨-, hq⟩
      · exact hsteal c attempt made hpc
      · exact h.dead j q c attempt made hq hpc
    refine ⟨by omega, ?_⟩
    intro k r hr hmade
    rw [hprocs] at hr
    rcases Slots.set_cases hp hr with ⟨-, rfl⟩ | ⟨-, hr⟩
    · rcases (hself made hmade).2 with hown | hnew
      · exact hseen.2 i p hp hown
      · omega
    · exact hseen.2 k r hr hmade
  · intro j q hq
    rw [hprocs] at hq
    rcases Slots.set_cases hp hq with ⟨-, rfl⟩ | ⟨-, hq⟩
    · exact hplain
    · exact h.plain j q hq

theorem Locked.move (hminted : w'.minted = w.minted) (hlock : w'.lock = w.lock)
    (hself : pc.holds = none ∨ pc.holds = p.pc.holds ∧ Proc.lockPid ⟨p.pid, pc⟩ = p.lockPid)
    (hkill : ∀ c attempt pid made, pc = .kill c attempt pid made →
      made < w.minted ∧ ∀ (j : ℕ) (q : Proc), w.procs[j]? = some q → q.pc.holds = some made → q.pid = pid)
    (hsteal : ∀ c attempt made, pc = .steal c attempt made →
      made < w.minted ∧ ∀ (j : ℕ) (q : Proc), w.procs[j]? = some q → q.pc.holds ≠ some made) (hplain : pc.Plain) :
    Locked w' := by
  refine h.of hp hprocs (by omega) ?_ ?_ (fun _ _ _ _ _ _ => hlock) hkill hsteal hplain
  · intro dir hdir
    rw [hminted]
    exact h.minted dir (hlock ▸ hdir)
  · intro made hmade
    rcases hself with hnone | ⟨hsame, hpid⟩
    · rw [hnone] at hmade
      cases hmade
    · rw [hsame] at hmade
      refine ⟨?_, .inl hmade⟩
      rw [hlock, hpid]
      exact h.held i p made hp hmade

end

/-- A removal of a stale lock removes the directory whose pid it has judged. -/
def stealsJudged (w : World) : Event → Bool
  | .run i =>
    match w.procs[i]?.map Proc.pc, w.lock with
    | some (.steal _ _ made), some dir => decide (dir.made = made)
    | _, _ => true
  | _ => true

lemma stealsJudged_run {c : Call} {attempt : ℕ} {dir : LockDir} (h : stealsJudged w (.run i) = true)
    (hp : w.procs[i]? = some p) (hpc : p.pc = .steal c attempt made) (hlock : w.lock = some dir) : dir.made = made := by
  simpa [stealsJudged, hp, hpc, hlock] using h

theorem not_gone (hq : w.procs[j]? = some q) (hmade : q.pc.holds = some made) : w.gone q.pid = false := by
  have hmem : q ∈ w.procs := mem_of_getElem? hq
  have hlive : q.pc ≠ .crashed := by
    intro hcrashed
    rw [hcrashed] at hmade
    cases hmade
  simp only [World.gone, Bool.not_eq_false', any_eq_true, decide_eq_true_eq]
  exact ⟨q, hmem, rfl, hlive⟩

lemma locked_advance (h : Locked w) (hp : w.procs[i]? = some p) (hjudged : stealsJudged w (.run i) = true)
    (hstep : advance w i p = some w') : Locked w' := by
  -- while this process holds the lock nobody else does
  have honly : ∀ {made}, p.pc.holds = some made → ∀ (j : ℕ) (q : Proc) m, j ≠ i → w.procs[j]? = some q →
      q.pc.holds = some m → False :=
    fun hmade j q m hj hq hm => hj (h.exclusive hq hp hm hmade)
  unfold advance at hstep
  cases hpc : p.pc with
  | idle | returned result | crashed => simp [hpc] at hstep
  | mkdir c attempt =>
    simp only [hpc] at hstep
    cases hlock : w.lock with
    | some dir =>
      simp only [hlock] at hstep
      cases hstep
      exact h.move hp rfl rfl rfl (.inl rfl) (by simp) (by simp) trivial
    | none =>
      simp only [hlock] at hstep
      cases hstep
      refine h.of hp rfl (Nat.le_succ _) ?_ ?_ ?_ (by simp) (by simp) trivial
      · intro dir hdir
        cases hdir
        exact Nat.lt_succ_self _
      · intro made hmade
        cases hmade
        exact ⟨rfl, .inr (Nat.le_refl _)⟩
      · intro j q made _ hq hmade
        have hheld := h.held j q made hq hmade
        rw [hlock] at hheld
        cases hheld
  | readPid c attempt =>
    simp only [hpc] at hstep
    cases hlock : w.lock with
    | none =>
      simp only [hlock] at hstep
      cases hstep
      exact h.move hp rfl rfl rfl (.inl rfl) (by simp) (by simp) trivial
    | some dir =>
      obtain ⟨pid?, made⟩ := dir
      cases pid? with
      | none =>
        simp only [hlock] at hstep
        cases hstep
        exact h.move hp rfl rfl rfl (.inl rfl) (by simp) (by simp) trivial
      | some pid =>
        simp only [hlock] at hstep
        cases hstep
        refine h.move hp rfl rfl rfl (.inl rfl) ?_ (by simp) trivial
        intro c' attempt' pid' made' hkill
        obtain ⟨-, -, rfl, rfl⟩ := Pc.kill.inj hkill
        refine ⟨h.minted _ hlock, ?_⟩
        intro j q hq hmade
        -- the pid that stands in a held directory is its holder's
        have hheld := h.held j q made hq hmade
        rw [hlock, Option.some.injEq, LockDir.mk.injEq] at hheld
        have hpid := hheld.1
        unfold Proc.lockPid at hpid
        split at hpid
        · cases hpid
        · cases hpid
        · exact (Option.some.inj hpid).symm
  | kill c attempt pid made =>
    simp only [hpc] at hstep
    split at hstep
    · cases hstep
      exact h.move hp rfl rfl rfl (.inl rfl) (by simp) (by simp) trivial
    · split at hstep
      · rename_i hgone
        cases hstep
        refine h.move hp rfl rfl rfl (.inl rfl) (by simp) ?_ trivial
        intro c' attempt' made' hsteal
        obtain ⟨-, -, rfl⟩ := Pc.steal.inj hsteal
        obtain ⟨hseen, hpids⟩ := h.judged i p c attempt pid made hp hpc
        refine ⟨hseen, ?_⟩
        intro j q hq hmade
        have hlive := not_gone hq hmade
        rw [hpids j q hq hmade, hgone] at hlive
        cases hlive
      · cases hstep
        exact h.move hp rfl rfl rfl (.inl rfl) (by simp) (by simp) trivial
  | steal c attempt made =>
    simp only [hpc] at hstep
    have hnext : (nextAttempt c attempt).holds = none ∧ (∀ c' a pid m, nextAttempt c attempt ≠ .kill c' a pid m) ∧
        (∀ c' a m, nextAttempt c attempt ≠ .steal c' a m) ∧ (nextAttempt c attempt).Plain := by
      unfold nextAttempt
      split <;> simp [Pc.holds, Pc.Plain]
    cases hlock : w.lock with
    | none =>
      simp only [hlock] at hstep
      cases hstep
      exact h.move hp rfl rfl rfl (.inl rfl) (by simp) (by simp) trivial
    | some dir =>
      simp only [hlock] at hstep
      cases hstep
      refine h.of hp rfl (Nat.le_refl _) (by simp) ?_ ?_ (fun c' a pid m hk => absurd hk (hnext.2.1 c' a pid m))
        (fun c' a m hs => absurd hs (hnext.2.2.1 c' a m)) hnext.2.2.2
      · intro m hm
        rw [hnext.1] at hm
        cases hm
      · -- the directory it removes is the one it judged, and that one nobody holds
        intro j q m _ hq hm
        have hheld := h.held j q m hq hm
        have hmade := stealsJudged_run hjudged hp hpc hlock
        rw [hlock, Option.some.injEq] at hheld
        rw [hheld] at hmade
        exact absurd (hmade ▸ hm) ((h.dead i p c attempt made hp hpc).2 j q hq)
  | writePid c made =>
    have hheld := h.held i p made hp (by rw [hpc]; rfl)
    simp only [hpc, hheld] at hstep
    cases hstep
    refine h.of hp rfl (Nat.le_refl _) ?_ ?_ ?_ (by simp) (by simp) trivial
    · intro dir hdir
      cases hdir
      have hold := h.minted _ hheld
      exact hold
    · intro m hm
      cases hm
      exact ⟨rfl, .inl (by rw [hpc]; rfl)⟩
    · intro j q m hj hq hm
      exact (honly (by rw [hpc]; rfl) j q m hj hq hm).elim
  | abandon made => exact absurd (h.plain i p hp) (by simp [hpc, Pc.Plain])
  | read c made =>
    simp only [hpc] at hstep
    have hsame : p.lockPid = some p.pid := by simp [Proc.lockPid, hpc]
    split at hstep
    · cases hstep
      exact h.move hp rfl rfl rfl (.inr ⟨by rw [hpc]; rfl, hsame.symm⟩) (by simp) (by simp) trivial
    · cases hstep
      exact h.move hp rfl rfl rfl (.inr ⟨by rw [hpc]; rfl, hsame.symm⟩) (by simp) (by simp) trivial
  | writeTmp c made generations =>
    simp only [hpc] at hstep
    cases hstep
    have hsame : p.lockPid = some p.pid := by simp [Proc.lockPid, hpc]
    exact h.move hp rfl rfl rfl (.inr ⟨by rw [hpc]; rfl, hsame.symm⟩) (by simp) (by simp) trivial
  | rename c made generations =>
    simp only [hpc] at hstep
    have hsame : p.lockPid = some p.pid := by simp [Proc.lockPid, hpc]
    cases htmp : w.tmp with
    | none | some next =>
      simp only [htmp] at hstep
      cases hstep
      exact h.move hp rfl rfl rfl (.inr ⟨by rw [hpc]; rfl, hsame.symm⟩) (by simp) (by simp) trivial
  | rmTmp made ending =>
    simp only [hpc] at hstep
    cases hstep
    have hsame : p.lockPid = some p.pid := by simp [Proc.lockPid, hpc]
    exact h.move hp rfl rfl rfl (.inr ⟨by rw [hpc]; rfl, hsame.symm⟩) (by simp) (by simp) rfl
  | rmPid made ending again =>
    have hheld := h.held i p made hp (by rw [hpc]; rfl)
    have hagain : again = false := by simpa [hpc, Pc.Plain] using h.plain i p hp
    simp only [hpc, hheld] at hstep
    cases hstep
    refine h.of hp rfl (Nat.le_refl _) ?_ ?_ ?_ (by simp) (by simp) hagain
    · intro dir hdir
      cases hdir
      have hold := h.minted _ hheld
      exact hold
    · intro m hm
      cases hm
      exact ⟨rfl, .inl (by rw [hpc]; rfl)⟩
    · intro j q m hj hq hm
      exact (honly (by rw [hpc]; rfl) j q m hj hq hm).elim
  | rmDir made ending again =>
    have hheld := h.held i p made hp (by rw [hpc]; rfl)
    have hpid : p.lockPid = none := by simp [Proc.lockPid, hpc]
    rw [hpid] at hheld
    simp only [hpc, hheld] at hstep
    cases hstep
    refine h.of hp rfl (Nat.le_refl _) (by simp) (by simp [Pc.holds]) ?_ (by simp) (by simp) trivial
    intro j q m hj hq hm
    exact (honly (by rw [hpc]; rfl) j q m hj hq hm).elim

/-- What the files keep while the lock is held: a writer's map is the file's, and every published
generation of a machine is behind the one in the file. -/
structure Filed (w : World) : Prop where
  writing : ∀ (i : ℕ) (p : Proc) c made generations, w.procs[i]? = some p → p.pc = .writeTmp c made generations →
    generations = w.generations ∧ w.generations.get? c.machineId = c.expected
  moving : ∀ (i : ℕ) (p : Proc) c made generations, w.procs[i]? = some p → p.pc = .rename c made generations →
    w.generations.get? c.machineId = c.expected ∧ w.tmp = some (w.generations.set c.machineId c.next)
  once : w.commits.Pairwise fun a b => a.call.machineId = b.call.machineId →
    a.call.next < b.call.next ∧ a.call.expected ≠ b.call.expected
  last : ∀ a ∈ w.commits, a.call.next ≤ (w.generations.get? a.call.machineId).getD 0

lemma filed_start (file : Option (Dict String ℕ)) : Filed (start file) where
  writing := by simp [start]
  moving := by simp [start]
  once := .nil
  last := by simp [start]

theorem Filed.move (h : Filed w) (hp : w.procs[i]? = some p) (hprocs : w'.procs = w.procs.set i { p with pc := pc })
    (hfile : w'.file = w.file) (htmp : w'.tmp = w.tmp) (hcommits : w'.commits = w.commits)
    (hwriting : ∀ c made generations, pc = .writeTmp c made generations →
      generations = w.generations ∧ w.generations.get? c.machineId = c.expected)
    (hmoving : ∀ c made generations, pc = .rename c made generations → False) : Filed w' := by
  have hgenerations : w'.generations = w.generations := by rw [World.generations, World.generations, hfile]
  refine ⟨?_, ?_, ?_, ?_⟩
  · intro j q c made generations hq hpc
    rw [hprocs] at hq
    rw [hgenerations]
    rcases Slots.set_cases hp hq with ⟨-, rfl⟩ | ⟨-, hq⟩
    · exact hwriting c made generations hpc
    · exact h.writing j q c made generations hq hpc
  · intro j q c made generations hq hpc
    rw [hprocs] at hq
    rw [hgenerations, htmp]
    rcases Slots.set_cases hp hq with ⟨-, rfl⟩ | ⟨-, hq⟩
    · exact (hmoving c made generations hpc).elim
    · exact h.moving j q c made generations hq hpc
  · rw [hcommits]
    exact h.once
  · rw [hcommits, hgenerations]
    exact h.last

theorem Filed.of (h : Locked w) (hp : w.procs[i]? = some p) (hholds : p.pc.holds = some made)
    (hprocs : w'.procs = w.procs.set i { p with pc := pc })
    (hwriting : ∀ c made generations, pc = .writeTmp c made generations → False)
    (hmoving : ∀ c made generations, pc = .rename c made generations →
      w'.generations.get? c.machineId = c.expected ∧ w'.tmp = some (w'.generations.set c.machineId c.next))
    (honce : w'.commits.Pairwise fun a b => a.call.machineId = b.call.machineId →
      a.call.next < b.call.next ∧ a.call.expected ≠ b.call.expected)
    (hlast : ∀ a ∈ w'.commits, a.call.next ≤ (w'.generations.get? a.call.machineId).getD 0) : Filed w' := by
  refine ⟨?_, ?_, honce, hlast⟩
  · intro j q c m generations hq hpc
    rw [hprocs] at hq
    rcases Slots.set_cases hp hq with ⟨-, rfl⟩ | ⟨hj, hq⟩
    · exact (hwriting c m generations hpc).elim
    · exact absurd (h.exclusive hq hp (by rw [hpc]; rfl) hholds) hj
  · intro j q c m generations hq hpc
    rw [hprocs] at hq
    rcases Slots.set_cases hp hq with ⟨-, rfl⟩ | ⟨hj, hq⟩
    · exact hmoving c m generations hpc
    · exact absurd (h.exclusive hq hp (by rw [hpc]; rfl) hholds) hj

lemma filed_advance (hlocked : Locked w) (h : Filed w) (hp : w.procs[i]? = some p) (hstep : advance w i p = some w') :
    Filed w' := by
  unfold advance at hstep
  cases hpc : p.pc with
  | idle | returned result | crashed => simp [hpc] at hstep
  | mkdir c attempt | readPid c attempt | writePid c made =>
    simp only [hpc] at hstep
    split at hstep <;> obtain rfl := Option.some.inj hstep <;>
      exact h.move hp rfl rfl rfl rfl (by simp) (by simp)
  | kill c attempt pid made | rmDir made ending again =>
    simp only [hpc] at hstep
    split at hstep
    · cases hstep
      exact h.move hp rfl rfl rfl rfl (by simp) (by simp)
    · split at hstep <;> obtain rfl := Option.some.inj hstep <;>
        exact h.move hp rfl rfl rfl rfl (by simp) (by simp)
  | steal c attempt made =>
    simp only [hpc] at hstep
    have hnext : ∀ c' m g, nextAttempt c attempt ≠ .writeTmp c' m g ∧ nextAttempt c attempt ≠ .rename c' m g := by
      intro c' m g
      unfold nextAttempt
      split <;> simp
    split at hstep
    · cases hstep
      exact h.move hp rfl rfl rfl rfl (by simp) (by simp)
    · cases hstep
      exact h.move hp rfl rfl rfl rfl (fun c' m g hw => absurd hw (hnext c' m g).1) fun c' m g => (hnext c' m g).2
  | abandon made | rmPid made ending again =>
    simp only [hpc] at hstep
    cases hstep
    exact h.move hp rfl rfl rfl rfl (by simp) (by simp)
  | read c made =>
    simp only [hpc] at hstep
    split at hstep
    · cases hstep
      exact h.move hp rfl rfl rfl rfl (by simp) (by simp)
    · rename_i hexpected
      cases hstep
      refine h.move hp rfl rfl rfl rfl ?_ (by simp)
      intro c' made' generations hwrite
      obtain ⟨rfl, -, rfl⟩ := Pc.writeTmp.inj hwrite
      exact ⟨rfl, not_not.mp hexpected⟩
  | writeTmp c made generations =>
    simp only [hpc] at hstep
    cases hstep
    obtain ⟨rfl, hexpected⟩ := h.writing i p c made generations hp hpc
    refine Filed.of hlocked hp (by rw [hpc]; rfl) rfl (by simp) ?_ h.once h.last
    intro c' made' generations' hrename
    obtain ⟨rfl, -, -⟩ := Pc.rename.inj hrename
    exact ⟨hexpected, rfl⟩
  | rename c made generations =>
    obtain ⟨hexpected, htmp⟩ := h.moving i p c made generations hp hpc
    simp only [hpc, htmp] at hstep
    cases hstep
    refine Filed.of hlocked hp (by rw [hpc]; rfl) rfl (by simp) (by simp) ?_ ?_
    · -- the generation it publishes is behind every earlier one of the machine
      refine pairwise_append.mpr ⟨h.once, pairwise_singleton _ _, ?_⟩
      intro a ha b hb hmachine
      obtain rfl := mem_singleton.mp hb
      have hle := h.last a ha
      simp only at hmachine
      rw [hmachine, hexpected] at hle
      have hnext : a.call.next < c.next := by
        unfold Call.next at hle ⊢
        omega
      refine ⟨hnext, ?_⟩
      intro heq
      simp only at heq
      unfold Call.next at hnext
      rw [heq] at hnext
      omega
    · intro a ha
      show a.call.next ≤ ((w.generations.set c.machineId c.next).get? a.call.machineId).getD 0
      rw [Dict.get?_set]
      rcases mem_append.mp ha with ha | ha
      · have hle := h.last a ha
        split
        · rename_i hmachine
          rw [hmachine, hexpected] at hle
          unfold Call.next at hle ⊢
          simp only [Option.getD_some]
          omega
        · exact hle
      · obtain rfl := mem_singleton.mp ha
        simp
  | rmTmp made ending =>
    simp only [hpc] at hstep
    cases hstep
    exact Filed.of hlocked hp (by rw [hpc]; rfl) rfl (by simp) (by simp) h.once h.last

theorem locked_startProc (h : Locked w) (pid : ℕ) : Locked { w with procs := w.procs ++ [⟨pid, .idle⟩] } := by
  refine ⟨?_, ?_, h.minted, ?_, ?_, ?_⟩
  · intro i p made hp hmade
    rcases Slots.append_cases hp with hold | ⟨-, rfl⟩
    · exact h.held i p made hold hmade
    · cases hmade
  · intro i j p q made hp hq hpMade hqMade
    rcases Slots.append_cases hp with hold | ⟨-, rfl⟩
    · rcases Slots.append_cases hq with hold' | ⟨-, rfl⟩
      · exact h.alone i j p q made hold hold' hpMade hqMade
      · cases hqMade
    · cases hpMade
  · intro i p c attempt pid' made hp hpc
    rcases Slots.append_cases hp with hold | ⟨-, rfl⟩
    · obtain ⟨hseen, hpids⟩ := h.judged i p c attempt pid' made hold hpc
      refine ⟨hseen, ?_⟩
      intro j q hq hmade
      rcases Slots.append_cases hq with hold' | ⟨-, rfl⟩
      · exact hpids j q hold' hmade
      · cases hmade
    · cases hpc
  · intro i p c attempt made hp hpc
    rcases Slots.append_cases hp with hold | ⟨-, rfl⟩
    · obtain ⟨hseen, hnobody⟩ := h.dead i p c attempt made hold hpc
      refine ⟨hseen, ?_⟩
      intro j q hq hmade
      rcases Slots.append_cases hq with hold' | ⟨-, rfl⟩
      · exact hnobody j q hold' hmade
      · cases hmade
    · cases hpc
  · intro i p hp
    rcases Slots.append_cases hp with hold | ⟨-, rfl⟩
    · exact h.plain i p hold
    · trivial

lemma filed_startProc (h : Filed w) (pid : ℕ) : Filed { w with procs := w.procs ++ [⟨pid, .idle⟩] } := by
  refine ⟨?_, ?_, h.once, h.last⟩
  · intro i p c made generations hp hpc
    rcases Slots.append_cases hp with hold | ⟨-, rfl⟩
    · exact h.writing i p c made generations hold hpc
    · cases hpc
  · intro i p c made generations hp hpc
    rcases Slots.append_cases hp with hold | ⟨-, rfl⟩
    · exact h.moving i p c made generations hold hpc
    · cases hpc

theorem inv_step {event : Event} (hlocked : Locked w) (hfiled : Filed w) (hjudged : stealsJudged w event = true)
    (hstep : step w event = some w') : Locked w' ∧ Filed w' := by
  cases event with
  | start pid =>
    cases hstep
    exact ⟨locked_startProc hlocked pid, filed_startProc hfiled pid⟩
  | call i c =>
    simp only [step, Option.bind_eq_bind, Option.bind_eq_some_iff] at hstep
    obtain ⟨p, hp, hcall⟩ := hstep
    split at hcall
    · cases hcall
      exact ⟨hlocked.move hp rfl rfl rfl (.inl rfl) (by simp) (by simp) trivial,
        hfiled.move hp rfl rfl rfl rfl (by simp) (by simp)⟩
    · cases hcall
      exact ⟨hlocked.move hp rfl rfl rfl (.inl rfl) (by simp) (by simp) trivial,
        hfiled.move hp rfl rfl rfl rfl (by simp) (by simp)⟩
    · cases hcall
  | run i =>
    simp only [step, Option.bind_eq_bind, Option.bind_eq_some_iff] at hstep
    obtain ⟨p, hp, hrun⟩ := hstep
    exact ⟨locked_advance hlocked hp hjudged hrun, filed_advance hlocked hfiled hp hrun⟩
  | crash i =>
    simp only [step, Option.bind_eq_bind, Option.bind_eq_some_iff] at hstep
    obtain ⟨p, hp, hcrash⟩ := hstep
    cases hcrash
    exact ⟨hlocked.move hp rfl rfl rfl (.inl rfl) (by simp) (by simp) trivial,
      hfiled.move hp rfl rfl rfl rfl (by simp) (by simp)⟩

/-- A generation of a machine is published once: no two published calls expect the same one, and what they
publish grows. A call whose file is in place answers `true` unless its process ends. -/
def PublishedOnce (w : World) : Prop :=
  w.commits.Pairwise fun a b => a.call.machineId = b.call.machineId →
    a.call.next < b.call.next ∧ a.call.expected ≠ b.call.expected

/-- Whatever the file and the interleaving, generations are published once while every removal of a stale lock
hits the lock its process has judged. -/
theorem generations_published_once {file : Option (Dict String ℕ)} {trace : List (World × Event)} {w : World}
    (run : Transition.Run (fun a event b => step a event = some b) (start file) trace w)
    (hjudged : ∀ e ∈ trace, stealsJudged e.1 e.2 = true) : PublishedOnce w := by
  have hrun : Transition.Run (fun a event b => step a event = some b ∧ stealsJudged a event = true) (start file) trace w :=
    Transition.Run.restrict_iff.mpr ⟨run, hjudged⟩
  have hkept := hrun.preserves (P := fun v => Locked v ∧ Filed v) ⟨locked_start file, filed_start file⟩
    fun a event b hab hstep => inv_step hab.1 hab.2 hstep.2 hstep.1
  exact hkept.2.once

/-- The run in which the second of two processes removes the lock the first has just made: both publish the
first generation of one machine, and both are told so. -/
theorem stolen_lock_publishes_twice : ∃ (trace : List (World × Event)) (w : World),
    Transition.Run (fun a event b => step a event = some b) (start none) trace w ∧
      w.commits = [⟨1, ⟨"m", none⟩⟩, ⟨2, ⟨"m", none⟩⟩] ∧ ¬ PublishedOnce w := by
  have hcommits : (stolenLock.foldlM step (start none)).map (·.commits) =
      some [⟨1, ⟨"m", none⟩⟩, ⟨2, ⟨"m", none⟩⟩] := by decide
  obtain ⟨w, hw, hlog⟩ := Option.map_eq_some_iff.mp hcommits
  obtain ⟨trace, -, run⟩ := Transition.Run.ofLabels hw
  refine ⟨trace, w, run, hlog, ?_⟩
  intro honce
  unfold PublishedOnce at honce
  rw [hlog] at honce
  simp at honce

/-- One process behind the crash of another: it removes the lock it has judged, and publishes. -/
def removedLock : List Event :=
  let c : Call := ⟨"m", none⟩
  [.start 1, .call 0 c, .run 0, .run 0, .crash 0,
    .start 2, .call 1 c, .run 1, .run 1, .run 1, .run 1, .run 1, .run 1, .run 1, .run 1, .run 1]

theorem generations_published_once_behind_a_crash : ∃ (trace : List (World × Event)) (w : World),
    trace.map Prod.snd = removedLock ∧ w.commits = [⟨1, ⟨"m", none⟩⟩] ∧ PublishedOnce w := by
  have hjudged : (removedLock.foldlM (fun a event => if stealsJudged a event then step a event else none)
      (start none)).map (·.commits) = some [⟨1, ⟨"m", none⟩⟩] := by decide
  obtain ⟨w, hw, hlog⟩ := Option.map_eq_some_iff.mp hjudged
  obtain ⟨trace, hlabels, run⟩ := Transition.Run.ofLabels hw
  have hboth : Transition.Run (fun a event b => step a event = some b ∧ stealsJudged a event = true) (start none)
      trace w := by
    refine run.mono ?_
    intro a event b hab
    split at hab
    · rename_i hj
      exact ⟨hab, hj⟩
    · cases hab
  obtain ⟨hrun, hall⟩ := Transition.Run.restrict_iff.mp hboth
  exact ⟨trace, w, hlabels, hlog, generations_published_once hrun hall⟩

end Generation
end OpenOmni
