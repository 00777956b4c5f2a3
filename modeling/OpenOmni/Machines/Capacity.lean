import OpenOmni.Lib.Dict
import OpenOmni.Machines.Placement

/-! The lease ledger of the machines: who holds what of which machine's slots, and what expiry, release, the end of
a use and the close of a terminal give back. -/
namespace OpenOmni
namespace Capacity

open Placement (Resources Live Prefer Outcome Member)

inductive LeaseClass where
  | exec
  | eval
  | pty
  | job

/-- What the classes cost: the schema lets only `job` cost other than one. -/
structure ClassCosts where
  job : ℚ
  positive : 0 < job

def ClassCosts.cost (costs : ClassCosts) : LeaseClass → ℚ
  | .job => costs.job
  | .exec | .eval | .pty => 1

inductive Selector where
  | machineId (machineId : String)
  | tag (tag : String)
deriving DecidableEq

structure CapacityRow where
  selector : Selector
  slots : Option ℕ
  memReserveBytes : Option ℕ
  classCosts : Option ClassCosts

structure MachineInfo where
  machineId : String
  tags : List String
  capabilities : List String
  resources : Option Resources
  live : Option Live

structure EffectiveCapacity where
  machineId : String
  slots : Option ℕ
  memReserveBytes : ℕ
  classCosts : ClassCosts

def EffectiveCapacity.apply (current : EffectiveCapacity) (row : CapacityRow) : EffectiveCapacity :=
  { current with
    slots := row.slots.or current.slots
    memReserveBytes := row.memReserveBytes.getD current.memReserveBytes
    classCosts := row.classCosts.getD current.classCosts }

/-- Rows of the machine's tags, and over them the row of the machine itself. -/
def effective (rows : List CapacityRow) (machine : MachineInfo) : EffectiveCapacity :=
  let tagged := rows.filter fun row => machine.tags.any fun tag => row.selector = .tag tag
  let exact := rows.filter fun row => row.selector = .machineId machine.machineId
  (tagged ++ exact).foldl EffectiveCapacity.apply
    ⟨machine.machineId, machine.resources.map (·.cpus), 0, ⟨1, one_pos⟩⟩

inductive LeaseInvalidation where
  | leaseExpired
  | staleGeneration
  | disconnected

structure Claim where
  cost : ℚ
  users : ℕ
  retained : Bool

/-- A run of `expire` that has been scheduled. -/
structure Timer where
  version : ℕ
  expiresAt : ℤ
deriving DecidableEq

/-- A lease. `aborted` is its signal, `fenced` the one that fails its running uses; claims are named by the use
that made them. -/
structure Lease where
  machineId : String
  cost : ℚ
  exclusive : Bool
  workClass : LeaseClass
  claims : Dict ℕ Claim
  terminals : Dict String ℕ
  aborted : Bool
  fenced : Bool
  invalidation : LeaseInvalidation
  timerVersion : ℕ
  timers : List Timer

/-- How far a use has come: a terminal's use keeps its claim once it is answered. -/
inductive Progress where
  | running
  | answered
  | ended
deriving DecidableEq

/-- One `renewWhile` or `renewPtyWhile`, with the claim it has acquired. -/
structure Use where
  lease : ℕ
  claim : ℕ
  name : Option String
  opens : Bool
  progress : Progress

/-- The attached machines, every lease ever made, each machine's set of live leases, and every use of a lease. -/
structure World where
  members : Dict String MachineInfo
  leases : List Lease
  sets : Dict String (List ℕ)
  uses : List Use

def activeCost (lease : Lease) : ℚ := (lease.claims.values.map (·.cost)).sum

def Lease.idle (lease : Lease) : Bool := lease.claims.entries.isEmpty

def leaseCost (lease : Lease) : ℚ :=
  let reserved := if lease.aborted then 0 else lease.cost
  if lease.exclusive then (if lease.idle then reserved else lease.cost) else max reserved (activeCost lease)

def World.set (w : World) (machineId : String) : List ℕ := (w.sets.get? machineId).getD []

def World.costOf (w : World) (i : ℕ) : ℚ := ((w.leases[i]?).map leaseCost).getD 0

def World.used (w : World) (machineId : String) : ℚ := ((w.set machineId).map w.costOf).sum

def World.exclusive (w : World) (i : ℕ) : Bool := (w.leases[i]?).any (·.exclusive)

inductive RefusalReason where
  | slots
  | memory

structure LeaseRefusal where
  machineId : String
  reason : RefusalReason
  slots : Option ℕ
  inFlight : ℚ
  memoryAvailableBytes : Option ℕ
  memReserveBytes : Option ℕ

inductive Query where
  | machine (machineId : String)
  | placement (request : Placement.Request)

def Query.exact : Query → Option String
  | .machine machineId => some machineId
  | .placement _ => none

def Query.request : Query → Placement.Request
  | .machine machineId => ⟨machineId, none, .spread⟩
  | .placement request => request

inductive HostPlacement where
  | placed (machineId : String) (lease : ℕ)
  | noMember
  | allStale
  | machineSaturated (refusal : LeaseRefusal)
  | machineNotAttached
  | leaseSchedulerMissing

inductive AcquireError where
  | invalid (reason : LeaseInvalidation)
  | machineSaturated (refusal : LeaseRefusal)

def World.put (w : World) (i : ℕ) (lease : Lease) : World := { w with leases := w.leases.set i lease }

/-- `remove`: the lease leaves its machine's set. -/
def World.remove (w : World) (i : ℕ) (machineId : String) : World :=
  match w.sets.get? machineId with
  | none => w
  | some members => { w with sets := w.sets.set machineId (members.erase i) }

def Lease.cancel (lease : Lease) : Lease := { lease with timerVersion := lease.timerVersion + 1 }

def Lease.setClaim (lease : Lease) (c : ℕ) (claim : Claim) : Lease := { lease with claims := lease.claims.set c claim }

def Lease.dropUnused (lease : Lease) (claim : ℕ) : Lease :=
  { lease with
    claims := if (lease.claims.get? claim).any (fun c => c.users = 0 ∧ ¬ c.retained) then lease.claims.erase claim
      else lease.claims }

/-- A lease that leaves its last claim: removed once it is released, else armed again. -/
def World.rest (w : World) (i : ℕ) (lease armed : Lease) : World :=
  if ¬ lease.idle then w.put i lease
  else if lease.aborted then (w.put i lease).remove i lease.machineId
  else w.put i armed

def Lease.abort (lease : Lease) : Lease := { lease.cancel with aborted := true }

def World.release (w : World) (i : ℕ) (lease : Lease) : World :=
  if lease.idle then (w.put i lease.abort).remove i lease.machineId else w.put i lease.abort

def Lease.invalidate (lease : Lease) (reason : LeaseInvalidation) : Lease :=
  { lease with invalidation := reason, fenced := true }

def World.invalidate (w : World) (i : ℕ) (reason : LeaseInvalidation) : World :=
  match w.leases[i]? with
  | none => w
  | some lease => (w.release i (lease.invalidate reason)).remove i lease.machineId

def World.detach (w : World) (machineId : String) (reason : LeaseInvalidation) : World :=
  let emptied := (w.set machineId).foldl (fun w i => w.invalidate i reason) w
  { emptied with sets := emptied.sets.erase machineId, members := emptied.members.erase machineId }

section Ledger

variable (rows : List CapacityRow) (scheduler : Bool) (ttl : ℤ)
variable (localeCompare : String → String → ℤ) (hashScore : String → String → String)

def World.list (w : World) : List MachineInfo :=
  w.members.values.insertionSort fun a b => localeCompare a.machineId b.machineId ≤ 0

/-- Why a machine has no room for so much more; `holder` is the lease that asks. -/
def World.credit (w : World) (machine : MachineInfo) (extra : ℚ) (holder : Option ℕ) : Option LeaseRefusal :=
  let policy := effective rows machine
  let inFlight := w.used machine.machineId
  let exclusive := (w.set machine.machineId).any fun i => holder ≠ some i ∧ w.exclusive i
  let memoryAvailableBytes := machine.live.bind fun live => if live.stale then none else live.memoryAvailableBytes
  if (0 < extra ∧ exclusive) ∨ policy.slots.any (fun slots => (slots : ℚ) < inFlight + extra) then
    some ⟨machine.machineId, .slots, policy.slots, inFlight, none, none⟩
  else if memoryAvailableBytes.any (fun available => available < policy.memReserveBytes) then
    some ⟨machine.machineId, .memory, policy.slots, inFlight, memoryAvailableBytes, some policy.memReserveBytes⟩
  else none

def Lease.arm (lease : Lease) (now : ℤ) : Lease :=
  { lease.cancel with timers := lease.timers ++ [⟨lease.timerVersion + 1, now + ttl⟩] }

def World.settle (w : World) (i : ℕ) (lease : Lease) (claim : ℕ) (now : ℤ) : World :=
  w.rest i (lease.dropUnused claim) ((lease.dropUnused claim).arm ttl now)

def World.reserve (w : World) (machineId : String) (cost : ℚ) (exclusive : Bool) (workClass : LeaseClass) (now : ℤ) :
    World :=
  let lease : Lease := ⟨machineId, cost, exclusive, workClass, .empty, .empty, false, false, .leaseExpired, 0, []⟩
  { w with
    leases := w.leases ++ [lease.arm ttl now]
    sets := w.sets.set machineId (w.set machineId ++ [w.leases.length]) }

/-- A member as `place` ranks it: without slots where it has no credit, and without facts that are stale. -/
def World.fact (w : World) (exact : Option String) (workClass : LeaseClass) (machine : MachineInfo) : Member :=
  let policy := effective rows machine
  let blocked := (w.credit rows machine (policy.classCosts.cost workClass) none).isSome
  let stale := machine.live.any (·.stale)
  { machineId := machine.machineId
    tags := exact.elim machine.tags fun machineId => [machineId]
    capabilities := machine.capabilities
    resources := if stale then none else machine.resources
    live := if stale then none else machine.live
    leases := w.used machine.machineId
    slots := if blocked then some 0 else if stale then none else policy.slots }

def World.place (w : World) (query : Query) (workClass : LeaseClass) (now : ℤ) : World × HostPlacement :=
  let request := query.request
  let members := (w.list localeCompare).filter fun machine => query.exact.all (machine.machineId = ·)
  match Placement.place localeCompare hashScore request (members.map (w.fact rows query.exact workClass)) with
  | .placed machineId =>
    match (members.map (effective rows)).find? (·.machineId = machineId) with
    | none => (w, .machineNotAttached)
    | some policy =>
      let cost := policy.classCosts.cost workClass
      let exclusive : Bool := request.prefer = .exclusive
      if ¬ scheduler then (w, .leaseSchedulerMissing)
      else (w.reserve ttl machineId (if exclusive then (policy.slots.map Nat.cast).getD cost else cost) exclusive
        workClass now, .placed machineId w.leases.length)
  | .noMember => (w, .noMember)
  | .allStale => (w, .allStale)
  | .machineSaturated =>
    match members.find? fun machine => (query.exact.isSome ∨ request.tag ∈ machine.tags) ∧
        (request.requires.getD []).all (· ∈ machine.capabilities) with
    | none => (w, .noMember)
    | some member =>
      let policy := effective rows member
      (w, .machineSaturated ((w.credit rows member (policy.classCosts.cost workClass) none).getD
        ⟨member.machineId, .slots, policy.slots, w.used member.machineId, none, none⟩))

/-- The claim that a use takes: a terminal's own, or a new one named by the use. -/
def Lease.held (lease : Lease) (name : Option String) : Option (ℕ × Claim) := do
  let claim ← lease.terminals.get? (← name)
  some (claim, ← lease.claims.get? claim)

def Lease.extra (lease : Lease) (held : Bool) (cost : ℚ) : ℚ :=
  if lease.exclusive ∨ held then 0 else max lease.cost (activeCost lease + cost) - leaseCost lease

def World.acquire (w : World) (i : ℕ) (lease : Lease) (workClass : LeaseClass) (name : Option String) (opens : Bool) :
    Except AcquireError World :=
  match w.members.get? lease.machineId with
  | none => .error (.invalid lease.invalidation)
  | some machine =>
    if lease.aborted then .error (.invalid lease.invalidation)
    else
      let held := lease.held name
      let claim := held.getD (w.uses.length, ⟨(effective rows machine).classCosts.cost workClass, 0, false⟩)
      match w.credit rows machine (lease.extra held.isSome claim.2.cost) (some i) with
      | some refusal => .error (.machineSaturated refusal)
      | none =>
        let claims := lease.claims.set claim.1 { claim.2 with users := claim.2.users + 1 }
        .ok { w.put i { lease with claims := claims }.cancel with
          uses := w.uses ++ [⟨i, claim.1, name, opens, .running⟩] }

/-- The answer of a use that opens a terminal: its claim stays while the terminal does. -/
def World.opened (w : World) (u : ℕ) (use : Use) (lease : Lease) (name : String) (claim : Claim) : World :=
  let answered := { w with uses := w.uses.set u { use with progress := .answered } }
  if lease.terminals.contains name then answered
  else answered.put use.lease { lease with
    claims := lease.claims.set use.claim { claim with retained := true }
    terminals := lease.terminals.set name use.claim }

def World.releaseClaim (w : World) (u : ℕ) (use : Use) (lease : Lease) (claim : Claim) (now : ℤ) : World :=
  { w with uses := w.uses.set u { use with progress := .ended } }.settle ttl use.lease
    (lease.setClaim use.claim { claim with users := claim.users - 1 }) use.claim now

/-- `expire`, as the scheduler runs it. -/
def World.expire (w : World) (i : ℕ) (lease : Lease) (timer : Timer) (now : ℤ) : World :=
  if timer.version ≠ lease.timerVersion ∨ lease.aborted ∨ ¬ lease.idle then w
  else if 0 < timer.expiresAt - now then w
  else w.release i lease

def World.closeTerminal (w : World) (i : ℕ) (name : String) (now : ℤ) : World :=
  match w.leases[i]? with
  | none => w
  | some lease =>
    match lease.terminals.get? name with
    | none => w
    | some claim =>
      let claims := match lease.claims.get? claim with
        | none => lease.claims
        | some c => lease.claims.set claim { c with retained := false }
      w.settle ttl i { lease with claims := claims, terminals := lease.terminals.erase name } claim now

def World.terminalClosed (w : World) (machineId name : String) (now : ℤ) : World :=
  (w.set machineId).foldl (fun w i => w.closeTerminal ttl i name now) w

/-- What happens to the ledger, with the clock where it is read. A scheduled expiry may run at any time, also one
that was cancelled; a machine attaches when it is not. -/
inductive Label where
  | attach (machine : MachineInfo)
  | report (machineId : String) (live : Live)
  | detach (machineId : String) (reason : LeaseInvalidation)
  | place (query : Query) (workClass : LeaseClass) (now : ℤ)
  | acquire (lease : ℕ) (workClass : LeaseClass) (name : Option String) (opens : Bool)
  | opened (use : ℕ)
  | releaseClaim (use : ℕ) (now : ℤ)
  | release (lease : ℕ)
  | expire (lease : ℕ) (timer : Timer) (now : ℤ)
  | terminalClosed (machineId name : String) (now : ℤ)

def step (w : World) : Label → Option World
  | .attach machine =>
    if w.members.contains machine.machineId then none
    else some { w with members := w.members.set machine.machineId machine }
  | .report machineId live => do
    let machine ← w.members.get? machineId
    some { w with members := w.members.set machineId { machine with live := some live } }
  | .detach machineId reason => some (w.detach machineId reason)
  | .place query workClass now => some (w.place rows scheduler ttl localeCompare hashScore query workClass now).1
  | .acquire i workClass name opens => do
    let lease ← w.leases[i]?
    some ((w.acquire rows i lease workClass name opens).toOption.getD w)
  | .opened u => do
    let use ← w.uses[u]?
    let lease ← w.leases[use.lease]?
    let name ← use.name
    let claim ← lease.claims.get? use.claim
    if use.progress = .running ∧ use.opens then some (w.opened u use lease name claim) else none
  | .releaseClaim u now => do
    let use ← w.uses[u]?
    let lease ← w.leases[use.lease]?
    let claim ← lease.claims.get? use.claim
    if use.progress = .ended then none else some (w.releaseClaim ttl u use lease claim now)
  | .release i => do
    let lease ← w.leases[i]?
    some (w.release i lease)
  | .expire i timer now => do
    let lease ← w.leases[i]?
    if timer ∈ lease.timers then some (w.expire i lease timer now) else none
  | .terminalClosed machineId name now => some (w.terminalClosed ttl machineId name now)

end Ledger

def start : World := ⟨.empty, [], .empty, []⟩

end Capacity
end OpenOmni
