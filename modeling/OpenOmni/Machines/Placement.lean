import Mathlib

/-! The placement fold over machines and their lease counts. Costs are exact rationals. -/
namespace OpenOmni
namespace Placement
open List

structure Resources where
  cpus : ℕ
  memoryBytes : ℕ

structure Live where
  stale : Bool
  memoryAvailableBytes : Option ℕ

inductive Prefer where
  | spread
  | pack
  | exclusive
  | sticky (key : String)
deriving DecidableEq

structure Request where
  tag : String
  «requires» : Option (List String)
  prefer : Prefer

/-- `PlacementMachine`. -/
structure Member where
  machineId : String
  tags : List String
  capabilities : List String
  resources : Option Resources
  live : Option Live
  leases : ℚ
  slots : Option ℕ

inductive Outcome where
  | placed (machineId : String)
  | noMember
  | allStale
  | machineSaturated
deriving DecidableEq

def hasCredit (machine : Member) : Bool :=
  match machine.slots with
  | none => machine.resources.all fun resources => machine.leases < resources.cpus
  | some slots => machine.leases < slots

def slotsOf (machine : Member) : Option ℕ := machine.slots.or (machine.resources.map (·.cpus))

def freeMemoryOf (machine : Member) : ℤ :=
  (((machine.live.bind (·.memoryAvailableBytes)).or (machine.resources.map (·.memoryBytes))).map Int.ofNat).getD (-1)

section Fold

/-! The order of identifiers and the digest that `sticky` ranks by are the runtime's. -/

variable (localeCompare : String → String → ℤ) (hashScore : String → String → String)

/-- How `spread` compares the share of its slots that each holds: whether the machine holds less, unless equal. -/
def lessFull (best machine : Member) : Option Bool :=
  match slotsOf machine, slotsOf best with
  | some machineSlots, some bestSlots =>
    let machineRatio := machine.leases / machineSlots
    let bestRatio := best.leases / bestSlots
    if machineRatio ≠ bestRatio then some (machineRatio < bestRatio) else none
  | _, _ => none

def compareLeases (prefer : Prefer) (best machine : Member) : Member :=
  if machine.leases ≠ best.leases then
    if machine.leases < best.leases then machine else best
  else if prefer = .spread ∧ freeMemoryOf machine ≠ freeMemoryOf best then
    if freeMemoryOf best < freeMemoryOf machine then machine else best
  else if localeCompare machine.machineId best.machineId < 0 then machine else best

def compareCandidates (prefer : Prefer) (best machine : Member) : Member :=
  if prefer = .pack ∧ machine.leases ≠ best.leases then
    if best.leases < machine.leases then machine else best
  else match if prefer = .spread then lessFull best machine else none with
    | some less => if less then machine else best
    | none => compareLeases localeCompare prefer best machine

def stickier (key : String) (best machine : Member) : Member :=
  if hashScore key best.machineId < hashScore key machine.machineId then machine else best

/-- `reduce` from `undefined`. -/
def select (better : Member → Member → Member) : List Member → Option Member
  | [] => none
  | machine :: rest => some (rest.foldl better machine)

def knownFirst (machines : List Member) : List Member :=
  let known := machines.filter fun machine => (slotsOf machine).isSome
  if known = [] then machines else known

def eligible (prefer : Prefer) (credited : List Member) : List Member :=
  if prefer = .exclusive then credited.filter (·.leases = 0) else credited

def outcomeOf : Option Member → Outcome
  | none => .machineSaturated
  | some machine => .placed machine.machineId

def place (request : Request) (machines : List Member) : Outcome :=
  let tagged := machines.filter fun machine => request.tag ∈ machine.tags
  let live := tagged.filter fun machine => ¬ machine.live.any (·.stale)
  let capable := live.filter fun machine => (request.requires.getD []).all (· ∈ machine.capabilities)
  let credited := capable.filter hasCredit
  if tagged = [] then .noMember
  else if live = [] then .allStale
  else if capable = [] then .noMember
  else if credited = [] then .machineSaturated
  else match request.prefer with
    | .sticky key => outcomeOf (select (stickier hashScore key) (knownFirst credited))
    | prefer =>
      if eligible prefer credited = [] then .machineSaturated
      else outcomeOf (select (compareCandidates localeCompare prefer) (knownFirst (eligible prefer credited)))

variable {localeCompare hashScore}

variable {better : Member → Member → Member} {machines : List Member} {machine : Member} {machineId : String}

section
variable (hbetter : ∀ best machine, better best machine = best ∨ better best machine = machine)
include hbetter

end

lemma mem_eligible {prefer : Prefer} {credited : List Member} (h : machine ∈ eligible prefer credited) :
    machine ∈ credited ∧ (prefer = .exclusive → machine.leases = 0) := by
  unfold eligible at h
  split at h
  · obtain ⟨hmem, hfree⟩ := mem_filter.mp h
    exact ⟨hmem, fun _ => by simpa using hfree⟩
  · rename_i hprefer
    exact ⟨h, fun hexclusive => absurd hexclusive hprefer⟩

lemma outcomeOf_eq_placed {selected : Option Member} (h : outcomeOf selected = .placed machineId) :
    ∃ machine, selected = some machine ∧ machine.machineId = machineId := by
  cases selected with
  | none => cases h
  | some machine => exact ⟨machine, rfl, Outcome.placed.inj h⟩

end Fold

end Placement
end OpenOmni
