import Mathlib
import OpenOmni.Lib.Dict

/-! The host's registry of attachments: which machine each live connection attached as, and the admission of an
attach offer, cut where the host waits for the generation store. -/
namespace OpenOmni
namespace Attach

inductive Listener where
  | unix
  | tcp
deriving DecidableEq

/-- `${label}:${rawId}`: a listener and the number it gave the connection, which it gives once. -/
structure Key where
  listener : Listener
  conn : ℕ
deriving DecidableEq

structure Enrollment where
  machineId : String
  allowedCapabilities : List String
  allowedExports : Option (List String)
  publicKey : String

structure ExportRoot where
  name : String
  path : String

structure Offer where
  machineId : String
  contractVersion : ℕ
  offeredCapabilities : List String
  exports : Option (List ExportRoot)
  generation : Option ℕ

inductive RefusalReason where
  | machineNotEnrolled
  | machineMismatch
  | peerKeyMismatch
  | alreadyAttached
  | unsupportedContract
  | staleGeneration

inductive AttachResult where
  | attached (generation : ℕ) (effectiveCapabilities effectiveExports : List String)
  | refused (reason : RefusalReason)

inductive DetachReason where
  | connectionClosed
  | hostClosed
  | enrollmentRemoved
  | enrollmentReplaced
  | superseded

inductive BusEvent where
  | attached (machineId : String) (effectiveCapabilities : List String)
  | detached (machineId : String) (reason : DetachReason)

def intersect (allowed offered : List String) : List String :=
  ((offered.filter (· ∈ allowed)).eraseDups).insertionSort (· ≤ ·)

/-- `none` is `machine_mismatch`. -/
def effectiveCapabilities (enrollment : Enrollment) (offer : Offer) : Option (List String) :=
  if enrollment.machineId ≠ offer.machineId then none
  else some (intersect enrollment.allowedCapabilities offer.offeredCapabilities)

def effectiveExports (enrollment : Enrollment) (offer : Offer) : Option (List String) :=
  if enrollment.machineId ≠ offer.machineId then none
  else some (intersect (enrollment.allowedExports.getD []) ((offer.exports.getD []).map (·.name)))

def supportedContractVersions : List ℕ := [2]

structure Negotiated where
  enrollment : Enrollment
  capabilities : List String
  exports : List String

/-- A Unix connection presents no key; a key that is presented is checked before the contract. -/
def negotiate (offer : Offer) (found : Option Enrollment) (presented : Option String) : Except RefusalReason Negotiated :=
  match found with
  | none => .error .machineNotEnrolled
  | some enrollment =>
    if presented ≠ none ∧ presented ≠ some enrollment.publicKey then .error .peerKeyMismatch
    else if offer.contractVersion ∉ supportedContractVersions then .error .unsupportedContract
    else match effectiveCapabilities enrollment offer, effectiveExports enrollment offer with
      | some capabilities, some exports => .ok ⟨enrollment, capabilities, exports⟩
      | _, _ => .error .machineMismatch

structure Attachment where
  enrollment : Enrollment
  offer : Offer
  capabilities : List String
  generation : ℕ
  key : Key

/-- An offer under the permit, with what the host has read for it before the first wait. -/
structure Request where
  offer : Offer
  source : Key
  revision : Option ℕ
  found : Option Enrollment

structure Admission where
  request : Request
  negotiated : Negotiated
  incumbent : Option Key

inductive Phase where
  | negotiating (r : Request)
  | reading (a : Admission) (attempt : ℕ)
  | fetched (a : Admission) (attempt : ℕ) (current : Option ℕ)
  | swapping (a : Admission) (attempt : ℕ) (current : Option ℕ)
  | decided (a : Admission) (generation : Option ℕ)

def Phase.request : Phase → Request
  | .negotiating r => r
  | .reading a _ | .fetched a _ _ | .swapping a _ _ | .decided a _ => a.request

/-- The host: its maps, the connections its listeners hold, the disconnect callbacks still queued, the caller's
enrollments, the generation store, and the attach that holds the permit. `published` lists the attachments
published so far. -/
structure World where
  connections : Dict Key (Option String)
  opened : Listener → ℕ
  queued : List Key
  enrollments : Dict String Enrollment
  generations : Dict String ℕ
  attachments : Dict Key Attachment
  connectionByMachine : Dict String Key
  revoked : Dict String ℕ
  closed : Bool
  admission : Option Phase
  replies : List (Key × AttachResult)
  events : List BusEvent
  published : List Attachment

/-- `removeConnection`: the connection is gone at once, its callback runs later. -/
def World.disconnect (w : World) (key : Key) : World :=
  if w.connections.contains key then
    { w with connections := w.connections.erase key, queued := w.queued ++ [key] }
  else w

def World.detach (w : World) (key : Key) (reason : DetachReason) : World :=
  match w.attachments.get? key with
  | none => w
  | some attachment =>
    { w with
      attachments := w.attachments.erase key
      connectionByMachine :=
        if w.connectionByMachine.get? attachment.offer.machineId = some key then
          w.connectionByMachine.erase attachment.offer.machineId
        else w.connectionByMachine
      events := w.events ++ [.detached attachment.offer.machineId reason] }

def World.supersede (w : World) (key source : Key) : World :=
  match w.attachments.get? key with
  | none => w
  | some stale =>
    if key ≠ source then (w.detach key .superseded).disconnect stale.key else w.detach key .superseded

inductive Invalid where
  | closed
  | machineNotEnrolled

def World.admissionValid (w : World) (r : Request) : Option Invalid :=
  if w.closed ∨ ¬ w.connections.contains r.source then some .closed
  else if r.revision ≠ w.revoked.get? r.offer.machineId ∨ w.enrollments.get? r.offer.machineId = none then
    some .machineNotEnrolled
  else none

def Admission.attachment (a : Admission) (generation : ℕ) : Attachment :=
  ⟨a.negotiated.enrollment, a.request.offer, a.negotiated.capabilities, generation, a.request.source⟩

/-- The attachments that stand in the way of a new one: the incumbent's, and the connection's own. -/
def World.clear (w : World) (a : Admission) : World :=
  let cleared := match a.incumbent with
    | none => w
    | some incumbent => w.supersede incumbent a.request.source
  cleared.supersede a.request.source a.request.source

def World.publishAttachment (w : World) (a : Admission) (generation : ℕ) : World :=
  let cleared := w.clear a
  { cleared with
    attachments := cleared.attachments.set a.request.source (a.attachment generation)
    connectionByMachine := cleared.connectionByMachine.set a.request.offer.machineId a.request.source
    events := cleared.events ++ [.attached a.request.offer.machineId a.negotiated.capabilities]
    published := cleared.published ++ [a.attachment generation] }

def World.respond (w : World) (key : Key) (result : AttachResult) : World :=
  { w with admission := none, replies := w.replies ++ [(key, result)] }

def World.await (w : World) (phase : Phase) : World := { w with admission := some phase }

/-- What happens to a host: its listeners' connections, its caller, another host on the same generation store,
and the steps of an attach between two waits. A compare-and-set may lose although the value stands. -/
inductive Label where
  | connect (listener : Listener) (fingerprint : Option String)
  | drop (key : Key)
  | disconnected (key : Key)
  | enroll (machineId : String) (enrollment : Enrollment)
  | forget (machineId : String)
  | unenroll (machineId : String) (reason : DetachReason)
  | foreign (machineId : String) (generation : ℕ)
  | attach (offer : Offer) (source : Key)
  | negotiate
  | current
  | resume
  | compareAndSet (won : Bool)
  | settle
  | fail
  | close

section Steps

variable (neverSupersede : List String)

/-- The offer against its enrollment and the incumbent, before the generation store is read. -/
def World.judge (w : World) (r : Request) : World :=
  match negotiate r.offer r.found ((w.connections.get? r.source).getD none) with
  | .error reason => w.respond r.source (.refused reason)
  | .ok negotiated =>
    let incumbent := w.connectionByMachine.get? r.offer.machineId
    if r.offer.generation = none ∧ incumbent ≠ none ∧ r.offer.machineId ∈ neverSupersede then
      w.respond r.source (.refused .alreadyAttached)
    else w.await (.reading ⟨r, negotiated, incumbent⟩ 0)

/-- `generationOf` behind a read of the store: the first one judges an offered generation, the second one stands
behind a lost compare-and-set. -/
def World.resume (w : World) (a : Admission) (attempt : ℕ) (current : Option ℕ) : World :=
  if w.admissionValid a.request ≠ none then w.await (.decided a none)
  else if attempt ≠ 0 then w.await (.swapping a attempt current)
  else match a.request.offer.generation with
    | some generation => w.await (.decided a (if some generation = current then current else none))
    | none => w.await (.swapping a 0 current)

def World.swap (w : World) (a : Admission) (attempt : ℕ) (current : Option ℕ) (won : Bool) : Option World :=
  let next := current.getD 0 + 1
  if won then
    if w.generations.get? a.request.offer.machineId = current then
      some { w with
        generations := w.generations.set a.request.offer.machineId next
        admission := some (.decided a (some next)) }
    else none
  else if attempt = 0 then some (w.await (.reading a 1))
  else some (w.await (.decided a none))

def World.settle (w : World) (a : Admission) (generation : Option ℕ) : World :=
  match w.admissionValid a.request with
  | some .closed => { w with admission := none }
  | some .machineNotEnrolled => w.respond a.request.source (.refused .machineNotEnrolled)
  | none =>
    match generation with
    | none => w.respond a.request.source (.refused .staleGeneration)
    | some generation =>
      (w.publishAttachment a generation).respond a.request.source
        (.attached generation a.negotiated.capabilities a.negotiated.exports)

def World.unenroll (w : World) (machineId : String) (reason : DetachReason) : World :=
  let revoked := { w with revoked := w.revoked.set machineId ((w.revoked.get? machineId).getD 0 + 1) }
  match (w.connectionByMachine.get? machineId).bind w.attachments.get? with
  | none => revoked
  | some attachment => (revoked.detach attachment.key reason).disconnect attachment.key

def World.close (w : World) : World :=
  (w.attachments.entries.map Prod.fst).foldl (fun w key => w.detach key .hostClosed) { w with closed := true }

def step (w : World) : Label → Option World
  | .connect listener fingerprint =>
    let conn := w.opened listener + 1
    some { w with
      connections := w.connections.set ⟨listener, conn⟩ fingerprint
      opened := Function.update w.opened listener conn }
  | .drop key => if w.connections.contains key then some (w.disconnect key) else none
  | .disconnected key =>
    if key ∈ w.queued then some ({ w with queued := w.queued.erase key }.detach key .connectionClosed) else none
  | .enroll machineId enrollment => some { w with enrollments := w.enrollments.set machineId enrollment }
  | .forget machineId => some { w with enrollments := w.enrollments.erase machineId }
  | .unenroll machineId reason => some (w.unenroll machineId reason)
  | .foreign machineId generation => some { w with generations := w.generations.set machineId generation }
  | .attach offer source =>
    if w.admission = none ∧ source.conn ≤ w.opened source.listener then
      some (w.await (.negotiating
        ⟨offer, source, w.revoked.get? offer.machineId, w.enrollments.get? offer.machineId⟩))
    else none
  | .negotiate =>
    match w.admission with
    | some (.negotiating r) => some (w.judge neverSupersede r)
    | _ => none
  | .current =>
    match w.admission with
    | some (.reading a attempt) =>
      some (w.await (.fetched a attempt (w.generations.get? a.request.offer.machineId)))
    | _ => none
  | .resume =>
    match w.admission with
    | some (.fetched a attempt current) => some (w.resume a attempt current)
    | _ => none
  | .compareAndSet won =>
    match w.admission with
    | some (.swapping a attempt current) => w.swap a attempt current won
    | _ => none
  | .settle =>
    match w.admission with
    | some (.decided a generation) => some (w.settle a generation)
    | _ => none
  | .fail => if w.admission = none then none else some { w with admission := none }
  | .close => some w.close

end Steps

/-- A host that has just been created, over any generation store and any enrollments. -/
def start (enrollments : Dict String Enrollment) (generations : Dict String ℕ) : World :=
  ⟨.empty, fun _ => 0, [], enrollments, generations, .empty, .empty, .empty, false, none, [], [], []⟩

end Attach
end OpenOmni
