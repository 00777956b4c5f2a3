import OpenOmni.Machines.TransferRun

/-! The host's side of a bulk transfer: it reads or writes one chunk after another, ends with the finish, and aborts
whatever came of it. -/
namespace OpenOmni
namespace Bulk
open List

open Exports

inductive HostFailure where
  | refused (refusal : Refusal)
  | threw
  | invalidResponse (message : String)

section Loops

variable (P : Platform) (env : Env)

end Loops

section Loops

variable {P : Platform} {env : Env} {transferId : String} {d : Daemon} {t : Transfer} {destination : Destination}

def writeDestination (P : Platform) (b : Begin) (site : Site) : Destination :=
  ⟨site.1, site.2, P.tempName b.transferId, b.exclusive⟩

/-- A write either publishes exactly its data under its target, or leaves every file as it was. -/
structure Written (P : Platform) (env : Env) (b : Begin) (data : Bytes) (d : Daemon)
    (result : Except HostFailure ℕ × Daemon) : Prop where
  published : ∀ n : ℕ, result.1 = .ok n → n = data.length ∧ ∃ site : Site, env.target = .ok site ∧
    result.2.file site = some data ∧
    (∀ other : Site, other ≠ site → result.2.file other = d.file other) ∧
    result.2.transfers.get? b.transferId = none
  untouched : ∀ failure : HostFailure, result.1 = .error failure →
    (∀ site : Site, result.2.file site = d.file site) ∧ result.2.transfers.get? b.transferId = none
  returns : ∀ site : Site, env.target = .ok site → d.transfers.entries.length < MAX_OPEN_TRANSFERS →
    d.entries.get? (writeDestination P b site).temp = none → env.syncFails = false → env.publishFails = none →
    (b.exclusive = true → d.entries.get? site = none ∧ site ≠ (writeDestination P b site).temp) →
    ∃ n, result.1 = .ok n

def Transfer.advance (t : Transfer) (data : Bytes) : Transfer :=
  { t with hashed := t.hashed ++ data, remaining := t.remaining - data.length, offset := t.offset + data.length }

def Daemon.answered (d : Daemon) (transferId : String) (t : Transfer) (data : Bytes) (reply : Reply) : Daemon :=
  { d with
    transfers := d.transfers.set transferId ((t.advance data).answer (.read transferId t.seq) reply) }

def window (P : Platform) (b : Begin) (content : Bytes) : Bytes :=
  pread content (b.offset.getD 0) (min (b.limit.getD P.readMax) P.bulkReadMax)

end Loops

section Settled

variable {P : Platform} {transferId : String} {d d' : Daemon} {q : Request} {reply : Reply}

end Settled

end Bulk
end OpenOmni
