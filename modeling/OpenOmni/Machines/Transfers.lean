import Mathlib.Logic.Function.Basic
import OpenOmni.Machines.TransferFiles

/-! The daemon's bulk transfers: a file read or staged chunk by chunk under sequence numbers, the last answer kept for
a repeated request, and the staged file published under its name by the finish. -/
namespace OpenOmni
namespace Bulk

open Exports

abbrev Bytes := List UInt8

abbrev Site := ℕ × String

/-- What the code takes from its platform, and the caps of the protocol. -/
structure Platform where
  encode : Bytes → String
  decode : String → Bytes
  decode_encode : ∀ bytes : Bytes, decode (encode bytes) = bytes
  sha256 : Bytes → String
  tempName : String → String
  readMax : ℕ
  readMax_pos : 0 < readMax
  writeMax : ℕ
  writeMax_pos : 0 < writeMax
  bulkReadMax : ℕ

inductive Request where
  | begin (b : Begin)
  | read (transferId : String) (seq : ℕ)
  | write (transferId : String) (seq : ℕ) (data : String) (last : Bool) (digest : Option String)
  | finish (transferId : String)
  | abort (transferId : String)
deriving DecidableEq

/-- `threw` is a reply that is an error of the call. -/
inductive Reply where
  | begun (seq size : ℕ)
  | chunk (seq : ℕ) (data : String) (last : Bool) (digest : Option String)
  | written (seq bytesWritten : ℕ) (last : Bool)
  | finished
  | refused (refusal : Refusal)
  | threw
deriving DecidableEq

def refuse (reason : Reason) : Reply := .refused (streamRefused reason)

structure Destination where
  dir : ℕ
  targetName : String
  tempName : String
  exclusive : Bool

def Destination.target (destination : Destination) : Site := (destination.dir, destination.targetName)

def Destination.temp (destination : Destination) : Site := (destination.dir, destination.tempName)

/-- `hashed` is what the running hash was fed. `serial` numbers the begins, for the record only. -/
structure Transfer where
  inode : ℕ
  mode : Mode
  destination : Option Destination
  begin : Begin
  size : ℕ
  offset : ℕ
  remaining : ℕ
  seq : ℕ := 0
  hashed : Bytes := []
  last : Option (Request × Reply) := none
  serial : ℕ

inductive Effect where
  | wrote (serial seq offset : ℕ) (data : Bytes)
  | published (serial : ℕ) (target : Site) (bytes : Bytes)

/-- Directory entries lead to files, and a file keeps its bytes under whatever names it has. -/
structure Daemon where
  transfers : Dict String Transfer := Dict.empty
  entries : Dict Site ℕ := Dict.empty
  content : ℕ → Bytes := fun _ => []
  inodes : ℕ := 0
  begun : ℕ := 0
  log : List Effect := []

def Daemon.file (d : Daemon) (site : Site) : Option Bytes := (d.entries.get? site).map d.content

/-- What the walk finds for a begin, and how the kernel takes the sync and the publication of a finish. -/
structure Env where
  source : Except Refusal ℕ
  target : Except Refusal Site
  syncFails : Bool := false
  publishFails : Option ℕ := none

def MAX_OPEN_TRANSFERS : ℕ := 32

/-- `pwrite`, past the end after as many zeros as it takes. -/
def pwrite (content : Bytes) (offset : ℕ) (data : Bytes) : Bytes :=
  (content ++ List.replicate (offset - content.length) 0).take offset ++ data ++ content.drop (offset + data.length)

def pread (content : Bytes) (offset length : ℕ) : Bytes := (content.drop offset).take length

section Requests

variable (P : Platform)

def openTransfer (env : Env) (b : Begin) (d : Daemon) : Except Refusal (ℕ × Option Destination) × Daemon :=
  match b.mode with
  | .read =>
    match env.source with
    | .error refusal => (.error refusal, d)
    | .ok inode => (.ok (inode, none), d)
  | .write =>
    match env.target with
    | .error refusal => (.error refusal, d)
    | .ok (dir, targetName) =>
      let destination : Destination := ⟨dir, targetName, P.tempName b.transferId, b.exclusive⟩
      if d.entries.contains destination.temp then (.error (streamRefused .ioError), d)
      else
        (.ok (d.inodes, some destination),
          { d with
            entries := d.entries.set destination.temp d.inodes
            content := Function.update d.content d.inodes []
            inodes := d.inodes + 1 })

def startTransfer (b : Begin) (inode : ℕ) (destination : Option Destination) (d : Daemon) : Reply × Daemon :=
  let size := match b.mode with
    | .write => 0
    | .read => (d.content inode).length
  let offset := match b.mode with
    | .read => b.offset.getD 0
    | .write => 0
  let remaining := match b.mode with
    | .read => min (b.limit.getD (size - offset)) (size - offset)
    | .write => 0
  let transfer : Transfer :=
    { inode := inode, mode := b.mode, destination := destination, begin := b, size := size, offset := offset,
      remaining := remaining, serial := d.begun }
  (.begun 0 size, { d with transfers := d.transfers.set b.transferId transfer, begun := d.begun + 1 })

def streamBegin (env : Env) (b : Begin) (d : Daemon) : Reply × Daemon :=
  match d.transfers.get? b.transferId with
  | some previous =>
    if previous.begin = b ∧ previous.seq = 0 then (.begun 0 previous.size, d) else (refuse .invalidSequence, d)
  | none =>
    if d.transfers.entries.length ≥ MAX_OPEN_TRANSFERS then (refuse .tooLarge, d)
    else match openTransfer P env b d with
      | (.error refusal, d) => (.refused refusal, d)
      | (.ok (inode, destination), d) => startTransfer b inode destination d

def Reply.isLast : Reply → Bool
  | .chunk _ _ last _ => last
  | .written _ _ last => last
  | _ => false

def Transfer.isDone (t : Transfer) : Bool := t.last.any (·.2.isLast)

def Transfer.answer (t : Transfer) (q : Request) (reply : Reply) : Transfer :=
  { t with last := some (q, reply), seq := t.seq + 1 }

def readTransfer (q : Request) (transferId : String) (seq : ℕ) (t : Transfer) (d : Daemon) : Reply × Daemon :=
  let data := pread (d.content t.inode) t.offset (min t.remaining P.readMax)
  let t := { t with hashed := t.hashed ++ data, remaining := t.remaining - data.length, offset := t.offset + data.length }
  let last := t.remaining = 0 ∨ data.length = 0
  let reply := Reply.chunk seq (P.encode data) last (if last then some (P.sha256 t.hashed) else none)
  (reply, { d with transfers := d.transfers.set transferId (t.answer q reply) })

def writeTransfer (q : Request) (transferId : String) (seq : ℕ) (text : String) (last : Bool) (digest : Option String)
    (t : Transfer) (d : Daemon) : Reply × Daemon :=
  let data := P.decode text
  if data.length > P.writeMax then (refuse .tooLarge, d)
  else if last ≠ digest.isSome then (refuse .digestMismatch, d)
  else if last ∧ some (P.sha256 (t.hashed ++ data)) ≠ digest then (refuse .digestMismatch, d)
  else
    let reply := Reply.written seq (t.offset + data.length) last
    let t' := { t with offset := t.offset + data.length, hashed := t.hashed ++ data }
    (reply,
      { d with
        transfers := d.transfers.set transferId (t'.answer q reply)
        content := Function.update d.content t.inode (pwrite (d.content t.inode) t.offset data)
        log := d.log ++ [.wrote t.serial t.seq t.offset data] })

/-- A request that repeats the last one gets the last answer; any other is of its own sequence number or refused. -/
def streamChunk (q : Request) (transferId : String) (seq : ℕ) (mode : Mode)
    (apply : Transfer → Daemon → Reply × Daemon) (d : Daemon) : Reply × Daemon :=
  match d.transfers.get? transferId with
  | none => (refuse .transferNotFound, d)
  | some t =>
    match t.last.filter fun l => seq + 1 = t.seq ∧ l.1 = q with
    | some l => (l.2, d)
    | none =>
      if seq ≠ t.seq ∨ t.mode ≠ mode ∨ t.isDone then (refuse .invalidSequence, d)
      else apply t d

/-- `releaseTransfer`: the staged name goes unless it became the target. -/
def releaseTransfer (t : Transfer) (published : Bool) (d : Daemon) : Daemon :=
  match t.destination with
  | none => d
  | some destination => if published then d else { d with entries := d.entries.erase destination.temp }

def Daemon.forget (d : Daemon) (transferId : String) : Daemon := { d with transfers := d.transfers.erase transferId }

def abortTransfer (transferId : String) (d : Daemon) : Reply × Daemon :=
  match d.transfers.get? transferId with
  | none => (.finished, d)
  | some t => (.finished, releaseTransfer t false (d.forget transferId))

/-- A link never replaces an entry made after the begin; a rename does. -/
def publishTransfer (env : Env) (t : Transfer) (destination : Destination) (d : Daemon) : Option Refusal × Daemon :=
  let occupied := destination.exclusive && d.entries.contains destination.target
  match (if occupied then some 17 else env.publishFails) with
  | some errno => (some (streamRefused (if errno = 17 then .alreadyExists else .ioError)), d)
  | none =>
    let entries := if destination.exclusive then d.entries else d.entries.erase destination.temp
    (none,
      { d with
        entries := entries.set destination.target t.inode
        log := d.log ++ [.published t.serial destination.target (d.content t.inode)] })

def finishTransfer (env : Env) (transferId : String) (d : Daemon) : Reply × Daemon :=
  match d.transfers.get? transferId with
  | none => (refuse .transferNotFound, d)
  | some t =>
    if !t.isDone then (refuse .invalidSequence, d)
    else
      let d := d.forget transferId
      match t.destination with
      | none => (.finished, d)
      | some destination =>
        if env.syncFails then (.threw, releaseTransfer t false d)
        else match publishTransfer env t destination d with
          | (some refusal, d) => (.refused refusal, releaseTransfer t false d)
          | (none, d) => (.finished, releaseTransfer t (!destination.exclusive) d)

/-- `executeStream`. -/
def stream (env : Env) (q : Request) (d : Daemon) : Reply × Daemon :=
  match q with
  | .begin b => streamBegin P env b d
  | .abort transferId => abortTransfer transferId d
  | .finish transferId => finishTransfer env transferId d
  | .read transferId seq => streamChunk q transferId seq .read (readTransfer P q transferId seq) d
  | .write transferId seq data last digest =>
    streamChunk q transferId seq .write (writeTransfer P q transferId seq data last digest) d

end Requests

end Bulk
end OpenOmni
