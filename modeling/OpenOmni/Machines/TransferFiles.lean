import OpenOmni.Machines.Walk

/-! What a request opens: the target of a plain operation, the file a transfer reads, or the staged file a transfer
writes beside its target, and how the staged file becomes the target or goes. -/
namespace OpenOmni
namespace Exports

open Posix PosixPath

inductive FsOp where
  | read
  | write (bytes : ℕ) (exclusive : Bool)
  | list
  | stat

def FS_WRITE_MAX_BYTES : ℕ := 262144

structure FsRequest where
  op : FsOp
  «export» : String
  path : String

inductive Mode where
  | read
  | write
deriving DecidableEq

structure Begin where
  transferId : String
  mode : Mode
  «export» : String
  path : String
  offset : Option ℕ := none
  limit : Option ℕ := none
  exclusive : Bool := false
deriving DecidableEq

/-- Where a staged file is published: the pinned directory, and the two names in it. -/
structure Destination where
  dirfd : ℕ
  targetName : String
  tempName : String
  exclusive : Bool

structure Staged where
  fd : ℕ
  destination : Option Destination := none

structure Digest where
  hex : String → String
  digits : ∀ (text : String) (c : Char), c ∈ (hex text).toList → c ∈ "0123456789abcdef".toList

def streamRefused (reason : Reason) : Refusal := ⟨reason, "filesystem transfer refused: " ++ reason.text⟩

def openFlags : FsOp → Flags
  | .write _ exclusive => { write := true, create := true, exclusive := exclusive }
  | _ => {}

def FsOp.isList : FsOp → Bool
  | .list => true
  | _ => false

def FsOp.isStat : FsOp → Bool
  | .stat => true
  | _ => false

def FsOp.isExclusive : FsOp → Bool
  | .write _ exclusive => exclusive
  | _ => false

def FsOp.isTooLarge : FsOp → Bool
  | .write bytes _ => FS_WRITE_MAX_BYTES < bytes
  | _ => false

def isFile : Option Kind → Bool
  | some .file => true
  | _ => false

section Requests

variable {ν : Type*} (S : System ν) (sha256 : Digest) (roots : Dict String Root)

/-- The descriptors of a plain request: the walk's target is closed once the operation on it is over. -/
def executeRequest (request : FsRequest) (w : World ν) : Except Refusal Unit × World ν :=
  match roots.get? request.export with
  | none => (.error ⟨.exportNotAvailable, "export is not available: " ++ request.export⟩, w)
  | some root =>
    let shown := displayPath request.path
    match requestSegments request.path with
    | none => (.error ⟨.pathEscapesExport, "path escapes export: " ++ shown⟩, w)
    | some segments =>
      if request.op.isTooLarge then (.error ⟨.tooLarge, "write exceeds socket byte cap"⟩, w)
      else
        let query : Query := {
          finalDirectory := request.op.isList
          preserveFinalSymlink := request.op.isStat
          shown := shown
          targetFlags := openFlags request.op
          followLinks := !request.op.isExclusive }
        match walk S root segments query w with
        | (.error refusal, w) => (.error refusal, w)
        | (.ok target, w) => (.ok (), w.close target.fd)

def tempName (transferId : String) : String :=
  ".oni-transfer-" ++ String.ofList ((sha256.hex transferId).toList.take 32)

def checkWriteTarget (dirfd : ℕ) (targetName : String) (exclusive : Bool) (w : World ν) :
    Option Refusal × World ν :=
  match w.openat S dirfd targetName { noFollow := true } with
  | (.ok fd, w) =>
    (if !exclusive && isFile (w.fstat S fd) then none
      else some (streamRefused (if exclusive then .alreadyExists else .wrongKind)), w.close fd)
  | (.error errno, w) =>
    match readLinkAt S w dirfd targetName with
    | (.ok _, w) => (some (streamRefused (if exclusive then .alreadyExists else .pathEscapesExport)), w)
    | (.error _, w) => (if errno = 2 then none else some (streamRefused .ioError), w)

/-- The parent stays open while its entry is staged, and is closed where nothing is. -/
def stageTarget (parent : OpenedTarget) (targetName transferId : String) (exclusive : Bool) (w : World ν) :
    Except Refusal Staged × World ν :=
  match checkWriteTarget S parent.fd targetName exclusive w with
  | (some refusal, w) => (.error refusal, w.close parent.fd)
  | (none, w) =>
    let name := tempName sha256 transferId
    match w.openat S parent.fd name { write := true, create := true, exclusive := true } with
    | (.error _, w) => (.error (streamRefused .ioError), w.close parent.fd)
    | (.ok fd, w) => (.ok ⟨fd, some ⟨parent.fd, targetName, name, exclusive⟩⟩, w)

def openWriteTemp (root : Root) (segments : List String) (transferId : String) (exclusive : Bool) (w : World ν) :
    Except Refusal Staged × World ν :=
  match segments.getLast? with
  | none => (.error (streamRefused .wrongKind), w)
  | some targetName =>
    let query : Query := {
      finalDirectory := true
      preserveFinalSymlink := false
      shown := join segments
      targetFlags := {}
      followLinks := !exclusive }
    match walk S root segments.dropLast query w with
    | (.error refusal, w) => (.error refusal, w)
    | (.ok parent, w) => stageTarget S sha256 parent targetName transferId exclusive w

def openReadTarget (root : Root) (segments : List String) (shown : String) (w : World ν) :
    Except Refusal Staged × World ν :=
  let query : Query := {
    finalDirectory := false
    preserveFinalSymlink := false
    shown := shown
    targetFlags := openFlags .read }
  match walk S root segments query w with
  | (.error refusal, w) => (.error refusal, w)
  | (.ok target, w) =>
    if isFile (w.fstat S target.fd) then (.ok ⟨target.fd, none⟩, w)
    else (.error (streamRefused .wrongKind), w.close target.fd)

def openTransfer (request : Begin) (w : World ν) : Except Refusal Staged × World ν :=
  match roots.get? request.export with
  | none => (.error (streamRefused .exportNotAvailable), w)
  | some root =>
    match requestSegments request.path with
    | none => (.error (streamRefused .pathEscapesExport), w)
    | some segments =>
      match request.mode with
      | .write => openWriteTemp S sha256 root segments request.transferId request.exclusive w
      | .read => openReadTarget S root segments (displayPath request.path) w

/-- Without replacing a file made after `begin` when the transfer is exclusive. -/
def publishTransfer (destination : Destination) (w : World ν) : Option Refusal × World ν :=
  match (if destination.exclusive then w.linkat S destination.dirfd destination.tempName destination.targetName
    else w.renameat S destination.dirfd destination.tempName destination.targetName) with
  | (.ok _, w) => (none, w)
  | (.error errno, w) => (some (streamRefused (if errno = 17 then .alreadyExists else .ioError)), w)

/-- The staged name goes unless it became the target. The flag is whether the removal failed, which throws. -/
def releaseTransfer (transfer : Staged) (published : Bool) (w : World ν) : Bool × World ν :=
  let w := w.close transfer.fd
  match transfer.destination with
  | none => (false, w)
  | some destination =>
    if published then (false, w.close destination.dirfd)
    else match w.unlinkat S destination.dirfd destination.tempName with
      | (.ok _, w) => (false, w.close destination.dirfd)
      | (.error _, w) => (true, w.close destination.dirfd)

/-- How a finish ends: `threw` when the sync or the removal failed. -/
inductive Finish where
  | finished
  | refused (refusal : Refusal)
  | threw

/-- `releaseTransfer` in the `finally` of a finish: a throw there wins over what was to be returned. -/
def releaseAfter (transfer : Staged) (published : Bool) (result : Finish) (w : World ν) : Finish × World ν :=
  match releaseTransfer S transfer published w with
  | (true, w) => (.threw, w)
  | (false, w) => (result, w)

/-- `finishTransfer` once the transfer has its last chunk and is forgotten. -/
def finishTransfer (transfer : Staged) (w : World ν) : Finish × World ν :=
  match transfer.destination with
  | none => releaseAfter S transfer false .finished w
  | some destination =>
    match w.fsync S with
    | (.error _, w) => releaseAfter S transfer false .threw w
    | (.ok _, w) =>
      match publishTransfer S destination w with
      | (some refusal, w) => releaseAfter S transfer false (.refused refusal) w
      | (none, w) => releaseAfter S transfer (!destination.exclusive) .finished w

end Requests

end Exports
end OpenOmni
