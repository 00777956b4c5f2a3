import OpenOmni.Lib.Descriptors

/-! The walk from the pinned root of an export to the file a request names. Every open starts at a descriptor and
follows no link; a link's target takes the place of its name, and the walk starts again at the root. -/
namespace OpenOmni
namespace Exports

open Posix PosixPath

inductive Reason where
  | exportNotAvailable
  | pathEscapesExport
  | notFound
  | alreadyExists
  | wrongKind
  | ioError
  | tooLarge
  | transferNotFound
  | invalidSequence
  | digestMismatch
deriving DecidableEq

def Reason.text : Reason → String
  | .exportNotAvailable => "export_not_available"
  | .pathEscapesExport => "path_escapes_export"
  | .notFound => "not_found"
  | .alreadyExists => "already_exists"
  | .wrongKind => "wrong_kind"
  | .ioError => "io_error"
  | .tooLarge => "too_large"
  | .transferNotFound => "transfer_not_found"
  | .invalidSequence => "invalid_sequence"
  | .digestMismatch => "digest_mismatch"

structure Refusal where
  reason : Reason
  message : String
deriving DecidableEq

/-- An export's root: the names its canonical path is made of, and the descriptor pinned to it. -/
structure Root where
  canonical : List String
  named : ∀ name ∈ canonical, IsName name
  fd : ℕ

def Root.canonicalPath (root : Root) : String := absolute root.canonical

structure OpenedTarget where
  fd : ℕ
  symlinkStat : Option Kind := none

def MAX_SYMLINK_EXPANSIONS : ℕ := 40

def READLINK_BUFFER_BYTES : ℕ := 4096

def isWithin (root target : String) : Bool :=
  target = root ||
    (if root.toList.getLast? = some '/' then root else root ++ "/").toList.isPrefixOf target.toList

def displayPath (path : String) : String := if path = "" then "." else path

def requestSegments (path : String) : Option (List String) :=
  if isAbsolute path ∨ Char.ofNat 0 ∈ path.toList then none
  else
    let segments := (split path).filter fun segment => segment ≠ "" ∧ segment ≠ "."
    if ".." ∈ segments then none else some segments

/-- One segment of a relative target: `..` above the root has nowhere to go. -/
def linkStep (resolved : List String) (segment : String) : Option (List String) :=
  if segment = "" ∨ segment = "." then some resolved
  else if segment = ".." then
    if resolved.length = 0 then none else some resolved.dropLast
  else some (resolved ++ [segment])

def resolveLink (root : Root) (traversed : List String) (target : String) : Option (List String) :=
  if isAbsolute target then
    let normalized := resolve target
    if !isWithin root.canonicalPath normalized then none
    else
      let remainder := relative root.canonicalPath normalized
      some (if remainder = "" then [] else split remainder)
  else (split target).foldlM linkStep traversed

section Calls

variable {ν : Type*} (S : System ν)

def readLinkAt (w : World ν) (dirfd : ℕ) (name : String) : Except ℕ String × World ν :=
  match w.readlinkat S dirfd name with
  | (.error errno, w) => (.error errno, w)
  | (.ok (bytes, target), w) =>
    if min bytes READLINK_BUFFER_BYTES = READLINK_BUFFER_BYTES then (.error 0, w) else (.ok target, w)

def isSymbolicLink : Option Kind → Bool
  | some (.symlink _ _) => true
  | _ => false

def openSymlinkAt (w : World ν) (dirfd : ℕ) (name : String) : Option ℕ × World ν :=
  match w.openat S dirfd name { symlink := true } with
  | (.error _, w) => (none, w)
  | (.ok fd, w) => if isSymbolicLink (w.fstat S fd) then (some fd, w) else (none, w.close fd)

def refusalForOpenError (errno : ℕ) (shown : String) : Refusal :=
  if errno = 17 then ⟨.alreadyExists, "path already exists: " ++ shown⟩
  else if errno = 2 ∨ errno = 20 then ⟨.notFound, "path not found: " ++ shown⟩
  else ⟨.ioError, "filesystem operation failed for: " ++ shown⟩

structure Query where
  finalDirectory : Bool
  preserveFinalSymlink : Bool
  shown : String
  targetFlags : Flags
  followLinks : Bool := true

structure Loop where
  pending : List String
  traversed : List String := []
  dirfd : ℕ
  ownsDirfd : Bool := false
  expansions : ℕ := 0
  preservedSymlinkFd : Option ℕ := none

def Query.flags (q : Query) (isFinal : Bool) : Flags :=
  let flags := if isFinal then q.targetFlags else {}
  { flags with noFollow := true, directory := flags.directory || !isFinal || q.finalDirectory }

/-- The target of a link resolved, when the walk may still expand it and what it preserves is at hand. -/
def preserveLink (q : Query) (s : Loop) (segment : String) (isFinal : Bool) (w : World ν) :
    Except Refusal (Option ℕ) × World ν :=
  if isFinal && q.preserveFinalSymlink && s.preservedSymlinkFd.isNone then
    match openSymlinkAt S w s.dirfd segment with
    | (none, w) => (.error ⟨.ioError, "filesystem operation failed for: " ++ q.shown⟩, w)
    | (some fd, w) => (.ok (some fd), w)
  else (.ok s.preservedSymlinkFd, w)

def expandWalkLink (root : Root) (q : Query) (s : Loop) (segment : String) (rest : List String) (openErrno : ℕ)
    (isFinal : Bool) (w : World ν) : Except Refusal (List String × Option ℕ) × World ν :=
  match readLinkAt S w s.dirfd segment with
  | (.error _, w) =>
    if isFinal && q.finalDirectory && openErrno = 20 then
      (.error ⟨.wrongKind, "path is not a directory: " ++ q.shown⟩, w)
    else (.error (refusalForOpenError openErrno q.shown), w)
  | (.ok target, w) =>
    match resolveLink root s.traversed target with
    | none => (.error ⟨.pathEscapesExport, "path escapes export: " ++ q.shown⟩, w)
    | some rewritten =>
      if s.expansions + 1 > MAX_SYMLINK_EXPANSIONS then
        (.error ⟨.ioError, "filesystem operation failed for: " ++ q.shown⟩, w)
      else
        match preserveLink S q s segment isFinal w with
        | (.error refusal, w) => (.error refusal, w)
        | (.ok preserved, w) => (.ok (rewritten ++ rest, preserved), w.expanded segment)

lemma expandWalkLink_expansions {root : Root} {q : Query} {s : Loop} {segment : String} {rest : List String}
    {openErrno : ℕ} {isFinal : Bool} {w w' : World ν} {pending : List String} {preserved : Option ℕ}
    (h : expandWalkLink S root q s segment rest openErrno isFinal w = (.ok (pending, preserved), w')) :
    s.expansions < MAX_SYMLINK_EXPANSIONS := by
  unfold expandWalkLink at h
  split at h
  · split at h <;> cases (Prod.mk.inj h).1
  · split at h
    · cases (Prod.mk.inj h).1
    · split at h
      · cases (Prod.mk.inj h).1
      · omega

def closeOwned (s : Loop) (w : World ν) : World ν := if s.ownsDirfd then w.close s.dirfd else w

def closePreserved (s : Loop) (w : World ν) : World ν :=
  match s.preservedSymlinkFd with
  | none => w
  | some fd => w.close fd

/-- `fail`: what the walk still holds is closed before the refusal is returned. -/
def closeAll (s : Loop) (w : World ν) : World ν := closePreserved s (closeOwned s w)

def symlinkStat (s : Loop) (w : World ν) : Option Kind := s.preservedSymlinkFd.bind (w.fstat S)

def Loop.restart (s : Loop) (root : Root) (pending : List String) (preserved : Option ℕ) : Loop :=
  { pending := pending, dirfd := root.fd, expansions := s.expansions + 1, preservedSymlinkFd := preserved }

def Loop.descend (s : Loop) (fd : ℕ) (segment : String) (rest : List String) : Loop :=
  { s with pending := rest, traversed := s.traversed ++ [segment], dirfd := fd, ownsDirfd := true }

def walkLoop (root : Root) (q : Query) (s : Loop) (w : World ν) : Except Refusal OpenedTarget × World ν :=
  match _hpending : s.pending with
  | [] =>
    match w.openat S s.dirfd "." { directory := q.finalDirectory } with
    | (.error errno, w) => (.error (refusalForOpenError errno q.shown), closeAll s w)
    | (.ok fd, w) =>
      let w := closeOwned s w
      (.ok ⟨fd, symlinkStat S s w⟩, closePreserved s w)
  | segment :: rest =>
    match w.openat S s.dirfd segment (q.flags rest.isEmpty) with
    | (.ok fd, w) =>
      let w := closeOwned s w
      -- `finishWalkTarget`
      if rest.isEmpty then (.ok ⟨fd, symlinkStat S s w⟩, closePreserved s w)
      else walkLoop root q (s.descend fd segment rest) w
    | (.error errno, w) =>
      if !q.followLinks then (.error (refusalForOpenError errno q.shown), closeAll s w)
      else
        match _hexpand : expandWalkLink S root q s segment rest errno rest.isEmpty w with
        | (.error refusal, w) => (.error refusal, closeAll s w)
        | (.ok (pending, preserved), w) => walkLoop root q (s.restart root pending preserved) (closeOwned s w)
termination_by (MAX_SYMLINK_EXPANSIONS - s.expansions, s.pending.length)
decreasing_by
  · apply Prod.Lex.right'
    · exact le_rfl
    · simp [Loop.descend, _hpending]
  · apply Prod.Lex.left
    have hleft := expandWalkLink_expansions S _hexpand
    simp only [Loop.restart]
    omega

def walk (root : Root) (segments : List String) (q : Query) (w : World ν) : Except Refusal OpenedTarget × World ν :=
  walkLoop S root q { pending := segments, dirfd := root.fd } w

end Calls

end Exports
end OpenOmni
