import Mathlib
import OpenOmni.Lib.Dict
import OpenOmni.Lib.Path

/-! A tree of directories seen through descriptors: what a call relative to an open directory reaches, which
descriptors are open, and the record of everything the calls did. -/
namespace Posix
open List

open PosixPath

/-- A link carries the length of its target in bytes and the text the bytes decode to. -/
inductive Kind where
  | file
  | dir
  | symlink (bytes : ℕ) (target : String)
  | other
deriving DecidableEq

/-- What a descriptor stands for: a node of the tree, or the file an open made under a name of a directory. -/
inductive Place (ν : Type*) where
  | node (n : ν)
  | created (dir : ν) (name : String)

/-- The flags of an open that bear on what it reaches. `symlink` opens a link itself. -/
structure Flags where
  write : Bool := false
  create : Bool := false
  exclusive : Bool := false
  directory : Bool := false
  noFollow : Bool := false
  symlink : Bool := false

inductive Event (ν : Type*) where
  | opened (fd : ℕ) (place : Place ν)
  | closed (fd : ℕ)
  | renamed (dir : ν) (name target : String)
  | linked (dir : ν) (name target : String)
  | removed (dir : ν) (name : String)
  /-- The caller itself put the target of a link in the place of its name. -/
  | expanded (name : String)

/-- A tree that stands still, and a kernel over it that may refuse any call with any error. -/
structure System (ν : Type*) where
  kind : ν → Kind
  entry : ν → String → Option ν
  /-- What `..` leads to, inside the export or out of it. -/
  parent : ν → ν
  /-- What a text that is no name leads to: one with slashes, an empty one, one cut at a null character. -/
  beyond : ν → String → Option ν
  /-- Where the kernel ends up when it follows a link on its own. -/
  follow : ν → Option ν
  fault : ℕ → Option ℕ
  fresh : List ℕ → ℕ
  fresh_notMem : ∀ fds : List ℕ, fresh fds ∉ fds
  target_null : ∀ (n : ν) (bytes : ℕ) (target : String), kind n = .symlink bytes target →
    Char.ofNat 0 ∉ target.toList

structure World (ν : Type*) where
  table : Dict ℕ (Place ν) := Dict.empty
  calls : ℕ := 0
  log : List (Event ν) := []

section Calls

variable {ν : Type*} (S : System ν)

def Place.kind : Place ν → Kind
  | .node n => S.kind n
  | .created _ _ => .file

def System.find (dir : ν) (name : String) : Option ν :=
  if name = "." then some dir
  else if name = ".." then some (S.parent dir)
  else if IsName name then S.entry dir name
  else S.beyond dir name

/-- What an open of a name reaches. The errors are ENOENT 2, EEXIST 17, ENOTDIR 20, EISDIR 21 and ELOOP 40. -/
def System.reach (dir : ν) (name : String) (flags : Flags) : Except ℕ (Place ν) :=
  match S.find dir name with
  | none => if flags.create then .ok (.created dir name) else .error 2
  | some n =>
    if flags.create && flags.exclusive then .error 17
    else match S.kind n with
      | .symlink _ _ =>
        if flags.symlink then .ok (.node n)
        else if flags.noFollow then .error (if flags.directory then 20 else 40)
        else match S.follow n with
          | none => .error 2
          | some m => .ok (.node m)
      | .dir => if flags.write then .error 21 else .ok (.node n)
      | .file => if flags.directory then .error 20 else .ok (.node n)
      | .other => if flags.directory then .error 20 else .ok (.node n)

def World.called (w : World ν) : World ν := { w with calls := w.calls + 1 }

def World.enter (w : World ν) (dirfd : ℕ) : Except ℕ ν :=
  match S.fault w.calls with
  | some errno => .error errno
  | none => match w.table.get? dirfd with
    | none => .error 9
    | some (.created _ _) => .error 20
    | some (.node dir) => if S.kind dir = .dir then .ok dir else .error 20

def World.opened (w : World ν) (fd : ℕ) (place : Place ν) : World ν :=
  { table := w.table.set fd place, calls := w.calls + 1, log := w.log ++ [.opened fd place] }

def World.openat (w : World ν) (dirfd : ℕ) (name : String) (flags : Flags) : Except ℕ ℕ × World ν :=
  match w.enter S dirfd with
  | .error errno => (.error errno, w.called)
  | .ok dir => match S.reach dir name flags with
    | .error errno => (.error errno, w.called)
    | .ok place =>
      let fd := S.fresh (w.table.entries.map Prod.fst)
      (.ok fd, w.opened fd place)

def World.readlinkat (w : World ν) (dirfd : ℕ) (name : String) : Except ℕ (ℕ × String) × World ν :=
  match w.enter S dirfd with
  | .error errno => (.error errno, w.called)
  | .ok dir => match S.find dir name with
    | none => (.error 2, w.called)
    | some n => match S.kind n with
      | .symlink bytes target => (.ok (bytes, target), w.called)
      | _ => (.error 22, w.called)

/-- What a descriptor stands for says what kind it is; asking a descriptor that is open does not fail. -/
def World.fstat (w : World ν) (fd : ℕ) : Option Kind := (w.table.get? fd).map (Place.kind S)

def World.fsync (w : World ν) : Except ℕ Unit × World ν :=
  match S.fault w.calls with
  | some errno => (.error errno, w.called)
  | none => (.ok (), w.called)

def World.close (w : World ν) (fd : ℕ) : World ν :=
  { w with table := w.table.erase fd, log := w.log ++ [.closed fd] }

def World.change (w : World ν) (dirfd : ℕ) (event : ν → Event ν) : Except ℕ Unit × World ν :=
  match w.enter S dirfd with
  | .error errno => (.error errno, w.called)
  | .ok dir => (.ok (), { w.called with log := w.log ++ [event dir] })

def World.renameat (w : World ν) (dirfd : ℕ) (name target : String) : Except ℕ Unit × World ν :=
  w.change S dirfd fun dir => .renamed dir name target

def World.linkat (w : World ν) (dirfd : ℕ) (name target : String) : Except ℕ Unit × World ν :=
  w.change S dirfd fun dir => .linked dir name target

def World.unlinkat (w : World ν) (dirfd : ℕ) (name : String) : Except ℕ Unit × World ν :=
  w.change S dirfd fun dir => .removed dir name

def World.expanded (w : World ν) (name : String) : World ν := { w with log := w.log ++ [.expanded name] }

end Calls

section Within

variable {ν : Type*}

inductive Below (S : System ν) (root : ν) : ν → Prop where
  | root : Below S root root
  | child {n m : ν} {name : String} (parent : Below S root n) (named : IsName name)
      (entry : S.entry n name = some m) : Below S root m

def Place.Within (S : System ν) (root : ν) : Place ν → Prop
  | .node n => Below S root n
  | .created dir name => Below S root dir ∧ IsName name

/-- Opened, created, renamed onto, linked or removed, it lies in the subtree. -/
def Event.Within (S : System ν) (root : ν) : Event ν → Prop
  | .opened _ place => place.Within S root
  | .closed _ => True
  | .renamed dir name target => Below S root dir ∧ IsName name ∧ IsName target
  | .linked dir name target => Below S root dir ∧ IsName name ∧ IsName target
  | .removed dir name => Below S root dir ∧ IsName name
  | .expanded _ => True

def Event.isExpanded : Event ν → Bool
  | .expanded _ => true
  | _ => false

/-- The descriptors held after an event: an open takes one not held yet, a close gives back a held one. -/
def Event.track (held : Finset ℕ) : Event ν → Option (Finset ℕ)
  | .opened fd _ => if fd ∈ held then none else some (insert fd held)
  | .closed fd => if fd ∈ held then some (held.erase fd) else none
  | _ => some held

/-- `none` once a descriptor was closed twice, closed without being held or opened while held. -/
def track (events : List (Event ν)) (held : Finset ℕ) : Option (Finset ℕ) := events.foldlM Event.track held

lemma track_append (events more : List (Event ν)) (held : Finset ℕ) :
    track (events ++ more) held = (track events held).bind (track more) := by
  unfold track
  rw [foldlM_append]
  rfl

lemma track_snoc {events : List (Event ν)} {held held' : Finset ℕ} (h : track events held = some held')
    (event : Event ν) : track (events ++ [event]) held = event.track held' := by
  rw [track_append, h, Option.bind_some]
  unfold track
  rw [foldlM_cons]
  cases event.track held' <;> rfl

variable {S : System ν} {root : ν}

variable {dir : ν} {name : String} {flags : Flags} {place : Place ν}

lemma find_of_isName (h : IsName name) : S.find dir name = S.entry dir name := by
  unfold System.find
  rw [if_neg h.2.1, if_neg h.2.2.1, if_pos h]

/-- No link is followed: the flags say so, or nothing that exists is opened at all. -/
def Flags.Stays (flags : Flags) : Prop :=
  flags.noFollow = true ∨ flags.symlink = true ∨ (flags.create && flags.exclusive) = true

theorem reach_within (hname : IsName name) (hflags : flags.Stays) (hdir : Below S root dir)
    (h : S.reach dir name flags = .ok place) : place.Within S root := by
  unfold System.reach at h
  rw [find_of_isName hname] at h
  cases hentry : S.entry dir name with
  | none =>
    rw [hentry] at h
    simp only at h
    split at h
    · cases h
      exact ⟨hdir, hname⟩
    · cases h
  | some n =>
    have hchild : Below S root n := .child hdir hname hentry
    rw [hentry] at h
    simp only at h
    split at h
    · cases h
    · rename_i hexclusive
      split at h
      · split at h
        · cases h
          exact hchild
        · rename_i hsymlink
          have hnoFollow : flags.noFollow = true := by
            rcases hflags with hnoFollow | hlink | hboth
            · exact hnoFollow
            · exact absurd hlink hsymlink
            · exact absurd hboth hexclusive
          rw [if_pos hnoFollow] at h
          cases h
      all_goals
        split at h
        · cases h
        · cases h
          exact hchild

theorem reach_dot (hdir : S.kind dir = .dir) (h : S.reach dir "." flags = .ok place) : place = .node dir := by
  unfold System.reach at h
  have hfind : S.find dir "." = some dir := rfl
  rw [hfind] at h
  simp only [hdir] at h
  split at h
  · cases h
  · split at h
    · cases h
    · exact (Except.ok.inj h).symm

end Within

section Specs

variable {ν : Type*} {S : System ν} {w w' : World ν}

variable {dirfd : ℕ} {name : String} {flags : Flags}

lemma enter_ok {dir : ν} (h : w.enter S dirfd = .ok dir) :
    w.table.get? dirfd = some (.node dir) ∧ S.kind dir = .dir := by
  unfold World.enter at h
  split at h
  · cases h
  · split at h
    · cases h
    · cases h
    · rename_i hget
      split at h
      · rename_i hkind
        cases h
        exact ⟨hget, hkind⟩
      · cases h

lemma get?_fresh (w : World ν) : w.table.get? (S.fresh (w.table.entries.map Prod.fst)) = none := by
  rw [Dict.get?, Option.map_eq_none_iff, find?_eq_none]
  intro e he hfresh
  apply S.fresh_notMem (w.table.entries.map Prod.fst)
  rw [← of_decide_eq_true hfresh]
  exact mem_map_of_mem he

lemma openat_error {errno : ℕ} (h : w.openat S dirfd name flags = (.error errno, w')) : w' = w.called := by
  unfold World.openat at h
  split at h
  · exact (Prod.mk.inj h).2.symm
  · split at h
    · exact (Prod.mk.inj h).2.symm
    · cases (Prod.mk.inj h).1

lemma openat_ok {fd : ℕ} (h : w.openat S dirfd name flags = (.ok fd, w')) :
    ∃ dir place, w.table.get? dirfd = some (.node dir) ∧ S.kind dir = .dir ∧
      S.reach dir name flags = .ok place ∧ w.table.get? fd = none ∧ w' = w.opened fd place := by
  unfold World.openat at h
  split at h
  · cases (Prod.mk.inj h).1
  · rename_i dir hdir
    split at h
    · cases (Prod.mk.inj h).1
    · rename_i place hplace
      obtain ⟨hfd, rfl⟩ := Prod.mk.inj h
      cases hfd
      obtain ⟨hget, hkind⟩ := enter_ok hdir
      exact ⟨dir, place, hget, hkind, hplace, get?_fresh w, rfl⟩

lemma readlinkat_world (w : World ν) (dirfd : ℕ) (name : String) : (w.readlinkat S dirfd name).2 = w.called := by
  unfold World.readlinkat
  split
  · rfl
  · split
    · rfl
    · split <;> rfl

theorem readlinkat_ok {bytes : ℕ} {target : String} (h : (w.readlinkat S dirfd name).1 = .ok (bytes, target)) :
    Char.ofNat 0 ∉ target.toList := by
  unfold World.readlinkat at h
  split at h
  · cases h
  · split at h
    · cases h
    · rename_i n _
      split at h
      · rename_i bytes' target' hkind
        obtain ⟨-, rfl⟩ := Prod.mk.inj (Except.ok.inj h)
        exact S.target_null n bytes' target' hkind
      · cases h

@[simp] theorem change_table (w : World ν) (dirfd : ℕ) (event : ν → Event ν) :
    (w.change S dirfd event).2.table = w.table := by
  unfold World.change
  split <;> rfl

lemma fsync_world (w : World ν) : (w.fsync S).2 = w.called := by
  unfold World.fsync
  split <;> rfl

lemma change_world (w : World ν) (dirfd : ℕ) (event : ν → Event ν) :
    (w.change S dirfd event).2 = w.called ∨
      ∃ dir, w.table.get? dirfd = some (.node dir) ∧
        (w.change S dirfd event).2 = { w.called with log := w.log ++ [event dir] } := by
  unfold World.change
  split
  · exact .inl rfl
  · rename_i dir hdir
    exact .inr ⟨dir, (enter_ok hdir).1, rfl⟩

end Specs

section Stretch

variable {ν : Type*}

/-- From one world to a later one every event lay in the subtree of the root, `expansions` links were expanded, and
the opens and closes turned the descriptors held before into those held after. -/
def Record (S : System ν) (root : ν) (w w' : World ν) (before after : Finset ℕ) (expansions : ℕ) : Prop :=
  ∃ events : List (Event ν), w'.log = w.log ++ events ∧ (∀ event ∈ events, event.Within S root) ∧
    events.countP Event.isExpanded = expansions ∧ track events before = some after

/-- A record that starts with nothing held: the held descriptors are its own, they are open, and the others are what
they were. -/
structure Stretch (S : System ν) (root : ν) (w₀ w : World ν) (held : Finset ℕ) (expansions : ℕ) : Prop where
  record : Record S root w₀ w ∅ held expansions
  mine : ∀ fd ∈ held, w₀.table.get? fd = none
  live : ∀ fd ∈ held, ∃ place : Place ν, w.table.get? fd = some place ∧ place.Within S root
  others : ∀ fd ∉ held, w.table.get? fd = w₀.table.get? fd

variable {S : System ν} {root : ν} {w₀ w : World ν} {held : Finset ℕ} {expansions : ℕ}

lemma Record.refl (w : World ν) (held : Finset ℕ) : Record S root w w held held 0 := by
  refine ⟨[], ?_, ?_, rfl, rfl⟩
  · simp
  · intro event hevent
    cases hevent

variable {w' : World ν} {before : Finset ℕ} {fd dirfd : ℕ} {place : Place ν} {name : String} {flags : Flags}

theorem Record.snoc {after : Finset ℕ} (h : Record S root w₀ w before held expansions) (event : Event ν)
    (hlog : w'.log = w.log ++ [event]) (hevent : event.Within S root) (htrack : event.track held = some after) :
    Record S root w₀ w' before after (expansions + [event].countP Event.isExpanded) := by
  obtain ⟨events, hevents, hwithin, hcount, hheld⟩ := h
  refine ⟨events ++ [event], ?_, ?_, ?_, ?_⟩
  · rw [hlog, hevents, append_assoc]
  · intro other hother
    rcases mem_append.mp hother with hother | hother
    · exact hwithin other hother
    · obtain rfl := mem_singleton.mp hother
      exact hevent
  · rw [countP_append, hcount]
  · rw [track_snoc hheld, htrack]

section
variable (h : Record S root w₀ w before held expansions)
include h

theorem Record.congr (hlog : w'.log = w.log) :
    Record S root w₀ w' before held expansions := by
  obtain ⟨events, hevents, hrest⟩ := h
  exact ⟨events, by rw [hlog, hevents], hrest⟩

lemma Record.close (hfd : fd ∈ held) :
    Record S root w₀ (w.close fd) before (held.erase fd) expansions :=
  h.snoc (.closed fd) rfl trivial (if_pos hfd)

theorem Record.change {event : ν → Event ν}
    (hdirfd : ∀ place, w.table.get? dirfd = some place → place.Within S root)
    (hevent : ∀ dir, Below S root dir → (event dir).Within S root)
    (htrack : ∀ dir, (event dir).track held = some held) (hcount : ∀ dir, (event dir).isExpanded = false) :
    Record S root w₀ (w.change S dirfd event).2 before held expansions := by
  rcases change_world w dirfd event with hcalled | ⟨dir, hget, hchanged⟩
  · rw [hcalled]
    exact h.congr rfl
  · rw [hchanged]
    have hdir : Below S root dir := hdirfd (.node dir) hget
    have hsnoc : Record S root w₀ { w.called with log := w.log ++ [event dir] } before held _ :=
      h.snoc (event dir) rfl (hevent dir hdir) (htrack dir)
    rwa [countP_singleton, hcount, if_neg Bool.false_ne_true, Nat.add_zero] at hsnoc

end

lemma Stretch.refl (w : World ν) : Stretch S root w w ∅ 0 := by
  refine ⟨Record.refl w ∅, ?_, ?_, fun _ _ => rfl⟩
  · intro fd hfd
    cases hfd
  · intro fd hfd
    cases hfd

section
variable (h : Stretch S root w₀ w held expansions)
include h

lemma Stretch.called : Stretch S root w₀ w.called held expansions :=
  ⟨h.record.congr rfl, h.mine, h.live, h.others⟩

lemma Stretch.not_mem (hfd : w₀.table.get? fd = some place) :
    fd ∉ held := by
  intro hheld
  rw [h.mine fd hheld] at hfd
  cases hfd

theorem Stretch.get? (hfd : w₀.table.get? fd = some place) :
    w.table.get? fd = some place := by
  rw [h.others fd (h.not_mem hfd), hfd]

lemma Stretch.opened (hfd : w.table.get? fd = none)
    (hplace : place.Within S root) : Stretch S root w₀ (w.opened fd place) (insert fd held) expansions := by
  have hfree : fd ∉ held := by
    intro hheld
    obtain ⟨other, hlive, -⟩ := h.live fd hheld
    rw [hfd] at hlive
    cases hlive
  refine ⟨h.record.snoc (.opened fd place) rfl hplace (if_neg hfree), ?_, ?_, ?_⟩
  · intro other hother
    rcases Finset.mem_insert.mp hother with rfl | hother
    · rw [← h.others other hfree, hfd]
    · exact h.mine other hother
  · intro other hother
    simp only [World.opened, Dict.get?_set]
    split
    · exact ⟨place, rfl, hplace⟩
    · rename_i hne
      exact h.live other ((Finset.mem_insert.mp hother).resolve_left hne)
  · intro other hother
    rw [Finset.mem_insert, not_or] at hother
    simp only [World.opened, Dict.get?_set, if_neg hother.1]
    exact h.others other hother.2

lemma Stretch.close (hfd : fd ∈ held) :
    Stretch S root w₀ (w.close fd) (held.erase fd) expansions := by
  refine ⟨h.record.close hfd, ?_, ?_, ?_⟩
  · intro other hother
    exact h.mine other (Finset.mem_of_mem_erase hother)
  · intro other hother
    simp only [World.close, Dict.get?_erase, if_neg (Finset.ne_of_mem_erase hother)]
    exact h.live other (Finset.mem_of_mem_erase hother)
  · intro other hother
    simp only [World.close, Dict.get?_erase]
    split
    · rename_i hsame
      rw [hsame, h.mine fd hfd]
    · rename_i hne
      exact h.others other fun hheld => hother (Finset.mem_erase.mpr ⟨hne, hheld⟩)

end

theorem Stretch.close_last (h : Stretch S root w₀ w {fd} expansions) : Stretch S root w₀ (w.close fd) ∅ expansions := by
  have hclose := h.close (Finset.mem_singleton_self fd)
  rwa [Finset.erase_singleton] at hclose

section
variable (h : Stretch S root w₀ w held expansions)
include h

lemma Stretch.expanded (name : String) :
    Stretch S root w₀ (w.expanded name) held (expansions + 1) :=
  ⟨h.record.snoc (.expanded name) rfl trivial rfl, h.mine, h.live, h.others⟩

theorem Stretch.openat_error {errno : ℕ}
    (hopen : w.openat S dirfd name flags = (.error errno, w')) : Stretch S root w₀ w' held expansions := by
  rw [Posix.openat_error hopen]
  exact h.called

theorem Stretch.openat_ok (hdirfd : ∀ place, w.table.get? dirfd = some place → place.Within S root)
    (hname : IsName name ∧ flags.Stays ∨ name = ".") (hopen : w.openat S dirfd name flags = (.ok fd, w')) :
    Stretch S root w₀ w' (insert fd held) expansions ∧ fd ∉ held := by
  obtain ⟨dir, place, hget, hkind, hreach, hfree, rfl⟩ := Posix.openat_ok hopen
  have hdir : Below S root dir := hdirfd (.node dir) hget
  have hplace : place.Within S root := by
    rcases hname with ⟨hname, hflags⟩ | rfl
    · exact reach_within hname hflags hdir hreach
    · rw [reach_dot hkind hreach]
      exact hdir
  have hnot : fd ∉ held := by
    intro hheld
    obtain ⟨other, hlive, -⟩ := h.live fd hheld
    rw [hfree] at hlive
    cases hlive
  exact ⟨h.opened hfree hplace, hnot⟩

end

end Stretch

end Posix
