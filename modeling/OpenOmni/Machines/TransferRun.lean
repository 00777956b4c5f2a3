import OpenOmni.Lib.Run
import OpenOmni.Machines.Transfers

/-! The requests of one transfer in any order and number, among whatever else happens to files: what each of them can
change, and what every run keeps. -/
namespace OpenOmni
namespace Bulk
open List

open Exports

/-- The chunks a begin's transfer accepted: their sequence numbers, their offsets and their bytes. -/
def writesOf (serial : ℕ) (log : List Effect) : List (ℕ × ℕ × Bytes) :=
  log.filterMap fun effect =>
    match effect with
    | .wrote n seq offset data => if n = serial then some (seq, offset, data) else none
    | .published _ _ _ => none

def publishesOf (serial : ℕ) (log : List Effect) : List (Site × Bytes) :=
  log.filterMap fun effect =>
    match effect with
    | .wrote _ _ _ _ => none
    | .published n target bytes => if n = serial then some (target, bytes) else none

def payload (writes : List (ℕ × ℕ × Bytes)) : Bytes := writes.flatMap (·.2.2)

/-- Every chunk has the next sequence number and lies where the chunks before it end. -/
def Placed (writes : List (ℕ × ℕ × Bytes)) : Prop :=
  ∀ (k : ℕ) (w : ℕ × ℕ × Bytes), writes[k]? = some w → w.1 = k ∧ w.2.1 = (payload (writes.take k)).length

lemma Placed.snoc {writes : List (ℕ × ℕ × Bytes)} (h : Placed writes) (data : Bytes) :
    Placed (writes ++ [(writes.length, (payload writes).length, data)]) := by
  intro k w hw
  rcases Nat.lt_trichotomy k writes.length with hlt | heq | hgt
  · rw [getElem?_append_left hlt] at hw
    rw [take_append_of_le_length hlt.le]
    exact h k w hw
  · subst heq
    rw [getElem?_append_right le_rfl, Nat.sub_self] at hw
    cases hw
    refine ⟨rfl, ?_⟩
    rw [take_left']
    rfl
  · rw [getElem?_eq_none (by simp; omega)] at hw
    cases hw

lemma payload_append (writes more : List (ℕ × ℕ × Bytes)) :
    payload (writes ++ more) = payload writes ++ payload more := by
  unfold payload
  rw [flatMap_append]

section Record

variable (n : ℕ) (log : List Effect)

lemma writesOf_append (more : List Effect) : writesOf n (log ++ more) = writesOf n log ++ writesOf n more := by
  unfold writesOf
  rw [filterMap_append]

lemma publishesOf_append (more : List Effect) :
    publishesOf n (log ++ more) = publishesOf n log ++ publishesOf n more := by
  unfold publishesOf
  rw [filterMap_append]

lemma writesOf_wrote (serial seq offset : ℕ) (data : Bytes) :
    writesOf n (log ++ [.wrote serial seq offset data]) =
      writesOf n log ++ if serial = n then [(seq, offset, data)] else [] := by
  rw [writesOf_append]
  unfold writesOf
  split <;> simp [*]

lemma publishesOf_wrote (serial seq offset : ℕ) (data : Bytes) :
    publishesOf n (log ++ [.wrote serial seq offset data]) = publishesOf n log := by
  rw [publishesOf_append]
  simp [publishesOf]

lemma writesOf_published (serial : ℕ) (target : Site) (bytes : Bytes) :
    writesOf n (log ++ [.published serial target bytes]) = writesOf n log := by
  rw [writesOf_append]
  simp [writesOf]

lemma publishesOf_published (serial : ℕ) (target : Site) (bytes : Bytes) :
    publishesOf n (log ++ [.published serial target bytes]) =
      publishesOf n log ++ if serial = n then [(target, bytes)] else [] := by
  rw [publishesOf_append]
  unfold publishesOf
  split <;> simp [*]

end Record

def Request.transferId : Request → String
  | .begin b => b.transferId
  | .read transferId _ => transferId
  | .write transferId _ _ _ _ => transferId
  | .finish transferId => transferId
  | .abort transferId => transferId

def Daemon.stage (d : Daemon) (destination : Destination) : Daemon :=
  { d with
    entries := d.entries.set destination.temp d.inodes
    content := Function.update d.content d.inodes []
    inodes := d.inodes + 1 }

def Daemon.accept (d : Daemon) (q : Request) (transferId : String) (t : Transfer) (data : Bytes)
    (last : Bool) : Daemon :=
  { d with
    transfers := d.transfers.set transferId
      ({ t with offset := t.offset + data.length, hashed := t.hashed ++ data }.answer q
        (.written t.seq (t.offset + data.length) last))
    content := Function.update d.content t.inode (pwrite (d.content t.inode) t.offset data)
    log := d.log ++ [.wrote t.serial t.seq t.offset data] }

def Daemon.publish (d : Daemon) (t : Transfer) (destination : Destination) : Daemon :=
  { d with
    entries :=
      if destination.exclusive then (d.entries.set destination.target t.inode).erase destination.temp
      else (d.entries.erase destination.temp).set destination.target t.inode
    log := d.log ++ [.published t.serial destination.target (d.content t.inode)] }

inductive Change (P : Platform) (transferId : String) (d : Daemon) : Request → Reply → Daemon → Prop where
  | idle (q : Request) (reply : Reply) (hend : q = .finish transferId → reply = .finished → False) :
      Change P transferId d q reply d
  | beginRead (b : Begin) (inode : ℕ) (hmode : b.mode = .read) (hnone : d.transfers.get? transferId = none)
      (hid : b.transferId = transferId) :
      Change P transferId d (.begin b) (startTransfer b inode none d).1 (startTransfer b inode none d).2
  | beginWrite (b : Begin) (destination : Destination) (hmode : b.mode = .write)
      (hnone : d.transfers.get? transferId = none) (hid : b.transferId = transferId)
      (hfree : d.entries.get? destination.temp = none) :
      Change P transferId d (.begin b) (startTransfer b d.inodes (some destination) (d.stage destination)).1
        (startTransfer b d.inodes (some destination) (d.stage destination)).2
  | read (t : Transfer) (seq : ℕ) (hlive : d.transfers.get? transferId = some t) (hmode : t.mode = .read)
      (hseq : seq = t.seq) :
      Change P transferId d (.read transferId seq) (readTransfer P (.read transferId seq) transferId seq t d).1
        (readTransfer P (.read transferId seq) transferId seq t d).2
  | wrote (t : Transfer) (text : String) (data : Bytes) (last : Bool) (digest : Option String) (q : Request)
      (hq : q = .write transferId t.seq text last digest) (hlive : d.transfers.get? transferId = some t)
      (hmode : t.mode = .write) :
      Change P transferId d q (.written t.seq (t.offset + data.length) last) (d.accept q transferId t data last)
  | dropped (t : Transfer) (q : Request) (reply : Reply) (hq : q = .abort transferId ∨ q = .finish transferId)
      (hlive : d.transfers.get? transferId = some t)
      (hend : q = .finish transferId → reply = .finished → t.destination = none) :
      Change P transferId d q reply (releaseTransfer t false (d.forget transferId))
  | published (t : Transfer) (destination : Destination) (hlive : d.transfers.get? transferId = some t)
      (hdestination : t.destination = some destination)
      (hfree : destination.exclusive = true → d.entries.get? destination.target = none) :
      Change P transferId d (.finish transferId) .finished ((d.forget transferId).publish t destination)

section Cases

variable (P : Platform) (env : Env) (d : Daemon)

end Cases

/-- A staged file: its own name alone leads to it, and it holds the accepted chunks. -/
structure Staged (d : Daemon) (t : Transfer) (destination : Destination) : Prop where
  entry : d.entries.get? destination.temp = some t.inode
  only : ∀ site : Site, d.entries.get? site = some t.inode → site = destination.temp
  fresh : t.inode < d.inodes
  content : d.content t.inode = t.hashed
  offset : t.offset = t.hashed.length
  hashed : t.hashed = payload (writesOf t.serial d.log)
  seq : t.seq = (writesOf t.serial d.log).length

/-- A transfer under way: it was begun, nothing of it is published, and a writing one has its staged file. -/
structure Live (d : Daemon) (t : Transfer) : Prop where
  begun : t.serial < d.begun
  unpublished : publishesOf t.serial d.log = []
  reading : t.mode = .read → t.destination = none
  writing : t.mode = .write → ∃ destination : Destination, t.destination = some destination ∧ Staged d t destination

structure Tracked (transferId : String) (d : Daemon) : Prop where
  bounded : ∀ (site : Site) (inode : ℕ), d.entries.get? site = some inode → inode < d.inodes
  unborn : ∀ n : ℕ, d.begun ≤ n → writesOf n d.log = [] ∧ publishesOf n d.log = []
  placed : ∀ n : ℕ, Placed (writesOf n d.log)
  once : ∀ n : ℕ, publishesOf n d.log = [] ∨
    ∃ target : Site, publishesOf n d.log = [(target, payload (writesOf n d.log))]
  live : ∀ t : Transfer, d.transfers.get? transferId = some t → Live d t

/-- What may happen besides: files come and go and other transfers run, but no one touches this transfer, its staged
name or its staged file. -/
structure Outside (transferId : String) (d d' : Daemon) : Prop where
  transfer : d'.transfers.get? transferId = d.transfers.get? transferId
  staged : ∀ (t : Transfer) (destination : Destination), d.transfers.get? transferId = some t →
    t.destination = some destination →
    d'.entries.get? destination.temp = d.entries.get? destination.temp ∧
    d'.content t.inode = d.content t.inode ∧
    ∀ site : Site, site ≠ destination.temp → d'.entries.get? site = some t.inode → d.entries.get? site = some t.inode
  inodes : d.inodes ≤ d'.inodes
  bounded : ∀ (site : Site) (inode : ℕ), d'.entries.get? site = some inode → inode < d'.inodes
  begun : d'.begun = d.begun
  log : d'.log = d.log

inductive Label where
  | request (env : Env) (q : Request)
  | outside (next : Daemon)

/-- The daemon's step: a request of the transfer, or something besides. -/
inductive Step (P : Platform) (transferId : String) (d : Daemon) : Label → Daemon → Prop where
  | request (env : Env) (q : Request) (hid : q.transferId = transferId) :
      Step P transferId d (.request env q) (stream P env q d).2
  | outside (d' : Daemon) (houtside : Outside transferId d d') : Step P transferId d (.outside d') d'

/-- At the start no transfer runs and nothing is recorded; the files are any. -/
structure Fresh (d : Daemon) : Prop where
  transfers : d.transfers = Dict.empty
  bounded : ∀ (site : Site) (inode : ℕ), d.entries.get? site = some inode → inode < d.inodes
  log : d.log = []

section Keep

variable {P : Platform} {transferId : String} {d d' : Daemon} {q : Request} {reply : Reply}

lemma Tracked.outside (h : Tracked transferId d) (hout : Outside transferId d d') : Tracked transferId d' := by
  refine ⟨hout.bounded, ?_, ?_, ?_, ?_⟩
  · rw [hout.begun, hout.log]
    exact h.unborn
  · rw [hout.log]
    exact h.placed
  · rw [hout.log]
    exact h.once
  · intro t ht
    rw [hout.transfer] at ht
    obtain ⟨hbegun, hunpublished, hreading, hwriting⟩ := h.live t ht
    rw [← hout.begun] at hbegun
    rw [← hout.log] at hunpublished
    refine ⟨hbegun, hunpublished, hreading, ?_⟩
    intro hmode
    obtain ⟨destination, hdestination, hstaged⟩ := hwriting hmode
    obtain ⟨hentry, hcontent, hnames⟩ := hout.staged t destination ht hdestination
    refine ⟨destination, hdestination, ?_, ?_, ?_, ?_, hstaged.offset, ?_, ?_⟩
    · rw [hentry]
      exact hstaged.entry
    · intro site hsite
      by_contra hne
      exact hne (hstaged.only site (hnames site hne hsite))
    · have hfresh := hstaged.fresh
      have hinodes := hout.inodes
      omega
    · rw [hcontent]
      exact hstaged.content
    · rw [hout.log]
      exact hstaged.hashed
    · rw [hout.log]
      exact hstaged.seq

variable {b : Begin} {t : Transfer}

lemma Tracked.beginRead (h : Tracked transferId d) (hmode : b.mode = .read) (hid : b.transferId = transferId)
    (inode : ℕ) : Tracked transferId (startTransfer b inode none d).2 := by
  refine ⟨h.bounded, ?_, h.placed, h.once, ?_⟩
  · intro n hn
    simp only [startTransfer] at hn ⊢
    exact h.unborn n (by omega)
  · intro t ht
    simp only [startTransfer, hid, Dict.get?_set_self] at ht
    cases ht
    refine ⟨?_, ?_, fun _ => rfl, ?_⟩
    · simp only [startTransfer]
      omega
    · exact (h.unborn d.begun le_rfl).2
    · intro hwrite
      rw [hmode] at hwrite
      cases hwrite

lemma Tracked.beginWrite (h : Tracked transferId d) (hmode : b.mode = .write) (hid : b.transferId = transferId)
    (destination : Destination) :
    Tracked transferId (startTransfer b d.inodes (some destination) (d.stage destination)).2 := by
  refine ⟨?_, ?_, h.placed, h.once, ?_⟩
  · intro site inode hsite
    simp only [startTransfer, Daemon.stage, Dict.get?_set] at hsite ⊢
    split at hsite
    · cases hsite
      omega
    · have hold := h.bounded site inode hsite
      omega
  · intro n hn
    simp only [startTransfer, Daemon.stage] at hn ⊢
    exact h.unborn n (by omega)
  · intro t ht
    simp only [startTransfer, hid, Dict.get?_set_self] at ht
    cases ht
    obtain ⟨hwrites, hpublishes⟩ := h.unborn d.begun le_rfl
    refine ⟨?_, hpublishes, ?_, ?_⟩
    · simp only [startTransfer, Daemon.stage]
      omega
    · intro hread
      rw [hmode] at hread
      cases hread
    · intro _
      refine ⟨destination, rfl, ?_, ?_, ?_, ?_, ?_, ?_, ?_⟩
      · simp [startTransfer, Daemon.stage]
      · intro site hsite
        simp only [startTransfer, Daemon.stage, Dict.get?_set] at hsite
        split at hsite
        · assumption
        · have hold := h.bounded site _ hsite
          omega
      · simp only [startTransfer, Daemon.stage]
        omega
      · simp [startTransfer, Daemon.stage]
      · simp [hmode]
      · simp only [startTransfer, Daemon.stage, hwrites]
        rfl
      · simp only [startTransfer, Daemon.stage, hwrites]
        rfl

lemma Tracked.read (h : Tracked transferId d) (hlive : d.transfers.get? transferId = some t)
    (hmode : t.mode = .read) (seq : ℕ) : Tracked transferId (readTransfer P q transferId seq t d).2 := by
  refine ⟨h.bounded, h.unborn, h.placed, h.once, ?_⟩
  intro t' ht'
  obtain ⟨hbegun, hunpublished, hreading, -⟩ := h.live t hlive
  simp only [readTransfer, Dict.get?_set_self] at ht'
  cases ht'
  refine ⟨hbegun, hunpublished, hreading, ?_⟩
  intro hwrite
  simp only [Transfer.answer, hmode] at hwrite
  cases hwrite

theorem pwrite_length (content data : Bytes) : pwrite content content.length data = content ++ data := by
  unfold pwrite
  simp

lemma Tracked.accept (h : Tracked transferId d) (hlive : d.transfers.get? transferId = some t)
    (hmode : t.mode = .write) (data : Bytes) (last : Bool) :
    Tracked transferId (d.accept q transferId t data last) := by
  obtain ⟨hbegun, hunpublished, -, hwriting⟩ := h.live t hlive
  obtain ⟨destination, hdestination, hstaged⟩ := hwriting hmode
  have hhere : writesOf t.serial (d.accept q transferId t data last).log =
      writesOf t.serial d.log ++ [(t.seq, t.offset, data)] := by
    simp only [Daemon.accept]
    rw [writesOf_wrote, if_pos rfl]
  have hplace : t.offset = (payload (writesOf t.serial d.log)).length := by rw [hstaged.offset, hstaged.hashed]
  have hothers : ∀ n, t.serial ≠ n → writesOf n (d.accept q transferId t data last).log = writesOf n d.log := by
    intro n hne
    simp only [Daemon.accept]
    rw [writesOf_wrote, if_neg hne, append_nil]
  have hpublishes : ∀ n, publishesOf n (d.accept q transferId t data last).log = publishesOf n d.log := by
    intro n
    simp only [Daemon.accept]
    rw [publishesOf_wrote]
  refine ⟨h.bounded, ?_, ?_, ?_, ?_⟩
  · intro n hn
    have hn' : d.begun ≤ n := hn
    rw [hothers n (by omega), hpublishes]
    exact h.unborn n hn'
  · intro n
    by_cases hn : t.serial = n
    · subst hn
      rw [hhere, hplace, hstaged.seq]
      exact (h.placed t.serial).snoc data
    · rw [hothers n hn]
      exact h.placed n
  · intro n
    rw [hpublishes]
    by_cases hn : t.serial = n
    · subst hn
      exact .inl hunpublished
    · rw [hothers n hn]
      exact h.once n
  · intro t' ht'
    simp only [Daemon.accept, Dict.get?_set_self] at ht'
    cases ht'
    refine ⟨hbegun, ?_, ?_, ?_⟩
    · simp only [Transfer.answer]
      rw [hpublishes]
      exact hunpublished
    · intro hread
      simp only [Transfer.answer, hmode] at hread
      cases hread
    · intro _
      refine ⟨destination, hdestination, hstaged.entry, hstaged.only, hstaged.fresh, ?_, ?_, ?_, ?_⟩
      · simp only [Daemon.accept, Transfer.answer, Function.update_self]
        rw [hstaged.content, hstaged.offset, pwrite_length]
      · simp only [Transfer.answer, length_append]
        rw [hstaged.offset]
      · simp only [Transfer.answer]
        rw [hhere, payload_append, ← hstaged.hashed]
        simp [payload]
      · simp only [Transfer.answer]
        rw [hhere, length_append, ← hstaged.seq]
        rfl

theorem Tracked.forget (h : Tracked transferId d) : Tracked transferId (d.forget transferId) := by
  refine ⟨h.bounded, h.unborn, h.placed, h.once, ?_⟩
  intro t ht
  simp only [Daemon.forget, Dict.get?_erase, if_true] at ht
  cases ht

lemma Tracked.release (h : Tracked transferId d) (hgone : d.transfers.get? transferId = none) (t : Transfer) :
    Tracked transferId (releaseTransfer t false d) := by
  unfold releaseTransfer
  split
  · exact h
  · refine ⟨?_, h.unborn, h.placed, h.once, ?_⟩
    · intro site inode hsite
      simp only [Bool.false_eq_true, if_false, Dict.get?_erase] at hsite
      split at hsite
      · cases hsite
      · exact h.bounded site inode hsite
    · intro t' ht'
      simp only [Bool.false_eq_true, if_false] at ht'
      rw [hgone] at ht'
      cases ht'

lemma publish_get? (t : Transfer) (destination : Destination) (site : Site) (inode : ℕ)
    (h : (d.publish t destination).entries.get? site = some inode) :
    inode = t.inode ∨ d.entries.get? site = some inode := by
  simp only [Daemon.publish] at h
  split at h
  · rw [Dict.get?_erase] at h
    split at h
    · cases h
    · rw [Dict.get?_set] at h
      split at h
      · exact .inl (Option.some.inj h).symm
      · exact .inr h
  · rw [Dict.get?_set] at h
    split at h
    · exact .inl (Option.some.inj h).symm
    · rw [Dict.get?_erase] at h
      split at h
      · cases h
      · exact .inr h

lemma Tracked.publish (h : Tracked transferId d) (hlive : d.transfers.get? transferId = some t)
    {destination : Destination} (hdestination : t.destination = some destination) :
    Tracked transferId ((d.forget transferId).publish t destination) := by
  obtain ⟨hbegun, hunpublished, hreading, hwriting⟩ := h.live t hlive
  have hmode : t.mode = .write := by
    cases hmode : t.mode with
    | write => rfl
    | read =>
      rw [hreading hmode] at hdestination
      cases hdestination
  obtain ⟨destination', -, hstaged⟩ := hwriting hmode
  have hwrites : ∀ n, writesOf n ((d.forget transferId).publish t destination).log = writesOf n d.log := by
    intro n
    simp only [Daemon.publish, Daemon.forget]
    rw [writesOf_published]
  have hpublishes : ∀ n, publishesOf n ((d.forget transferId).publish t destination).log =
      publishesOf n d.log ++ if t.serial = n then [(destination.target, d.content t.inode)] else [] := by
    intro n
    simp only [Daemon.publish, Daemon.forget]
    rw [publishesOf_published]
  refine ⟨?_, ?_, ?_, ?_, ?_⟩
  · intro site inode hsite
    rcases publish_get? t destination site inode hsite with rfl | hold
    · exact hstaged.fresh
    · exact h.bounded site inode hold
  · intro n hn
    have hn' : d.begun ≤ n := hn
    rw [hwrites, hpublishes, if_neg (by omega), append_nil]
    exact h.unborn n hn'
  · intro n
    rw [hwrites]
    exact h.placed n
  · intro n
    rw [hpublishes, hwrites]
    by_cases hn : t.serial = n
    · subst hn
      refine .inr ⟨destination.target, ?_⟩
      rw [hunpublished, if_pos rfl, hstaged.content, hstaged.hashed, nil_append]
    · rw [if_neg hn, append_nil]
      exact h.once n
  · intro t' ht'
    simp only [Daemon.publish, Daemon.forget, Dict.get?_erase, if_true] at ht'
    cases ht'

lemma Tracked.change (h : Tracked transferId d) (hchange : Change P transferId d q reply d') :
    Tracked transferId d' := by
  cases hchange with
  | idle => exact h
  | beginRead b inode hmode _ hid => exact h.beginRead hmode hid inode
  | beginWrite b destination hmode _ hid _ => exact h.beginWrite hmode hid destination
  | read t seq hlive hmode _ => exact h.read hlive hmode seq
  | wrote t _ data last _ _ _ hlive hmode => exact h.accept hlive hmode data last
  | dropped t _ _ _ _ _ =>
    apply h.forget.release
    simp [Daemon.forget, Dict.get?_erase]
  | published t destination hlive hdestination _ => exact h.publish hlive hdestination

end Keep

section Again

variable (P : Platform) (env : Env) (d : Daemon)

/-- The answer to an accepted chunk is kept beside the sequence number after it. -/
def Answered (transferId : String) (q : Request) (seq : ℕ) (result : Reply × Daemon) : Prop :=
  ∃ t : Transfer, result.2.transfers.get? transferId = some t ∧ t.last = some (q, result.1) ∧ t.seq = seq + 1

variable {transferId : String}

end Again

def Daemon.stagedName (d : Daemon) (transferId : String) : Option Site :=
  (d.transfers.get? transferId).bind fun t => t.destination.map Destination.temp

section Files

variable {P : Platform} {transferId : String} {d d' : Daemon} {q : Request} {reply : Reply} {t : Transfer}
  {destination : Destination}

lemma stagedName_of_live (hlive : d.transfers.get? transferId = some t) (hdestination : t.destination = some destination) :
    d.stagedName transferId = some destination.temp := by
  rw [Daemon.stagedName, hlive, Option.bind_some, hdestination]
  rfl

lemma Tracked.staged (h : Tracked transferId d) (hlive : d.transfers.get? transferId = some t)
    (hdestination : t.destination = some destination) : Staged d t destination := by
  obtain ⟨-, -, hreading, hwriting⟩ := h.live t hlive
  cases hmode : t.mode with
  | read =>
    rw [hreading hmode] at hdestination
    cases hdestination
  | write =>
    obtain ⟨destination', hdestination', hstaged⟩ := hwriting hmode
    rw [hdestination] at hdestination'
    cases hdestination'
    exact hstaged

lemma file_congr (site : Site) (hentry : d'.entries.get? site = d.entries.get? site)
    (hcontent : ∀ inode, d.entries.get? site = some inode → d'.content inode = d.content inode) :
    d'.file site = d.file site := by
  unfold Daemon.file
  rw [hentry]
  cases hsite : d.entries.get? site with
  | none => rfl
  | some inode => rw [Option.map_some, Option.map_some, hcontent inode hsite]

theorem Change.file (h : Tracked transferId d) (hchange : Change P transferId d q reply d') (site : Site)
    (hbefore : d.stagedName transferId ≠ some site) (hafter : d'.stagedName transferId ≠ some site)
    (htarget : q = .finish transferId → reply = .finished → ∀ (t : Transfer) (destination : Destination),
      d.transfers.get? transferId = some t → t.destination = some destination → site ≠ destination.target) :
    d'.file site = d.file site := by
  cases hchange with
  | idle | beginRead | read => rfl
  | beginWrite b destination hmode _ hid _ =>
    have hne : site ≠ destination.temp := by
      rintro rfl
      apply hafter
      simp [Daemon.stagedName, startTransfer, hid]
    apply file_congr
    · simp [startTransfer, Daemon.stage, Dict.get?_set, hne]
    · intro inode hinode
      have hold := h.bounded site inode hinode
      have hother : inode ≠ d.inodes := by omega
      simp [startTransfer, Daemon.stage, Function.update_of_ne hother]
  | wrote t _ data last _ _ _ hlive hmode =>
    obtain ⟨destination, hdestination, hstaged⟩ := (h.live t hlive).writing hmode
    apply file_congr
    · rfl
    · intro inode hinode
      simp only [Daemon.accept]
      apply Function.update_of_ne
      rintro rfl
      apply hbefore
      rw [stagedName_of_live hlive hdestination, hstaged.only site hinode]
  | dropped t _ _ _ hlive _ =>
    unfold releaseTransfer
    cases hdestination : t.destination with
    | none => rfl
    | some destination =>
      have hne : site ≠ destination.temp := by
        rintro rfl
        exact hbefore (stagedName_of_live hlive hdestination)
      apply file_congr
      · simp [Daemon.forget, Dict.get?_erase, hne]
      · intro inode _
        rfl
  | published t destination hlive hdestination _ =>
    have hne : site ≠ destination.temp := by
      rintro rfl
      exact hbefore (stagedName_of_live hlive hdestination)
    have hnot := htarget rfl rfl t destination hlive hdestination
    apply file_congr
    · simp only [Daemon.publish, Daemon.forget]
      split <;> simp [Dict.get?_set, Dict.get?_erase, hne, hnot]
    · intro inode _
      rfl

end Files

end Bulk
end OpenOmni
