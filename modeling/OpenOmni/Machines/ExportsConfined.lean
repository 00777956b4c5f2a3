import Mathlib
import OpenOmni.Machines.WalkConfined
import OpenOmni.Machines.TransferFiles

/-! Everything the requests on an export open, make, rename onto, link or remove lies below its root, and every
descriptor they open on the way is closed once. -/
namespace OpenOmni
namespace Exports
open List

open Posix PosixPath

def Staged.held (transfer : Staged) : Finset ℕ :=
  insert transfer.fd (transfer.destination.elim ∅ fun destination => {destination.dirfd})

def heldByTransfer : Except Refusal Staged → Finset ℕ
  | .ok transfer => transfer.held
  | .error _ => ∅

/-- The two descriptors are two, and both entries are named in the pinned directory itself. -/
def Staged.Sound (transfer : Staged) : Prop :=
  ∀ destination : Destination, transfer.destination = some destination →
    destination.dirfd ≠ transfer.fd ∧ IsName destination.targetName ∧ IsName destination.tempName

def Pinned {ν : Type*} (roots : Dict String Root) (w : World ν) (rootOf : String → ν) : Prop :=
  ∀ (name : String) (root : Root), roots.get? name = some root →
    w.table.get? root.fd = some (.node (rootOf name))

/-- Between two worlds: all in the subtree, a bounded number of links expanded, the held descriptors accounted for. -/
def Confined {ν : Type*} (S : System ν) (r : ν) (w w' : World ν) (before after : Finset ℕ) : Prop :=
  ∃ n ≤ MAX_SYMLINK_EXPANSIONS, Record S r w w' before after n

section Opening

variable {ν : Type*} {S : System ν} {r : ν} {w₀ w : World ν} {held : Finset ℕ} {n : ℕ}

lemma tempName_isName (sha256 : Digest) (transferId : String) : IsName (tempName sha256 transferId) := by
  have hchars : ∀ c ∈ (tempName sha256 transferId).toList,
      c ∈ ".oni-transfer-".toList ∨ c ∈ "0123456789abcdef".toList := by
    intro c hc
    unfold tempName at hc
    rw [String.toList_append] at hc
    rcases mem_append.mp hc with hc | hc
    · exact .inl hc
    · rw [String.toList_ofList] at hc
      exact .inr (sha256.digits transferId c (mem_of_mem_take hc))
  have hlength : ∀ s : String, s.toList.length < 3 → tempName sha256 transferId ≠ s := by
    rintro s hs rfl
    unfold tempName at hs
    rw [String.toList_append, length_append] at hs
    have hfixed : ".oni-transfer-".toList.length = 14 := by decide
    omega
  refine ⟨hlength "" (by decide), hlength "." (by decide), hlength ".." (by decide), ?_, ?_⟩
  · intro hc
    rcases hchars _ hc with hc | hc
    · exact absurd hc (by decide)
    · exact absurd hc (by decide)
  · intro hc
    rcases hchars _ hc with hc | hc
    · exact absurd hc (by decide)
    · exact absurd hc (by decide)

theorem checkWriteTarget_stretch (h : Stretch S r w₀ w held n) {dirfd : ℕ} {targetName : String} (exclusive : Bool)
    (hdirfd : ∀ place, w.table.get? dirfd = some place → place.Within S r) (hname : IsName targetName) :
    Stretch S r w₀ (checkWriteTarget S dirfd targetName exclusive w).2 held n := by
  unfold checkWriteTarget
  split
  · rename_i fd w₁ hopen
    obtain ⟨hopened, hfree⟩ := h.openat_ok hdirfd (.inl ⟨hname, .inl rfl⟩) hopen
    have hclose := hopened.close (Finset.mem_insert_self fd held)
    rwa [Finset.erase_insert hfree] at hclose
  · rename_i errno w₁ hopen
    have hread := readLinkAt_world (S := S) w₁ dirfd targetName
    have hafter := (h.openat_error hopen).called
    rw [← hread] at hafter
    split
    · rename_i heq
      rwa [heq] at hafter
    · rename_i heq
      rwa [heq] at hafter

theorem stageTarget_stretch (sha256 : Digest) {parent : OpenedTarget} (h : Stretch S r w₀ w {parent.fd} n)
    {targetName : String} (hname : IsName targetName) (transferId : String) (exclusive : Bool) :
    Stretch S r w₀ (stageTarget S sha256 parent targetName transferId exclusive w).2
        (heldByTransfer (stageTarget S sha256 parent targetName transferId exclusive w).1) n ∧
      ∀ transfer, (stageTarget S sha256 parent targetName transferId exclusive w).1 = .ok transfer → transfer.Sound := by
  have hparent : ∀ {w₁ : World ν}, Stretch S r w₀ w₁ {parent.fd} n →
      ∀ place, w₁.table.get? parent.fd = some place → place.Within S r := by
    intro w₁ h₁ place hplace
    obtain ⟨other, hother, hwithin⟩ := h₁.live parent.fd (Finset.mem_singleton_self _)
    rw [hplace] at hother
    cases hother
    exact hwithin
  have hcheck := checkWriteTarget_stretch h exclusive (hparent h) hname
  unfold stageTarget
  split
  · rename_i refusal w₁ heq
    rw [heq] at hcheck
    refine ⟨Stretch.close_last hcheck, ?_⟩
    intro transfer hok
    cases hok
  · rename_i w₁ heq
    rw [heq] at hcheck
    simp only at hcheck ⊢
    split
    · rename_i errno w₂ hopen
      refine ⟨(hcheck.openat_error hopen).close_last, ?_⟩
      intro transfer hok
      cases hok
    · rename_i fd w₂ hopen
      have htemp := tempName_isName sha256 transferId
      obtain ⟨hopened, hfree⟩ := hcheck.openat_ok (hparent hcheck) (.inl ⟨htemp, .inr (.inr rfl)⟩) hopen
      refine ⟨hopened, ?_⟩
      intro transfer hok
      cases hok
      intro destination hdestination
      cases hdestination
      refine ⟨?_, hname, htemp⟩
      intro hsame
      exact hfree (Finset.mem_singleton.mpr hsame.symm)

variable {root : Root} {segments : List String}

lemma openWriteTemp_stretch (sha256 : Digest) (hsegments : ∀ x ∈ segments, IsName x)
    (hroot : w.table.get? root.fd = some (.node r)) (transferId : String) (exclusive : Bool) :
    ∃ n ≤ MAX_SYMLINK_EXPANSIONS,
      Stretch S r w (openWriteTemp S sha256 root segments transferId exclusive w).2
        (heldByTransfer (openWriteTemp S sha256 root segments transferId exclusive w).1) n ∧
      ∀ transfer, (openWriteTemp S sha256 root segments transferId exclusive w).1 = .ok transfer → transfer.Sound := by
  unfold openWriteTemp
  split
  · refine ⟨0, Nat.zero_le _, Stretch.refl w, ?_⟩
    intro transfer hok
    cases hok
  · rename_i targetName hlast
    have hname : IsName targetName := hsegments _ (mem_of_getLast? hlast)
    have hparents : ∀ x ∈ segments.dropLast, IsName x := fun x hx => hsegments x (dropLast_subset _ hx)
    simp only
    obtain ⟨n, hn, hwalk⟩ := walk_stretch S hparents
      { finalDirectory := true, preserveFinalSymlink := false, shown := join segments, targetFlags := {},
        followLinks := !exclusive } hroot
    split
    · rename_i refusal w₁ heq
      rw [heq] at hwalk
      refine ⟨n, hn, hwalk, ?_⟩
      intro transfer hok
      cases hok
    · rename_i parent w₁ heq
      rw [heq] at hwalk
      obtain ⟨hstage, hsound⟩ := stageTarget_stretch sha256 hwalk hname transferId exclusive
      exact ⟨n, hn, hstage, hsound⟩

lemma openReadTarget_stretch (hsegments : ∀ x ∈ segments, IsName x)
    (hroot : w.table.get? root.fd = some (.node r)) (shown : String) :
    ∃ n ≤ MAX_SYMLINK_EXPANSIONS,
      Stretch S r w (openReadTarget S root segments shown w).2
        (heldByTransfer (openReadTarget S root segments shown w).1) n ∧
      ∀ transfer, (openReadTarget S root segments shown w).1 = .ok transfer → transfer.Sound := by
  unfold openReadTarget
  simp only
  obtain ⟨n, hn, hwalk⟩ := walk_stretch S hsegments
    { finalDirectory := false, preserveFinalSymlink := false, shown := shown, targetFlags := openFlags .read } hroot
  refine ⟨n, hn, ?_⟩
  split
  · rename_i refusal w₁ heq
    rw [heq] at hwalk
    refine ⟨hwalk, ?_⟩
    intro transfer hok
    cases hok
  · rename_i target w₁ heq
    rw [heq] at hwalk
    split
    · refine ⟨hwalk, ?_⟩
      intro transfer hok
      cases hok
      intro destination hdestination
      cases hdestination
    · refine ⟨Stretch.close_last hwalk, ?_⟩
      intro transfer hok
      cases hok

variable {roots : Dict String Root} {rootOf : String → ν}

lemma openTransfer_stretch (sha256 : Digest) (hpinned : Pinned roots w rootOf) (request : Begin) :
    ∃ n ≤ MAX_SYMLINK_EXPANSIONS,
      Stretch S (rootOf request.export) w (openTransfer S sha256 roots request w).2
        (heldByTransfer (openTransfer S sha256 roots request w).1) n ∧
      ∀ transfer, (openTransfer S sha256 roots request w).1 = .ok transfer → transfer.Sound := by
  have hnothing : ∀ refusal : Refusal, ∃ n ≤ MAX_SYMLINK_EXPANSIONS,
      Stretch S (rootOf request.export) w w (heldByTransfer (.error refusal)) n ∧
        ∀ transfer, (Except.error refusal : Except Refusal Staged) = .ok transfer → transfer.Sound := by
    intro refusal
    refine ⟨0, Nat.zero_le _, Stretch.refl w, ?_⟩
    intro transfer hok
    cases hok
  unfold openTransfer
  split
  · exact hnothing _
  · rename_i root hroot
    have hfd := hpinned _ root hroot
    split
    · exact hnothing _
    · rename_i segments hsegments
      have hnames := requestSegments_names hsegments
      split
      · exact openWriteTemp_stretch sha256 hnames hfd _ _
      · exact openReadTarget_stretch hnames hfd _

lemma executeRequest_confined (hpinned : Pinned roots w rootOf) (request : FsRequest) :
    Confined S (rootOf request.export) w (executeRequest S roots request w).2 ∅ ∅ := by
  unfold executeRequest
  split
  · exact ⟨0, Nat.zero_le _, Record.refl w ∅⟩
  · rename_i root hroot
    simp only
    split
    · exact ⟨0, Nat.zero_le _, Record.refl w ∅⟩
    · rename_i segments hsegments
      split
      · exact ⟨0, Nat.zero_le _, Record.refl w ∅⟩
      obtain ⟨n, hn, hwalk⟩ := walk_stretch S (requestSegments_names hsegments)
        { finalDirectory := request.op.isList, preserveFinalSymlink := request.op.isStat,
          shown := displayPath request.path, targetFlags := openFlags request.op,
          followLinks := !request.op.isExclusive } (hpinned _ root hroot)
      refine ⟨n, hn, ?_⟩
      split
      · rename_i refusal w₁ heq
        rw [heq] at hwalk
        exact hwalk.record
      · rename_i target w₁ heq
        rw [heq] at hwalk
        exact (Stretch.close_last hwalk).record

end Opening

section Ending

variable {ν : Type*} {S : System ν} {r : ν} {w₀ w : World ν} {before : Finset ℕ} {n : ℕ} {transfer : Staged}

/-- The transfer's descriptors are open on places of the subtree. -/
def Kept (S : System ν) (r : ν) (w : World ν) (transfer : Staged) : Prop :=
  ∀ fd ∈ transfer.held, ∀ place : Place ν, w.table.get? fd = some place → place.Within S r

lemma Kept.of_table (h : Kept S r w₀ transfer) (htable : w.table = w₀.table) : Kept S r w transfer := by
  intro fd hfd place hplace
  rw [htable] at hplace
  exact h fd hfd place hplace

section
variable (h : Record S r w₀ w before transfer.held n) (hsound : transfer.Sound) (hkept : Kept S r w transfer)
  (published : Bool)
include h hsound hkept published

lemma releaseTransfer_record : Record S r w₀ (releaseTransfer S transfer published w).2 before ∅ n := by
  have hclosed := h.close (Finset.mem_insert_self transfer.fd _)
  unfold releaseTransfer
  simp only
  cases hdestination : transfer.destination with
  | none =>
    have hnothing : transfer.held.erase transfer.fd = ∅ := by
      rw [Staged.held, hdestination, Option.elim_none, Finset.erase_insert (Finset.notMem_empty _)]
    rw [hnothing] at hclosed
    exact hclosed
  | some destination =>
    obtain ⟨hne, -, htemp⟩ := hsound destination hdestination
    have hleft : transfer.held.erase transfer.fd = {destination.dirfd} := by
      rw [Staged.held, hdestination, Option.elim_some, Finset.erase_insert]
      exact fun hmem => hne (Finset.mem_singleton.mp hmem).symm
    have hpinned : ∀ place, (w.close transfer.fd).table.get? destination.dirfd = some place → place.Within S r := by
      intro place hplace
      simp only [World.close, Dict.get?_erase, if_neg hne] at hplace
      refine hkept destination.dirfd ?_ place hplace
      rw [Staged.held, hdestination]
      simp
    rw [hleft] at hclosed
    have hgone : ∀ {w₁ : World ν}, Record S r w₀ w₁ before {destination.dirfd} n →
        Record S r w₀ (w₁.close destination.dirfd) before ∅ n := by
      intro w₁ h₁
      have hclose := h₁.close (Finset.mem_singleton_self destination.dirfd)
      rwa [Finset.erase_singleton] at hclose
    dsimp only
    split
    · exact hgone hclosed
    · have hremoved : Record S r w₀
          ((w.close transfer.fd).unlinkat S destination.dirfd destination.tempName).2 before {destination.dirfd} n :=
        hclosed.change hpinned (fun _ hdir => ⟨hdir, htemp⟩) (fun _ => rfl) fun _ => rfl
      split
      · rename_i heq
        rw [heq] at hremoved
        exact hgone hremoved
      · rename_i heq
        rw [heq] at hremoved
        exact hgone hremoved

lemma releaseAfter_record (result : Finish) :
    Record S r w₀ (releaseAfter S transfer published result w).2 before ∅ n := by
  have hrelease := releaseTransfer_record h hsound hkept published
  unfold releaseAfter
  split
  · rename_i heq
    rwa [heq] at hrelease
  · rename_i heq
    rwa [heq] at hrelease

end

lemma publishTransfer_record {destination : Destination} (h : Record S r w₀ w before transfer.held n)
    (hsound : transfer.Sound) (hkept : Kept S r w transfer) (hdestination : transfer.destination = some destination) :
    Record S r w₀ (publishTransfer S destination w).2 before transfer.held n ∧
      (publishTransfer S destination w).2.table = w.table := by
  obtain ⟨-, htarget, htemp⟩ := hsound destination hdestination
  have hpinned : ∀ place, w.table.get? destination.dirfd = some place → place.Within S r := by
    refine hkept destination.dirfd ?_
    rw [Staged.held, hdestination]
    simp
  have hlinked : Record S r w₀ (w.linkat S destination.dirfd destination.tempName destination.targetName).2 before
      transfer.held n := h.change hpinned (fun _ hdir => ⟨hdir, htemp, htarget⟩) (fun _ => rfl) fun _ => rfl
  have hrenamed : Record S r w₀ (w.renameat S destination.dirfd destination.tempName destination.targetName).2 before
      transfer.held n := h.change hpinned (fun _ hdir => ⟨hdir, htemp, htarget⟩) (fun _ => rfl) fun _ => rfl
  have hlinkedTable : (w.linkat S destination.dirfd destination.tempName destination.targetName).2.table = w.table :=
    change_table w _ _
  have hrenamedTable : (w.renameat S destination.dirfd destination.tempName destination.targetName).2.table = w.table :=
    change_table w _ _
  unfold publishTransfer
  cases hexclusive : destination.exclusive with
  | true =>
    simp only [if_true]
    split
    · rename_i heq
      rw [heq] at hlinked hlinkedTable
      exact ⟨hlinked, hlinkedTable⟩
    · rename_i heq
      rw [heq] at hlinked hlinkedTable
      exact ⟨hlinked, hlinkedTable⟩
  | false =>
    simp only [Bool.false_eq_true, if_false]
    split
    · rename_i heq
      rw [heq] at hrenamed hrenamedTable
      exact ⟨hrenamed, hrenamedTable⟩
    · rename_i heq
      rw [heq] at hrenamed hrenamedTable
      exact ⟨hrenamed, hrenamedTable⟩

lemma finishTransfer_record (h : Record S r w₀ w before transfer.held n) (hsound : transfer.Sound)
    (hkept : Kept S r w transfer) : Record S r w₀ (finishTransfer S transfer w).2 before ∅ n := by
  unfold finishTransfer
  split
  · exact releaseAfter_record h hsound hkept _ _
  · rename_i destination hdestination
    have hsync := fsync_world (S := S) w
    have hcalled : Record S r w₀ w.called before transfer.held n := h.congr rfl
    have hkept' : Kept S r w.called transfer := hkept.of_table rfl
    split
    · rename_i heq
      rw [heq] at hsync
      simp only at hsync
      subst hsync
      exact releaseAfter_record hcalled hsound hkept' _ _
    · rename_i heq
      rw [heq] at hsync
      simp only at hsync
      subst hsync
      obtain ⟨hpublish, htable⟩ := publishTransfer_record hcalled hsound hkept' hdestination
      split
      · rename_i hrefused
        rw [hrefused] at hpublish htable
        exact releaseAfter_record hpublish hsound (hkept'.of_table htable) _ _
      · rename_i hpublished
        rw [hpublished] at hpublish htable
        exact releaseAfter_record hpublish hsound (hkept'.of_table htable) _ _

end Ending

/-- Over any tree, whatever its links say and whichever calls the kernel refuses: a plain request, and the opening of
a transfer, open, make, rename onto and remove only below the root of their export, expand at most the fixed number of
links, and close every descriptor they opened once, but for those an opened transfer keeps; and from whatever later
world the transfer is finished or released in, those are closed once as well, below the same root. -/
theorem exports_confined {ν : Type*} (S : System ν) (sha256 : Digest) (roots : Dict String Root)
    (rootOf : String → ν) (w : World ν) (hpinned : Pinned roots w rootOf) :
    (∀ request : FsRequest,
      Confined S (rootOf request.export) w (executeRequest S roots request w).2 ∅ ∅) ∧
    ∀ request : Begin,
      Confined S (rootOf request.export) w (openTransfer S sha256 roots request w).2 ∅
        (heldByTransfer (openTransfer S sha256 roots request w).1) ∧
      ∀ transfer : Staged, (openTransfer S sha256 roots request w).1 = .ok transfer → ∀ later : World ν,
        (∀ fd ∈ transfer.held, later.table.get? fd = (openTransfer S sha256 roots request w).2.table.get? fd) →
        Confined S (rootOf request.export) later (finishTransfer S transfer later).2 transfer.held ∅ ∧
        Confined S (rootOf request.export) later (releaseTransfer S transfer false later).2 transfer.held ∅ := by
  refine ⟨executeRequest_confined hpinned, ?_⟩
  intro request
  obtain ⟨n, hn, hopened, hsound⟩ := openTransfer_stretch (S := S) sha256 hpinned request
  refine ⟨⟨n, hn, hopened.record⟩, ?_⟩
  intro transfer hok later hlater
  have hkept : Kept S (rootOf request.export) later transfer := by
    intro fd hfd place hplace
    rw [hok] at hopened
    obtain ⟨other, hother, hwithin⟩ := hopened.live fd hfd
    rw [hlater fd hfd, hother] at hplace
    cases hplace
    exact hwithin
  have hstart : Record S (rootOf request.export) later later transfer.held transfer.held 0 :=
    Record.refl later transfer.held
  exact ⟨⟨0, Nat.zero_le _, finishTransfer_record hstart (hsound transfer hok) hkept⟩,
    ⟨0, Nat.zero_le _, releaseTransfer_record hstart (hsound transfer hok) hkept false⟩⟩

/-- A directory with a link that climbs out of it, one that leads to itself and one that names the export by its
canonical path. -/
def sampleTree : System ℕ where
  kind n :=
    match n with
    | 0 | 1 => .dir
    | 2 => .symlink 6 "../etc"
    | 3 => .symlink 4 "loop"
    | 4 => .symlink 20 "/srv/docs/inner/note"
    | _ => .file
  entry n name :=
    match n, name with
    | 0, "inner" => some 1
    | 0, "up" => some 2
    | 0, "loop" => some 3
    | 0, "absolute" => some 4
    | 1, "note" => some 5
    | _, _ => none
  parent _ := 9
  beyond _ _ := some 9
  follow _ := some 9
  fault _ := none
  fresh fds := fds.sum + 1
  fresh_notMem fds hmem := by
    have hle := single_le_sum (fun _ _ => Nat.zero_le _) _ hmem
    omega
  target_null n bytes target h := by
    split at h <;> cases h
    all_goals decide

def sampleRoots : Dict String Root := Dict.empty.set "docs" ⟨["srv", "docs"], by decide, 3⟩

def sampleWorld : World ℕ := { table := Dict.empty.set 3 (.node 0) }

theorem exports_confined_climbing :
    Confined sampleTree 0 sampleWorld
      (executeRequest sampleTree sampleRoots ⟨.write 12 false, "docs", "absolute"⟩ sampleWorld).2 ∅ ∅ := by
  have hpinned : Pinned sampleRoots sampleWorld fun _ => 0 := by
    intro name root hroot
    unfold sampleRoots at hroot
    rw [Dict.get?_set] at hroot
    split at hroot
    · cases hroot
      rfl
    · cases hroot
  have hdigest : Digest := ⟨fun _ => "", by simp⟩
  exact (exports_confined sampleTree hdigest sampleRoots (fun _ => 0) sampleWorld hpinned).1
    ⟨.write 12 false, "docs", "absolute"⟩

end Exports
end OpenOmni
