import OpenOmni.Machines.Walk

/-! The walk never leaves the subtree of its root: every name it opens is one name below a directory below the
root, whatever the links on the way say. -/
namespace OpenOmni
namespace Exports
open List

open Posix PosixPath

variable {segments resolved resolved' : List String} {root : Root}

lemma requestSegments_names {path : String} (h : requestSegments path = some segments) :
    ∀ s ∈ segments, IsName s := by
  unfold requestSegments at h
  split at h
  · cases h
  · rename_i hpath
    rw [not_or] at hpath
    simp only at h
    split at h
    · cases h
    · rename_i hdots
      cases h
      intro s hs
      have hplain : s ≠ "" ∧ s ≠ "." := by simpa using (mem_filter.mp hs).2
      refine isName_of_mem_split hpath.2 (mem_filter.mp hs).1 hplain.1 hplain.2 ?_
      rintro rfl
      exact hdots hs

theorem exists_rest_of_isWithin (hnames : ∀ s ∈ segments, IsName s)
    (h : isWithin root.canonicalPath (absolute segments) = true) : ∃ rest, segments = root.canonical ++ rest := by
  unfold isWithin at h
  rw [Bool.or_eq_true, decide_eq_true_eq] at h
  unfold Root.canonicalPath at h
  rcases h with hsame | hleading
  · have hsegments := congrArg names hsame
    rw [names_absolute hnames, names_absolute root.named] at hsegments
    exact ⟨[], by rw [hsegments, append_nil]⟩
  · by_cases hempty : root.canonical = []
    · exact ⟨segments, by rw [hempty, nil_append]⟩
    · rw [if_neg (getLast?_absolute_ne_slash hempty root.named)] at hleading
      obtain ⟨tail, htail⟩ := isPrefixOf_iff_prefix.mp hleading
      have htext : (absolute segments).toList = (absolute root.canonical).toList ++ '/' :: tail := by
        rw [← htail, String.toList_append, append_assoc]
        rfl
      exact exists_append_of_absolute_append root.named hempty hnames htext

lemma linkStep_names {segment : String} (hsegment : segment ≠ "" → segment ≠ "." → segment ≠ ".." → IsName segment)
    (hresolved : ∀ s ∈ resolved, IsName s) (h : linkStep resolved segment = some resolved') :
    ∀ s ∈ resolved', IsName s := by
  unfold linkStep at h
  split at h
  · cases h
    exact hresolved
  · rename_i hplain
    rw [not_or] at hplain
    split at h
    · split at h
      · cases h
      · cases h
        intro s hs
        exact hresolved s (dropLast_subset _ hs)
    · rename_i hdots
      cases h
      intro s hs
      rcases mem_append.mp hs with hs | hs
      · exact hresolved s hs
      · obtain rfl := mem_singleton.mp hs
        exact hsegment hplain.1 hplain.2 hdots

lemma foldlM_linkStep_names (hsegments : ∀ s ∈ segments, s ≠ "" → s ≠ "." → s ≠ ".." → IsName s)
    (hresolved : ∀ s ∈ resolved, IsName s) (h : segments.foldlM linkStep resolved = some resolved') :
    ∀ s ∈ resolved', IsName s := by
  induction segments generalizing resolved with
  | nil =>
    cases h
    exact hresolved
  | cons segment segments ih =>
    rw [foldlM_cons] at h
    obtain ⟨next, hnext, hrest⟩ := Option.bind_eq_some_iff.mp h
    have hnamed := linkStep_names (hsegments segment mem_cons_self) hresolved hnext
    exact ih (fun s hs => hsegments s (mem_cons_of_mem _ hs)) hnamed hrest

theorem resolveLink_names {traversed : List String} {target : String} (hnull : Char.ofNat 0 ∉ target.toList)
    (htraversed : ∀ s ∈ traversed, IsName s) (h : resolveLink root traversed target = some segments) :
    ∀ s ∈ segments, IsName s := by
  unfold resolveLink at h
  split at h
  · simp only at h
    split at h
    · cases h
    · rename_i hwithin
      obtain rfl := Option.some.inj h
      have hnames : ∀ s ∈ names target, IsName s := fun _ => isName_of_mem_names hnull
      have hinside : isWithin root.canonicalPath (absolute (names target)) = true := by simpa [resolve] using hwithin
      obtain ⟨rest, hrest⟩ := exists_rest_of_isWithin hnames hinside
      have hrestNames : ∀ s ∈ rest, IsName s := by
        intro s hs
        exact hnames s (by rw [hrest]; exact mem_append_right _ hs)
      have hremainder : relative root.canonicalPath (resolve target) = join rest := by
        unfold resolve
        rw [hrest]
        exact relative_append root.named hrestNames
      rw [hremainder]
      split
      · intro s hs
        cases hs
      · rename_i hne
        have hrestNe : rest ≠ [] := by
          rintro rfl
          exact hne rfl
        rw [split_join hrestNe hrestNames]
        exact hrestNames
  · exact foldlM_linkStep_names (fun _ => isName_of_mem_split hnull) htraversed h

section Held

variable {ν : Type*} {S : System ν} {r : ν} {root : Root} {w₀ w w' : World ν} {others : Finset ℕ} {n : ℕ}

def Loop.ownDir (s : Loop) : Finset ℕ := if s.ownsDirfd then {s.dirfd} else ∅

def Loop.ownLink (s : Loop) : Finset ℕ := s.preservedSymlinkFd.elim ∅ fun fd => {fd}

def heldBy : Except Refusal OpenedTarget → Finset ℕ
  | .ok target => {target.fd}
  | .error _ => ∅

variable {s : Loop} {fd dirfd openErrno : ℕ} {segment : String} {q : Query} {isFinal : Bool} {rest : List String}

lemma closeOwned_stretch (h : Stretch S r w₀ w (s.ownDir ∪ others) n)
    (hothers : s.ownsDirfd = true → s.dirfd ∉ others) : Stretch S r w₀ (closeOwned s w) others n := by
  unfold closeOwned
  unfold Loop.ownDir at h
  split
  · rename_i howns
    rw [if_pos howns] at h
    have hclose := h.close (Finset.mem_union_left others (Finset.mem_singleton_self s.dirfd))
    rwa [← Finset.insert_eq, Finset.erase_insert (hothers howns)] at hclose
  · rename_i howns
    rwa [if_neg howns, Finset.empty_union] at h

lemma closePreserved_stretch (h : Stretch S r w₀ w (s.ownLink ∪ others) n)
    (hothers : ∀ fd, s.preservedSymlinkFd = some fd → fd ∉ others) : Stretch S r w₀ (closePreserved s w) others n := by
  unfold closePreserved
  unfold Loop.ownLink at h
  split
  · rename_i hnone
    rwa [hnone, Option.elim_none, Finset.empty_union] at h
  · rename_i fd hfd
    rw [hfd, Option.elim_some] at h
    have hclose := h.close (Finset.mem_union_left others (Finset.mem_singleton_self fd))
    rwa [← Finset.insert_eq, Finset.erase_insert (hothers fd hfd)] at hclose

/-- What holds at the head of the loop: names pending and traversed, a directory of the subtree to look in, and
nothing held but that directory and one preserved link. -/
structure Walking (S : System ν) (r : ν) (root : Root) (w₀ w : World ν) (s : Loop) : Prop where
  rootFd : w₀.table.get? root.fd = some (.node r)
  stretch : Stretch S r w₀ w (s.ownDir ∪ s.ownLink) s.expansions
  pending : ∀ x ∈ s.pending, IsName x
  traversed : ∀ x ∈ s.traversed, IsName x
  rooted : s.ownsDirfd = false → s.dirfd = root.fd
  apart : s.ownsDirfd = true → s.dirfd ∉ s.ownLink
  bound : s.expansions ≤ MAX_SYMLINK_EXPANSIONS

section
variable (h : Walking S r root w₀ w s)
include h

lemma Walking.within : ∀ place, w.table.get? s.dirfd = some place → place.Within S r := by
  cases howns : s.ownsDirfd with
  | true =>
    intro place hplace
    have hheld : s.dirfd ∈ s.ownDir := by
      rw [Loop.ownDir, if_pos howns]
      exact Finset.mem_singleton_self _
    obtain ⟨other, hother, hwithin⟩ := h.stretch.live s.dirfd (Finset.mem_union_left _ hheld)
    rw [hplace] at hother
    cases hother
    exact hwithin
  | false =>
    intro place hplace
    rw [h.rooted howns, h.stretch.get? h.rootFd] at hplace
    cases hplace
    exact Below.root

theorem Walking.called : Walking S r root w₀ w.called s :=
  ⟨h.rootFd, h.stretch.called, h.pending, h.traversed, h.rooted, h.apart, h.bound⟩

theorem Walking.closeAll (hstretch : Stretch S r w₀ w' (s.ownDir ∪ s.ownLink) n) :
    Stretch S r w₀ (closeAll s w') ∅ n := by
  have hdir := closeOwned_stretch hstretch h.apart
  rw [← Finset.union_empty s.ownLink] at hdir
  exact closePreserved_stretch hdir fun fd _ => Finset.notMem_empty fd

theorem Walking.finish
    (hopen : Stretch S r w₀ w' (insert fd (s.ownDir ∪ s.ownLink)) s.expansions) (hfd : fd ∉ s.ownDir ∪ s.ownLink) :
    Stretch S r w₀ (closePreserved s (closeOwned s w')) {fd} s.expansions := by
  rw [Finset.notMem_union] at hfd
  rw [← Finset.union_insert] at hopen
  have hdir := closeOwned_stretch hopen (by
    intro howns hmem
    rcases Finset.mem_insert.mp hmem with hsame | hlink
    · apply hfd.1
      rw [Loop.ownDir, if_pos howns, ← hsame]
      exact Finset.mem_singleton_self _
    · exact h.apart howns hlink)
  rw [Finset.insert_eq, Finset.union_comm] at hdir
  apply closePreserved_stretch hdir
  intro link hlink hmem
  obtain rfl := Finset.mem_singleton.mp hmem
  apply hfd.2
  rw [Loop.ownLink, hlink]
  exact Finset.mem_singleton_self _

end

theorem openSymlinkAt_stretch {held : Finset ℕ} (h : Stretch S r w₀ w held n)
    (hdirfd : ∀ place, w.table.get? dirfd = some place → place.Within S r) (hsegment : IsName segment)
    {link : Option ℕ} (hopen : openSymlinkAt S w dirfd segment = (link, w')) :
    (link = none ∧ Stretch S r w₀ w' held n) ∨
      ∃ fd, link = some fd ∧ fd ∉ held ∧ Stretch S r w₀ w' (insert fd held) n := by
  unfold openSymlinkAt at hopen
  split at hopen
  · rename_i herror
    cases hopen
    exact .inl ⟨rfl, h.openat_error herror⟩
  · rename_i fd w₁ hok
    obtain ⟨hstretch, hfree⟩ := h.openat_ok hdirfd (.inl ⟨hsegment, .inr (.inl rfl)⟩) hok
    split at hopen
    · cases hopen
      exact .inr ⟨fd, rfl, hfree, hstretch⟩
    · cases hopen
      have hclose := hstretch.close (Finset.mem_insert_self fd held)
      rw [Finset.erase_insert hfree] at hclose
      exact .inl ⟨rfl, hclose⟩

lemma readLinkAt_world (w : World ν) (dirfd : ℕ) (name : String) : (readLinkAt S w dirfd name).2 = w.called := by
  unfold readLinkAt
  rw [← readlinkat_world w dirfd name]
  split
  · rename_i heq
    rw [heq]
  · rename_i heq
    rw [heq]
    split <;> rfl

lemma readLinkAt_ok {name target : String} (h : (readLinkAt S w dirfd name).1 = .ok target) :
    Char.ofNat 0 ∉ target.toList := by
  unfold readLinkAt at h
  split at h
  · cases h
  · rename_i bytes text w' heq
    split at h
    · cases h
    · obtain rfl := Except.ok.inj h
      have hread : (w.readlinkat S dirfd name).1 = .ok (bytes, text) := by rw [heq]
      exact readlinkat_ok hread

section
variable (h : Walking S r root w₀ w s)
include h

lemma preserveLink_stretch (hsegment : IsName segment)
    {result : Except Refusal (Option ℕ)} (hpreserve : preserveLink S q s segment isFinal w = (result, w')) :
    (∃ refusal, result = .error refusal ∧ Stretch S r w₀ w' (s.ownDir ∪ s.ownLink) s.expansions) ∨
      ∃ link : Option ℕ, result = .ok link ∧
        Stretch S r w₀ w' (s.ownDir ∪ link.elim ∅ fun fd => {fd}) s.expansions ∧
        (s.ownsDirfd = true → s.dirfd ∉ link.elim (∅ : Finset ℕ) fun fd => {fd}) := by
  unfold preserveLink at hpreserve
  split at hpreserve
  · rename_i hfresh
    rw [Bool.and_eq_true, Option.isNone_iff_eq_none] at hfresh
    have hlink : s.ownLink = ∅ := by rw [Loop.ownLink, hfresh.2, Option.elim_none]
    split at hpreserve
    · rename_i w₁ hopen
      cases hpreserve
      rcases openSymlinkAt_stretch h.stretch h.within hsegment hopen with ⟨-, hsame⟩ | ⟨fd, hnone, -, -⟩
      · exact .inl ⟨_, rfl, hsame⟩
      · cases hnone
    · rename_i fd w₁ hopen
      cases hpreserve
      rcases openSymlinkAt_stretch h.stretch h.within hsegment hopen with ⟨hsome, -⟩ | ⟨fd', hfd, hfree, hopened⟩
      · cases hsome
      · cases hfd
        rw [hlink, Finset.union_empty] at hfree hopened
        refine .inr ⟨some fd, rfl, ?_, ?_⟩
        · rw [Option.elim_some, Finset.union_comm, ← Finset.insert_eq]
          exact hopened
        · intro howns hmem
          rw [Option.elim_some, Finset.mem_singleton] at hmem
          apply hfree
          rw [Loop.ownDir, if_pos howns, hmem]
          exact Finset.mem_singleton_self fd
  · cases hpreserve
    exact .inr ⟨s.preservedSymlinkFd, rfl, h.stretch, h.apart⟩

theorem expandWalkLink_error (hsegment : IsName segment) {refusal : Refusal}
    (hexpand : expandWalkLink S root q s segment rest openErrno isFinal w = (.error refusal, w')) :
    Stretch S r w₀ w' (s.ownDir ∪ s.ownLink) s.expansions := by
  have hread := readLinkAt_world (S := S) w s.dirfd segment
  unfold expandWalkLink at hexpand
  split at hexpand
  · rename_i w₁ hlink
    rw [hlink] at hread
    simp only at hread
    subst hread
    split at hexpand
    all_goals
      obtain rfl := (Prod.mk.inj hexpand).2
      exact h.stretch.called
  · rename_i target w₁ hlink
    rw [hlink] at hread
    simp only at hread
    subst hread
    split at hexpand
    · obtain rfl := (Prod.mk.inj hexpand).2
      exact h.stretch.called
    · split at hexpand
      · obtain rfl := (Prod.mk.inj hexpand).2
        exact h.stretch.called
      · split at hexpand
        · rename_i hpreserve
          obtain rfl := (Prod.mk.inj hexpand).2
          rcases preserveLink_stretch h.called hsegment hpreserve with ⟨_, -, hsame⟩ | ⟨_, hok, -⟩
          · exact hsame
          · cases hok
        · cases (Prod.mk.inj hexpand).1

theorem Walking.expand (hpending : s.pending = segment :: rest) {pending : List String}
    {preserved : Option ℕ}
    (hexpand : expandWalkLink S root q s segment rest openErrno isFinal w = (.ok (pending, preserved), w')) :
    Walking S r root w₀ (closeOwned s w') (s.restart root pending preserved) := by
  have hsegment : IsName segment := h.pending segment (by rw [hpending]; exact mem_cons_self)
  have hrest : ∀ x ∈ rest, IsName x := by
    intro x hx
    exact h.pending x (by rw [hpending]; exact mem_cons_of_mem _ hx)
  have hbound := expandWalkLink_expansions S hexpand
  have hread := readLinkAt_world (S := S) w s.dirfd segment
  unfold expandWalkLink at hexpand
  split at hexpand
  · split at hexpand <;> cases (Prod.mk.inj hexpand).1
  · rename_i target w₁ hlink
    have htarget : Char.ofNat 0 ∉ target.toList := by
      have hok : (readLinkAt S w s.dirfd segment).1 = .ok target := by rw [hlink]
      exact readLinkAt_ok hok
    rw [hlink] at hread
    simp only at hread
    subst hread
    split at hexpand
    · cases (Prod.mk.inj hexpand).1
    · rename_i rewritten hresolve
      split at hexpand
      · cases (Prod.mk.inj hexpand).1
      · split at hexpand
        · cases (Prod.mk.inj hexpand).1
        · rename_i link w₂ hpreserve
          obtain ⟨hresult, rfl⟩ := Prod.mk.inj hexpand
          cases hresult
          rcases preserveLink_stretch h.called hsegment hpreserve with ⟨_, herror, -⟩ | ⟨link', hok, hstretch, hapart⟩
          · cases herror
          · cases hok
            have hclosed := closeOwned_stretch (hstretch.expanded segment) hapart
            refine ⟨h.rootFd, ?_, ?_, ?_, fun _ => rfl, ?_, hbound⟩
            · simpa [Loop.restart, Loop.ownDir, Loop.ownLink] using hclosed
            · intro x hx
              rcases mem_append.mp hx with hx | hx
              · exact resolveLink_names htarget h.traversed hresolve x hx
              · exact hrest x hx
            · intro x hx
              cases hx
            · intro howns
              cases howns

theorem Walking.descend (hpending : s.pending = segment :: rest)
    (hopen : Stretch S r w₀ w' (insert fd (s.ownDir ∪ s.ownLink)) s.expansions) (hfd : fd ∉ s.ownDir ∪ s.ownLink) :
    Walking S r root w₀ (closeOwned s w') (s.descend fd segment rest) := by
  rw [Finset.notMem_union] at hfd
  rw [← Finset.union_insert] at hopen
  have hdir := closeOwned_stretch hopen (by
    intro howns hmem
    rcases Finset.mem_insert.mp hmem with hsame | hlink
    · apply hfd.1
      rw [Loop.ownDir, if_pos howns, ← hsame]
      exact Finset.mem_singleton_self _
    · exact h.apart howns hlink)
  refine ⟨h.rootFd, ?_, ?_, ?_, ?_, fun _ => hfd.2, h.bound⟩
  · rw [Finset.insert_eq] at hdir
    exact hdir
  · intro x hx
    exact h.pending x (by rw [hpending]; exact mem_cons_of_mem _ hx)
  · intro x hx
    rcases mem_append.mp hx with hx | hx
    · exact h.traversed x hx
    · obtain rfl := mem_singleton.mp hx
      exact h.pending x (by rw [hpending]; exact mem_cons_self)
  · intro howns
    cases howns

end

/-- From the head of the loop on, whatever the links say: at most the bound is expanded, all of it stays in the
subtree, and in the end the target alone is open. -/
theorem walkLoop_stretch (S : System ν) (root : Root) (q : Query) (s : Loop) (w : World ν)
    (h : Walking S r root w₀ w s) :
    ∃ n ≤ MAX_SYMLINK_EXPANSIONS,
      Stretch S r w₀ (walkLoop S root q s w).2 (heldBy (walkLoop S root q s w).1) n := by
  fun_induction walkLoop S root q s w with
  | case1 s w hpending errno w₁ hopen =>
    exact ⟨_, h.bound, h.closeAll (h.stretch.openat_error hopen)⟩
  | case2 s w hpending fd w₁ hopen =>
    obtain ⟨hstretch, hfree⟩ := h.stretch.openat_ok h.within (.inr rfl) hopen
    exact ⟨_, h.bound, h.finish hstretch hfree⟩
  | case3 s w segment rest hpending fd w₁ hopen w₂ hfinal =>
    have hsegment : IsName segment := h.pending segment (by rw [hpending]; exact mem_cons_self)
    obtain ⟨hstretch, hfree⟩ := h.stretch.openat_ok h.within (.inl ⟨hsegment, .inl rfl⟩) hopen
    exact ⟨_, h.bound, h.finish hstretch hfree⟩
  | case4 s w segment rest hpending fd w₁ hopen w₂ hfinal ih =>
    have hsegment : IsName segment := h.pending segment (by rw [hpending]; exact mem_cons_self)
    obtain ⟨hstretch, hfree⟩ := h.stretch.openat_ok h.within (.inl ⟨hsegment, .inl rfl⟩) hopen
    exact ih (h.descend hpending hstretch hfree)
  | case5 s w segment rest hpending errno w₁ hopen hfollow =>
    exact ⟨_, h.bound, h.closeAll (h.stretch.openat_error hopen)⟩
  | case6 s w segment rest hpending errno w₁ hopen hfollow refusal w₂ hexpand =>
    have hsegment : IsName segment := h.pending segment (by rw [hpending]; exact mem_cons_self)
    obtain rfl := openat_error hopen
    exact ⟨_, h.bound, h.closeAll (expandWalkLink_error h.called hsegment hexpand)⟩
  | case7 s w segment rest hpending errno w₁ hopen hfollow pending preserved w₂ hexpand ih =>
    obtain rfl := openat_error hopen
    exact ih (h.called.expand hpending hexpand)

lemma walk_stretch (S : System ν) {segments : List String} (hsegments : ∀ x ∈ segments, IsName x) (q : Query)
    (hroot : w.table.get? root.fd = some (.node r)) :
    ∃ n ≤ MAX_SYMLINK_EXPANSIONS, Stretch S r w (walk S root segments q w).2 (heldBy (walk S root segments q w).1) n := by
  apply walkLoop_stretch
  refine ⟨hroot, Stretch.refl w, hsegments, ?_, fun _ => rfl, ?_, Nat.zero_le _⟩
  · intro x hx
    cases hx
  · intro howns
    cases howns

end Held

end Exports
end OpenOmni
