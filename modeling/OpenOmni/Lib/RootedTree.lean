import Mathlib

/-! Rooted trees given by the list of children of each node, and their preorder. -/
namespace RootedTree
open List

variable {α : Type*} {children : α → List α} {roots roots' order order' nodes : List α} {root id : α}

/-- What hangs below a list of roots: each root before all that is below it, and that before the next root. -/
inductive Preorder (children : α → List α) : List α → List α → Prop where
  | nil : Preorder children [] []
  | cons {root : α} {roots below after : List α} : Preorder children (children root) below →
      Preorder children roots after → Preorder children (root :: roots) (root :: (below ++ after))

lemma Preorder.append (h : Preorder children roots order) (h' : Preorder children roots' order') :
    Preorder children (roots ++ roots') (order ++ order') := by
  induction h with
  | nil => exact h'
  | cons hbelow _ _ ih =>
    rw [cons_append, cons_append, append_assoc]
    exact .cons hbelow ih

lemma Preorder.split (h : Preorder children (roots ++ roots') order) :
    ∃ first last, order = first ++ last ∧ Preorder children roots first ∧ Preorder children roots' last := by
  induction roots generalizing order with
  | nil => exact ⟨[], order, rfl, .nil, h⟩
  | cons root roots ih =>
    cases h with
    | @cons _ _ below after hbelow hafter =>
      obtain ⟨first, last, rfl, hfirst, hlast⟩ := ih hafter
      exact ⟨root :: (below ++ first), last, by simp, .cons hbelow hfirst, hlast⟩

theorem preorder_cons_iff : Preorder children (root :: roots) order ↔
    ∃ rest, order = root :: rest ∧ Preorder children (children root ++ roots) rest := by
  constructor
  · intro h
    cases h with
    | cons hbelow hafter => exact ⟨_, rfl, hbelow.append hafter⟩
  · rintro ⟨rest, rfl, h⟩
    obtain ⟨below, after, rfl, hbelow, hafter⟩ := h.split
    exact .cons hbelow hafter

section
variable (h : Preorder children roots order)
include h

lemma Preorder.sublist : roots.Sublist order := by
  induction h with
  | nil => exact .slnil
  | cons _ _ _ ih => exact (ih.trans (sublist_append_right _ _)).cons_cons _

theorem Preorder.unique (h' : Preorder children roots order') :
    order = order' := by
  induction h generalizing order' with
  | nil =>
    cases h'
    rfl
  | cons _ _ ihbelow ihafter =>
    cases h' with
    | cons hbelow hafter => rw [ihbelow hbelow, ihafter hafter]

theorem Preorder.perm : order.Perm (roots ++ order.flatMap children) := by
  induction h with
  | nil => exact .nil
  | @cons root roots below after _ _ ihbelow ihafter =>
    rw [cons_append, flatMap_cons, flatMap_append]
    refine List.Perm.cons root ?_
    have hswap : ((children root ++ below.flatMap children) ++ (roots ++ after.flatMap children)).Perm
        (roots ++ ((children root ++ below.flatMap children) ++ after.flatMap children)) :=
      perm_append_comm_assoc _ _ _
    rw [append_assoc (children root) _ (after.flatMap children)] at hswap
    exact (ihbelow.append ihafter).trans hswap

theorem Preorder.closed (hid : id ∈ order) {child : α}
    (hchild : child ∈ children id) : child ∈ order :=
  h.perm.mem_iff.mpr (mem_append_right _ (mem_flatMap.mpr ⟨id, hid, hchild⟩))

lemma Preorder.reached (hid : id ∈ order) :
    ∃ root ∈ roots, Relation.ReflTransGen (fun a b => b ∈ children a) root id := by
  induction h with
  | nil => cases hid
  | @cons root roots below after _ _ ihbelow ihafter =>
    rcases mem_cons.mp hid with rfl | hid
    · exact ⟨id, mem_cons_self, .refl⟩
    · cases mem_append.mp hid with
      | inl hbelow =>
        obtain ⟨child, hchild, hpath⟩ := ihbelow hbelow
        exact ⟨root, mem_cons_self, .head hchild hpath⟩
      | inr hafter =>
        obtain ⟨other, hother, hpath⟩ := ihafter hafter
        exact ⟨other, mem_cons_of_mem root hother, hpath⟩

end

theorem Preorder.mirror (h : Preorder (fun id => (children id).reverse) roots order) :
    ∃ order', order'.Perm order ∧ Preorder children roots.reverse order' := by
  induction h with
  | nil => exact ⟨[], .nil, .nil⟩
  | @cons root roots below after _ _ ihbelow ihafter =>
    obtain ⟨below', hbelow, hpre⟩ := ihbelow
    obtain ⟨after', hafter, hpre'⟩ := ihafter
    rw [reverse_reverse] at hpre
    refine ⟨after' ++ root :: below', ?_, ?_⟩
    · refine perm_middle.trans (List.Perm.cons root ?_)
      exact perm_append_comm.trans (hbelow.append hafter)
    · rw [reverse_cons]
      have hroot : Preorder children [root] (root :: (below' ++ [])) := .cons hpre .nil
      rw [append_nil] at hroot
      exact hpre'.append hroot

/-- The nodes are one tree that hangs off the root: none dangles, none is an orphan, and none is referenced
twice, or where the root is referenced at all. -/
structure Rooted (nodes : List α) (children : α → List α) (root : α) : Prop where
  root_mem : root ∈ nodes
  closed : ∀ id ∈ nodes, ∀ child ∈ children id, child ∈ nodes
  reached : ∀ id ∈ nodes, Relation.ReflTransGen (fun a b => b ∈ children a) root id
  once : (root :: nodes.flatMap children).Nodup

theorem Rooted.of_preorder (h : Preorder children [root] order) (hnodes : nodes.Nodup)
    (hperm : order.Perm nodes) : Rooted nodes children root := by
  have hmem : ∀ {id}, id ∈ nodes ↔ id ∈ order := fun {id} => hperm.mem_iff.symm
  refine ⟨hmem.mpr (h.sublist.subset (mem_singleton_self root)), fun id hid child hchild => ?_,
    fun id hid => ?_, ?_⟩
  · exact hmem.mpr (h.closed (hmem.mp hid) hchild)
  · obtain ⟨other, hother, hpath⟩ := h.reached (hmem.mp hid)
    obtain rfl := mem_singleton.mp hother
    exact hpath
  · have hrefs : (root :: nodes.flatMap children).Perm nodes :=
      ((List.Perm.flatMap_right children hperm.symm).cons root).trans (h.perm.symm.trans hperm)
    exact hrefs.nodup_iff.mpr hnodes

theorem Rooted.once_of_subset (h : Rooted nodes children root) {visited : List α} (hvisited : visited.Nodup)
    (hsub : visited ⊆ nodes) : (root :: visited.flatMap children).Nodup := by
  obtain ⟨some, hperm, hsome⟩ := hvisited.subperm hsub
  have hrefs : (root :: some.flatMap children).Nodup := by
    exact h.once.sublist ((hsome.flatMap children).cons_cons root)
  exact (((List.Perm.flatMap_right children hperm).cons root).nodup_iff).mp hrefs

theorem Rooted.visit (h : Rooted nodes children root) (n : ℕ) (visited waiting : List α)
    (hn : nodes.length - visited.length = n) (hvisited : visited.Nodup) (hsub : visited ⊆ nodes)
    (hrefs : (visited ++ waiting).Perm (root :: visited.flatMap children)) :
    ∃ order, Preorder children waiting order ∧ (visited ++ order).Nodup ∧ order ⊆ nodes := by
  have hfresh : (visited ++ waiting).Nodup := hrefs.nodup_iff.mpr (h.once_of_subset hvisited hsub)
  cases waiting with
  | nil => exact ⟨[], .nil, by simpa using hvisited, nofun⟩
  | cons id rest =>
    have hid : id ∈ nodes := by
      have hmem : id ∈ root :: visited.flatMap children := hrefs.mem_iff.mp (by simp)
      cases mem_cons.mp hmem with
      | inl hroot => exact hroot ▸ h.root_mem
      | inr hchild =>
        obtain ⟨parent, hparent, hchild⟩ := mem_flatMap.mp hchild
        exact h.closed parent (hsub hparent) id hchild
    rw [nodup_append'] at hfresh
    have hnew : id ∉ visited := fun hold => hfresh.2.2 hold mem_cons_self
    have hvisited' : (visited ++ [id]).Nodup := by
      rw [nodup_append']
      exact ⟨hvisited, nodup_singleton id, by simpa using hnew⟩
    have hsub' : visited ++ [id] ⊆ nodes := append_subset.mpr ⟨hsub, by simpa using hid⟩
    have hroom := (hvisited'.subperm hsub').length_le
    rw [length_append, length_singleton] at hroom
    cases n with
    | zero => omega
    | succ n =>
      have hrefs' : ((visited ++ [id]) ++ (children id ++ rest)).Perm
          (root :: (visited ++ [id]).flatMap children) := by
        have hswap : ((visited ++ [id]) ++ (children id ++ rest)).Perm
            ((visited ++ [id]) ++ (rest ++ children id)) := perm_append_comm.append_left _
        have hsame : (visited ++ [id]) ++ (rest ++ children id) = (visited ++ id :: rest) ++ children id := by
          simp
        rw [flatMap_append, flatMap_singleton]
        exact (hsame ▸ hswap).trans (hrefs.append_right (children id))
      obtain ⟨order, hpre, hnodup, hsub''⟩ := h.visit n (visited ++ [id]) (children id ++ rest)
        (by rw [length_append, length_singleton]; omega) hvisited' hsub' hrefs'
      refine ⟨id :: order, preorder_cons_iff.mpr ⟨order, rfl, hpre⟩, by simpa using hnodup, ?_⟩
      exact cons_subset.mpr ⟨hid, hsub''⟩

theorem Rooted.preorder (h : Rooted nodes children root) (hnodes : nodes.Nodup) :
    ∃ order, Preorder children [root] order ∧ order.Perm nodes := by
  obtain ⟨order, hpre, hnodup, hsub⟩ := h.visit nodes.length [] [root] rfl .nil nofun (.refl _)
  refine ⟨order, hpre, (perm_ext_iff_of_nodup hnodup hnodes).mpr fun id => ⟨fun hid => hsub hid, ?_⟩⟩
  intro hid
  have hpath := h.reached id hid
  clear hid
  induction hpath with
  | refl => exact hpre.sublist.subset (mem_singleton_self root)
  | tail _ hchild ih => exact hpre.closed ih hchild

end RootedTree
