import Mathlib.Data.List.Dedup
import OpenOmni.Gateway.Catalog
import OpenOmni.Lib.RootedTree

/-! What the catalog means by a spec: one tree of elements off its root, and its walk finds exactly that. -/
namespace OpenOmni
open List

open PlainValue SessionTransition RootedTree

namespace Gateway

variable {spec : Spec} {isUrl : String → Bool}

lemma Spec.children_eq (spec : Spec) (id : String) :
    spec.children id = ((spec.elements.lookup id).map (·.children)).getD [] := by
  unfold Spec.children Spec.find
  cases spec.elements.lookup id with
  | none => by_cases hname : id ∈ objectPrototypeNames <;> simp [hname]
  | some element => rfl

variable {id : String} {element : Element}

lemma mem_of_lookup (h : spec.elements.lookup id = some element) : (id, element) ∈ spec.elements := by
  obtain ⟨before, after, heq, -⟩ := lookup_eq_some_iff.mp h
  rw [heq]
  exact mem_append_right before mem_cons_self

theorem lookup_mem (hids : spec.ids.Nodup) (h : (id, element) ∈ spec.elements) :
    spec.elements.lookup id = some element := by
  obtain ⟨before, after, heq⟩ := append_of_mem h
  refine lookup_eq_some_iff.mpr ⟨before, after, heq, fun other hother => ?_⟩
  rw [Spec.ids, heq, map_append, map_cons, nodup_append'] at hids
  rw [bne_iff_ne]
  exact fun hsame => hids.2.2 (mem_map_of_mem hother) (hsame ▸ mem_cons_self)

lemma children_references (id : String) : spec.children id ⊆ spec.references := by
  intro child hchild
  rw [Spec.children_eq] at hchild
  cases hfound : spec.elements.lookup id with
  | none =>
    rw [hfound] at hchild
    cases hchild
  | some element =>
    rw [hfound] at hchild
    exact mem_flatMap.mpr ⟨(id, element), mem_of_lookup hfound, hchild⟩

section
variable {id : String} {children reached pending : List String} {fuel : ℕ}

theorem visitChildren_new (hnew : ∀ child ∈ children, child ∉ reached) (honce : children.Nodup) :
    visitChildren id children reached pending = (children.reverse ++ reached, children.reverse ++ pending, []) := by
  induction children generalizing reached pending with
  | nil => rfl
  | cons child children ih =>
    rw [nodup_cons] at honce
    have hrest : ∀ other ∈ children, other ∉ child :: reached := by
      intro other hother hin
      cases mem_cons.mp hin with
      | inl heq => exact honce.1 (heq ▸ hother)
      | inr hold => exact hnew other (mem_cons_of_mem child hother) hold
    unfold visitChildren
    rw [if_neg (hnew child mem_cons_self), ih hrest honce.2]
    simp

theorem visitChildren_clean (h : (visitChildren id children reached pending).2.2 = []) :
    (∀ child ∈ children, child ∉ reached) ∧ children.Nodup := by
  induction children generalizing reached pending with
  | nil => exact ⟨nofun, .nil⟩
  | cons child children ih =>
    unfold visitChildren at h
    by_cases hold : child ∈ reached
    · rw [if_pos hold] at h
      cases h
    · rw [if_neg hold] at h
      obtain ⟨hnew, honce⟩ := ih h
      refine ⟨fun other hother => ?_, nodup_cons.mpr ⟨fun hin => ?_, honce⟩⟩
      · cases mem_cons.mp hother with
        | inl heq => exact heq ▸ hold
        | inr hother => exact fun hin => hnew other hother (mem_cons_of_mem child hin)
      · exact hnew child hin mem_cons_self

def Spec.left (spec : Spec) (reached pending : List String) : ℕ :=
  pending.length + (spec.references.dedup.filter (· ∉ reached)).length

theorem left_visit (hnew : ∀ child ∈ spec.children id, child ∉ reached) (honce : (spec.children id).Nodup) :
    spec.left ((spec.children id).reverse ++ reached) ((spec.children id).reverse ++ pending) + 1 ≤
      spec.left reached (id :: pending) := by
  let later := spec.references.dedup.filter (· ∉ (spec.children id).reverse ++ reached)
  have hlater : (spec.children id ++ later).Nodup := by
    rw [nodup_append']
    refine ⟨honce, (nodup_dedup _).filter _, fun child hchild hin => ?_⟩
    have hout := of_decide_eq_true (mem_filter.mp hin).2
    exact hout (mem_append_left _ (mem_reverse.mpr hchild))
  have hsub : spec.children id ++ later ⊆ spec.references.dedup.filter (· ∉ reached) := by
    refine append_subset.mpr ⟨fun child hchild => ?_, fun child hin => ?_⟩
    · rw [mem_filter, mem_dedup]
      exact ⟨children_references id hchild, decide_eq_true (hnew child hchild)⟩
    · obtain ⟨href, hout⟩ := mem_filter.mp hin
      refine mem_filter.mpr ⟨href, decide_eq_true fun hold => ?_⟩
      exact of_decide_eq_true hout (mem_append_right _ hold)
  have hle := (hlater.subperm hsub).length_le
  rw [length_append] at hle
  have hsame : later.length =
      (spec.references.dedup.filter (· ∉ (spec.children id).reverse ++ reached)).length := rfl
  unfold Spec.left
  rw [length_append, length_reverse, length_cons]
  omega

/-- What waits on the stack is the roots of trees that have not been reached. -/
structure Waiting (spec : Spec) (reached pending order : List String) : Prop where
  preorder : Preorder (fun id => (spec.children id).reverse) pending order
  once : order.Nodup
  fresh : ∀ id ∈ order, id ∈ reached → id ∈ pending

variable {order : List String}

theorem waiting_cons_iff (hnew : ∀ child ∈ spec.children id, child ∉ reached) (hpending : id :: pending ⊆ reached)
    (hwaits : (id :: pending).Nodup) : Waiting spec reached (id :: pending) order ↔ ∃ rest, order = id :: rest ∧
      Waiting spec ((spec.children id).reverse ++ reached) ((spec.children id).reverse ++ pending) rest := by
  obtain ⟨hreached, hsub⟩ := cons_subset.mp hpending
  obtain ⟨hid, -⟩ := nodup_cons.mp hwaits
  constructor
  · rintro ⟨hpre, honce, hfresh⟩
    obtain ⟨rest, rfl, hrest⟩ := preorder_cons_iff.mp hpre
    obtain ⟨hnot, honce⟩ := nodup_cons.mp honce
    refine ⟨rest, rfl, hrest, honce, fun other hother hin => ?_⟩
    cases mem_append.mp hin with
    | inl hchild => exact mem_append_left _ hchild
    | inr hold =>
      cases mem_cons.mp (hfresh other (mem_cons_of_mem id hother) hold) with
      | inl heq => exact absurd (heq ▸ hother) hnot
      | inr hwaits => exact mem_append_right _ hwaits
  · rintro ⟨rest, rfl, hpre, honce, hfresh⟩
    have hnot : id ∉ rest := by
      intro hin
      cases mem_append.mp (hfresh id hin (mem_append_right _ hreached)) with
      | inl hchild => exact hnew id (mem_reverse.mp hchild) hreached
      | inr hwaits => exact hid hwaits
    refine ⟨preorder_cons_iff.mpr ⟨rest, rfl, hpre⟩, nodup_cons.mpr ⟨hnot, honce⟩, fun other hother hin => ?_⟩
    cases mem_cons.mp hother with
    | inl heq => exact heq ▸ mem_cons_self
    | inr hrest =>
      cases mem_append.mp (hfresh other hrest (mem_append_right _ hin)) with
      | inl hchild => exact absurd hin (hnew other (mem_reverse.mp hchild))
      | inr hwaits => exact mem_cons_of_mem id hwaits

theorem Waiting.new (h : Waiting spec reached (id :: pending) order) :
    (∀ child ∈ spec.children id, child ∉ reached) ∧ (spec.children id).Nodup := by
  obtain ⟨rest, rfl, hrest⟩ := preorder_cons_iff.mp h.preorder
  obtain ⟨hnot, honce⟩ := nodup_cons.mp h.once
  have hroots := honce.sublist hrest.sublist
  rw [nodup_append'] at hroots
  refine ⟨fun child hchild hin => ?_, nodup_reverse.mp hroots.1⟩
  have hchild' : child ∈ (spec.children id).reverse := mem_reverse.mpr hchild
  have hrest' : child ∈ rest := hrest.sublist.subset (mem_append_left _ hchild')
  cases mem_cons.mp (h.fresh child (mem_cons_of_mem id hrest') hin) with
  | inl heq => exact hnot (heq ▸ hrest')
  | inr hwaits => exact hroots.2.2 hchild' hwaits

theorem treeLoop_clean (fuel : ℕ) (reached pending : List String) (hwaits : pending.Nodup)
    (hpending : pending ⊆ reached) (hfuel : spec.left reached pending ≤ fuel) :
    ((treeLoop spec fuel reached pending).2 = [] ↔ ∃ order, Waiting spec reached pending order) ∧
    ∀ order, Waiting spec reached pending order →
      ∀ id, id ∈ (treeLoop spec fuel reached pending).1 ↔ id ∈ reached ∨ id ∈ order := by
  induction fuel generalizing reached pending with
  | zero =>
    have hempty : pending = [] := length_eq_zero_iff.mp (by unfold Spec.left at hfuel; omega)
    subst hempty
    refine ⟨iff_of_true rfl ⟨[], .nil, .nil, nofun⟩, fun order horder id => ?_⟩
    obtain rfl := horder.preorder.unique .nil
    simp [treeLoop]
  | succ fuel ih =>
    cases pending with
    | nil =>
      refine ⟨iff_of_true rfl ⟨[], .nil, .nil, nofun⟩, fun order horder id => ?_⟩
      obtain rfl := horder.preorder.unique .nil
      simp [treeLoop]
    | cons id pending =>
      by_cases hclean : (∀ child ∈ spec.children id, child ∉ reached) ∧ (spec.children id).Nodup
      · obtain ⟨hnew, honce⟩ := hclean
        have hloop : treeLoop spec (fuel + 1) reached (id :: pending) = treeLoop spec fuel
            ((spec.children id).reverse ++ reached) ((spec.children id).reverse ++ pending) := by
          rw [treeLoop, visitChildren_new hnew honce]
          rfl
        have hleft : spec.left ((spec.children id).reverse ++ reached) ((spec.children id).reverse ++ pending) + 1
            ≤ spec.left reached (id :: pending) := left_visit hnew honce
        obtain ⟨hid, hrest⟩ := nodup_cons.mp hwaits
        have hwaits' : ((spec.children id).reverse ++ pending).Nodup := by
          rw [nodup_append']
          refine ⟨nodup_reverse.mpr honce, hrest, fun child hchild hold => ?_⟩
          exact hnew child (mem_reverse.mp hchild) (hpending (mem_cons_of_mem id hold))
        have hpending' : (spec.children id).reverse ++ pending ⊆ (spec.children id).reverse ++ reached :=
          append_subset.mpr ⟨subset_append_left _ _,
            fun other hother => mem_append_right _ (hpending (mem_cons_of_mem id hother))⟩
        obtain ⟨hiff, hreach⟩ := ih _ _ hwaits' hpending' (by omega)
        rw [hloop, hiff]
        constructor
        · constructor
          · rintro ⟨rest, hwaiting⟩
            exact ⟨id :: rest, (waiting_cons_iff hnew hpending hwaits).mpr ⟨rest, rfl, hwaiting⟩⟩
          · rintro ⟨order, hwaiting⟩
            obtain ⟨rest, -, hrest⟩ := (waiting_cons_iff hnew hpending hwaits).mp hwaiting
            exact ⟨rest, hrest⟩
        · intro order hwaiting other
          obtain ⟨rest, rfl, hrest⟩ := (waiting_cons_iff hnew hpending hwaits).mp hwaiting
          rw [hreach rest hrest other]
          have hid : id ∈ reached := hpending mem_cons_self
          have hsub : (spec.children id).reverse ⊆ rest :=
            fun child hchild => hrest.preorder.sublist.subset (mem_append_left _ hchild)
          constructor
          · rintro (hin | hin)
            · cases mem_append.mp hin with
              | inl hchild => exact .inr (mem_cons_of_mem id (hsub hchild))
              | inr hold => exact .inl hold
            · exact .inr (mem_cons_of_mem id hin)
          · rintro (hin | hin)
            · exact .inl (mem_append_right _ hin)
            · cases mem_cons.mp hin with
              | inl heq => exact .inl (mem_append_right _ (heq ▸ hid))
              | inr hrest => exact .inr hrest
      · have hissue : (treeLoop spec (fuel + 1) reached (id :: pending)).2 ≠ [] := by
          intro hnone
          rw [treeLoop] at hnone
          exact hclean (visitChildren_clean (append_eq_nil_iff.mp hnone).1)
        have hnot : ∀ order, ¬Waiting spec reached (id :: pending) order := fun order horder =>
          hclean horder.new
        exact ⟨iff_of_false hissue fun ⟨order, horder⟩ => hnot order horder,
          fun order horder => absurd horder (hnot order)⟩

end

/-- The catalog finds the elements to be a tree where its walk goes on from an object at the root that is no
button, meets no element twice and leaves none out. -/
theorem treeIssues_nil_iff : treeIssues spec = [] ↔ spec.find spec.root ≠ .missing ∧
    spec.typeOf spec.root ≠ some .button ∧
    ∃ order, Preorder (fun id => (spec.children id).reverse) [spec.root] order ∧ order.Nodup ∧
      spec.ids ⊆ order := by
  have hleft : spec.left [spec.root] [spec.root] ≤ spec.references.length + 1 := by
    have hle := (filter_sublist (p := (· ∉ [spec.root])) (l := spec.references.dedup)).length_le
    have hdedup := (dedup_sublist spec.references).length_le
    unfold Spec.left
    rw [length_singleton]
    omega
  obtain ⟨hiff, hreach⟩ := treeLoop_clean (spec.references.length + 1) [spec.root] [spec.root]
    (nodup_singleton _) (List.Subset.refl _) hleft
  unfold treeIssues
  by_cases hmissing : spec.find spec.root = .missing
  · simp [hmissing]
  · rw [if_neg hmissing]
    dsimp only
    simp only [append_eq_nil_iff, map_eq_nil_iff, filter_eq_nil_iff, decide_not,
      Bool.not_eq_true', decide_eq_false_iff_not, not_not, hiff]
    constructor
    · rintro ⟨⟨hbutton, order, hwaiting⟩, horphans⟩
      refine ⟨hmissing, fun htype => ?_, order, hwaiting.preorder, hwaiting.once, fun id hid => ?_⟩
      · rw [if_pos htype] at hbutton
        cases hbutton
      · have hreached := (hreach order hwaiting id).mp (horphans id hid)
        cases hreached with
        | inl hroot => exact hwaiting.preorder.sublist.subset hroot
        | inr hin => exact hin
    · rintro ⟨-, hbutton, order, hpre, honce, hall⟩
      have hwaiting : Waiting spec [spec.root] [spec.root] order := ⟨hpre, honce, fun _ _ hin => hin⟩
      refine ⟨⟨if_neg hbutton, order, hwaiting⟩, fun id hid => ?_⟩
      exact (hreach order hwaiting id).mpr (.inr (hall hid))

theorem rooted_walk_iff (hids : spec.ids.Nodup) (hroot : spec.root ∈ spec.ids)
    (hclosed : ∀ id ∈ spec.ids, ∀ child ∈ spec.children id, child ∈ spec.ids) :
    (∃ order, Preorder (fun id => (spec.children id).reverse) [spec.root] order ∧ order.Nodup ∧
      spec.ids ⊆ order) ↔ Rooted spec.ids spec.children spec.root := by
  constructor
  · rintro ⟨order, hpre, honce, hall⟩
    obtain ⟨order', hperm, hpre'⟩ := hpre.mirror
    have hsub : order ⊆ spec.ids := by
      intro id hid
      obtain ⟨other, hother, hpath⟩ := hpre'.reached (hperm.mem_iff.mpr hid)
      obtain rfl := mem_singleton.mp hother
      clear hid
      induction hpath with
      | refl => exact hroot
      | tail _ hchild ih => exact hclosed _ ih _ hchild
    have hnodes : order.Perm spec.ids :=
      (perm_ext_iff_of_nodup honce hids).mpr fun id => ⟨fun hid => hsub hid, fun hid => hall hid⟩
    exact .of_preorder hpre' hids (hperm.trans hnodes)
  · intro h
    obtain ⟨order, hpre, hperm⟩ := h.preorder hids
    have hback : (fun id => ((spec.children id).reverse).reverse) = spec.children := by
      funext id
      exact reverse_reverse _
    rw [← hback] at hpre
    obtain ⟨order', hperm', hpre'⟩ := hpre.mirror
    have hnodes := hperm'.trans hperm
    exact ⟨order', hpre', hnodes.nodup_iff.mpr hids, hnodes.symm.subset⟩

end Gateway

end OpenOmni
