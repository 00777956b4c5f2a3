import Mathlib.Data.List.Infix

/-! Wildcard entries of the blacklist: the parts between the stars are found from left to right. -/
namespace OpenOmni
namespace Blacklist
open List

variable {α : Type*} [DecidableEq α]

/-- `indexOf` of a part that is not empty: the first place from the offset on at which it stands. -/
def indexOf (text part : List α) (offset : ℕ) : Option ℕ :=
  (List.range (text.length + 1)).find? fun i => offset ≤ i && part.isPrefixOf (text.drop i)

/-- The loop over the parts: the offset behind the last one, where all are found. -/
def findParts (candidate : List α) (index offset : ℕ) : List (List α) → Option ℕ
  | [] => some offset
  | part :: parts =>
    if part = [] then findParts candidate (index + 1) offset parts
    else match indexOf candidate part offset with
      | none => none
      | some found =>
        if index = 0 ∧ found ≠ 0 then none else findParts candidate (index + 1) (found + part.length) parts

/-- `wildcardMatches` over the letters of the two texts, with the letter that is the star. -/
def wildcardMatches (star : α) (pattern candidate : List α) : Bool :=
  let parts := pattern.splitOn star
  if pattern = [star] then true
  else if parts.length = 1 then pattern = candidate
  else (findParts candidate 0 0 parts).isSome && ((parts.getLast?).getD []).isSuffixOf candidate

/-- The candidate is the pattern with a text, which may be empty, in the place of each star. -/
inductive Instance (star : α) : List α → List α → Prop
  | nil : Instance star [] []
  | star {pattern candidate : List α} (filling : List α) (h : Instance star pattern candidate) :
      Instance star (star :: pattern) (filling ++ candidate)
  | letter {c : α} {pattern candidate : List α} (hc : c ≠ star) (h : Instance star pattern candidate) :
      Instance star (c :: pattern) (c :: candidate)

variable {star : α} {pattern candidate part last : List α} {parts : List (List α)} {index offset found : ℕ}

lemma indexOf_eq_none (hpart : part ≠ []) (h : indexOf candidate part offset = none) {i : ℕ} (hi : offset ≤ i) :
    ¬ part <+: candidate.drop i := by
  intro hpre
  have hlt : i < candidate.length := by
    by_contra hge
    rw [drop_eq_nil_of_le (Nat.le_of_not_lt hge), prefix_nil] at hpre
    exact hpart hpre
  have hnot := find?_eq_none.mp h i (mem_range.mpr (by omega))
  simp [hi, hpre] at hnot

lemma indexOf_eq_some (h : indexOf candidate part offset = some found) :
    offset ≤ found ∧ part <+: candidate.drop found ∧ ∀ i, offset ≤ i → part <+: candidate.drop i → found ≤ i := by
  obtain ⟨hfound, -, hleast⟩ := find?_range_eq_some.mp h
  rw [Bool.and_eq_true, decide_eq_true_eq, isPrefixOf_iff_prefix] at hfound
  refine ⟨hfound.1, hfound.2, fun i hi hpre => ?_⟩
  by_contra hlt
  have hnot := hleast i (Nat.lt_of_not_le hlt)
  rw [decide_eq_true hi, isPrefixOf_iff_prefix.mpr hpre] at hnot
  cases hnot

variable (candidate) in
/-- The parts stand one behind the other from an offset on, with anything between them, and the last ends the text. -/
def Stand (offset : ℕ) : List (List α) → Prop
  | [] => offset = candidate.length
  | part :: parts => ∃ i, offset ≤ i ∧ part <+: candidate.drop i ∧ Stand (i + part.length) parts

omit [DecidableEq α] in
lemma Stand.le (h : Stand candidate offset parts) : offset ≤ candidate.length := by
  induction parts generalizing offset with
  | nil => exact Nat.le_of_eq h
  | cons part parts ih =>
    obtain ⟨i, hi, -, hrest⟩ := h
    have hle := ih hrest
    omega

/-- The rest of a text is an instance of a pattern where the first part heads it and the others stand behind. -/
lemma instance_drop_iff (star : α) (pattern : List α) (hoffset : offset ≤ candidate.length) :
    Instance star pattern (candidate.drop offset) ↔ ∃ first rest, pattern.splitOn star = first :: rest ∧
      first <+: candidate.drop offset ∧ Stand candidate (offset + first.length) rest := by
  induction pattern generalizing offset with
  | nil =>
    constructor
    · intro h
      refine ⟨[], [], rfl, nil_prefix, ?_⟩
      cases hdrop : candidate.drop offset with
      | nil => exact le_antisymm hoffset (drop_eq_nil_iff.mp hdrop)
      | cons c rest =>
        rw [hdrop] at h
        cases h
    · rintro ⟨first, rest, hsplit, -, hstand⟩
      cases hsplit
      have hend : candidate.length = offset := hstand.symm
      rw [drop_eq_nil_of_le (Nat.le_of_eq hend)]
      exact .nil
  | cons c pattern ih =>
    obtain ⟨first, rest, hsplit⟩ := exists_cons_of_ne_nil (splitOn_ne_nil star pattern)
    rw [splitOn_cons_eq_if_modifyHead, hsplit]
    by_cases hc : c = star
    · subst hc
      rw [if_pos (beq_self_eq_true c)]
      constructor
      · intro h
        refine ⟨[], _, rfl, nil_prefix, ?_⟩
        generalize htext : candidate.drop offset = text at h
        cases h with
        | letter hne _ => exact absurd rfl hne
        | @star _ inner filling hinner =>
          have hinner' : inner = candidate.drop (offset + filling.length) := by
            rw [← drop_drop, htext, drop_left]
          have hlength : offset + filling.length ≤ candidate.length := by
            have := congrArg List.length htext
            rw [length_drop, length_append] at this
            omega
          rw [hinner'] at hinner
          obtain ⟨first', rest', hsplit', hfirst, hstand⟩ := (ih hlength).mp hinner
          rw [hsplit] at hsplit'
          obtain ⟨rfl, rfl⟩ := List.cons.inj hsplit'
          exact ⟨_, Nat.le_add_right _ _, hfirst, hstand⟩
      · rintro ⟨_, _, heq, -, hstand⟩
        obtain ⟨rfl, rfl⟩ := List.cons.inj heq
        obtain ⟨i, hi, hfirst, hrest⟩ := hstand
        change offset ≤ i at hi
        have hle := hrest.le
        have hinner := (ih (by omega)).mpr ⟨first, rest, hsplit, hfirst, hrest⟩
        have hdrop : candidate.drop offset = (candidate.drop offset).take (i - offset) ++ candidate.drop i := by
          have hsplitAt := take_append_drop (i - offset) (candidate.drop offset)
          rw [drop_drop, Nat.add_sub_cancel' hi] at hsplitAt
          exact hsplitAt.symm
        rw [hdrop]
        exact .star _ hinner
    · rw [if_neg (by simpa using hc), modifyHead_cons]
      constructor
      · intro h
        refine ⟨c :: first, rest, rfl, ?_⟩
        generalize htext : candidate.drop offset = text at h
        cases h with
        | star => exact absurd rfl hc
        | @letter _ _ inner _ hinner =>
          have hinner' : inner = candidate.drop (offset + 1) := by
            rw [← drop_drop, htext, drop_one, tail_cons]
          have hlength : offset + 1 ≤ candidate.length := by
            have := congrArg List.length htext
            rw [length_drop, length_cons] at this
            omega
          rw [hinner'] at hinner
          obtain ⟨first', rest', hsplit', hfirst, hstand⟩ := (ih hlength).mp hinner
          rw [hsplit] at hsplit'
          obtain ⟨rfl, rfl⟩ := List.cons.inj hsplit'
          rw [hinner']
          refine ⟨cons_prefix_cons.mpr ⟨rfl, hfirst⟩, ?_⟩
          rwa [length_cons, Nat.add_comm first.length, ← Nat.add_assoc]
      · rintro ⟨_, _, heq, hpre, hstand⟩
        obtain ⟨rfl, rfl⟩ := List.cons.inj heq
        cases hdrop : candidate.drop offset with
        | nil =>
          rw [hdrop, prefix_nil] at hpre
          cases hpre
        | cons d inner =>
          rw [hdrop, cons_prefix_cons] at hpre
          obtain ⟨rfl, hfirst⟩ := hpre
          have hinner : inner = candidate.drop (offset + 1) := by
            rw [← drop_drop, hdrop, drop_one, tail_cons]
          rw [length_cons, Nat.add_comm first.length, ← Nat.add_assoc] at hstand
          have hle := hstand.le
          rw [hinner] at hfirst ⊢
          exact .letter hc ((ih (by omega)).mpr ⟨first, rest, hsplit, hfirst, hstand⟩)

omit [DecidableEq α] in
lemma Stand.mono (hparts : parts ≠ []) (h : Stand candidate found parts) (hle : offset ≤ found) : Stand candidate offset parts := by
  cases parts with
  | nil => exact absurd rfl hparts
  | cons part parts =>
    obtain ⟨i, hi, hrest⟩ := h
    exact ⟨i, hle.trans hi, hrest⟩

lemma stand_cons_iff (hparts : parts ≠ []) (h : indexOf candidate part offset = some found) :
    Stand candidate offset (part :: parts) ↔ Stand candidate (found + part.length) parts := by
  obtain ⟨hfound, hpre, hleast⟩ := indexOf_eq_some h
  constructor
  · rintro ⟨i, hi, hstands, hrest⟩
    exact hrest.mono hparts (Nat.add_le_add_right (hleast i hi hstands) _)
  · exact fun hrest => ⟨found, hfound, hpre, hrest⟩

lemma stand_iff (hindex : index ≠ 0) (hoffset : offset ≤ candidate.length) (parts : List (List α)) (last : List α) :
    Stand candidate offset (parts ++ [last]) ↔
      (findParts candidate index offset (parts ++ [last])).isSome = true ∧ last <:+ candidate := by
  induction parts generalizing index offset with
  | nil =>
    rw [nil_append]
    unfold findParts
    constructor
    · rintro ⟨i, hi, hpre, hend⟩
      have hlast : last = candidate.drop i := by
        refine hpre.eq_of_length ?_
        have hlength : i + last.length = candidate.length := hend
        rw [length_drop]
        omega
      refine ⟨?_, hlast ▸ drop_suffix i candidate⟩
      split_ifs with hempty
      · rfl
      · split
        · rename_i hnone
          exact absurd hpre (indexOf_eq_none hempty hnone hi)
        · rw [if_neg fun h => hindex h.1]
          rfl
    · rintro ⟨hsome, hsuffix⟩
      have hlength := hsuffix.length_le
      refine ⟨candidate.length - last.length, ?_, ?_, ?_⟩
      · split_ifs at hsome with hempty
        · rw [hempty, length_nil]
          omega
        · split at hsome
          · cases hsome
          · rename_i found hfound
            obtain ⟨hle, hpre, -⟩ := indexOf_eq_some hfound
            have hshort := hpre.length_le
            have hpos := length_pos_of_ne_nil hempty
            rw [length_drop] at hshort
            omega
      · rw [← suffix_iff_eq_drop.mp hsuffix]
      · change candidate.length - last.length + last.length = candidate.length
        omega
  | cons part parts ih =>
    have hparts : parts ++ [last] ≠ [] := append_ne_nil_of_right_ne_nil _ (cons_ne_nil _ _)
    rw [cons_append]
    unfold findParts
    split_ifs with hempty
    · subst hempty
      rw [← ih (Nat.succ_ne_zero index) hoffset]
      constructor
      · rintro ⟨i, hi, -, hrest⟩
        exact hrest.mono hparts hi
      · exact fun hrest => ⟨offset, le_rfl, nil_prefix, hrest⟩
    · cases hfound : indexOf candidate part offset with
      | none =>
        refine iff_of_false ?_ (fun h => nomatch h.1)
        rintro ⟨i, hi, hpre, -⟩
        exact indexOf_eq_none hempty hfound hi hpre
      | some found =>
        have hlength := (indexOf_eq_some hfound).2.1.length_le
        have hpos := length_pos_of_ne_nil hempty
        rw [length_drop] at hlength
        dsimp only
        rw [stand_cons_iff hparts hfound, if_neg fun h => hindex h.1, ih (Nat.succ_ne_zero index) (by omega)]

/-- A wildcard matches exactly the texts that it becomes when each star is replaced by some text. -/
theorem wildcardMatches_iff (star : α) (pattern candidate : List α) :
    wildcardMatches star pattern candidate = true ↔ Instance star pattern candidate := by
  obtain ⟨first, rest, hsplit⟩ := exists_cons_of_ne_nil (splitOn_ne_nil star pattern)
  have hinstance : Instance star pattern candidate ↔ first <+: candidate ∧ Stand candidate first.length rest := by
    have hiff := instance_drop_iff star pattern (Nat.zero_le candidate.length)
    rw [drop_zero, hsplit] at hiff
    rw [hiff]
    constructor
    · rintro ⟨_, _, heq, hfirst, hstand⟩
      obtain ⟨rfl, rfl⟩ := List.cons.inj heq
      rw [Nat.zero_add] at hstand
      exact ⟨hfirst, hstand⟩
    · rintro ⟨hfirst, hstand⟩
      exact ⟨first, rest, rfl, hfirst, (Nat.zero_add _).symm ▸ hstand⟩
  unfold wildcardMatches
  rw [hsplit]
  dsimp only
  split_ifs with hstar hone
  · subst hstar
    have hany : Instance star [star] (candidate ++ []) := .star candidate .nil
    rw [append_nil] at hany
    exact iff_of_true rfl hany
  · have hrest : rest = [] := eq_nil_of_length_eq_zero (Nat.succ.inj hone)
    have hfirst : pattern = first := by
      have hjoin : [star].intercalate (pattern.splitOn star) = pattern := intercalate_splitOn star
      rw [hsplit, hrest, intercalate_singleton] at hjoin
      exact hjoin.symm
    rw [hinstance, hrest, decide_eq_true_eq, hfirst]
    constructor
    · rintro rfl
      exact ⟨prefix_rfl, rfl⟩
    · rintro ⟨hpre, hend⟩
      exact hpre.eq_of_length hend
  · have hrest : rest ≠ [] := fun hnil => hone (by rw [hnil]; rfl)
    obtain ⟨parts, last, rfl⟩ := (eq_nil_or_concat' rest).resolve_left hrest
    rw [← cons_append, getLast?_concat, cons_append, hinstance, Bool.and_eq_true,
      isSuffixOf_iff_suffix, Option.getD_some]
    unfold findParts
    by_cases hempty : first = []
    · subst hempty
      rw [if_pos rfl, ← stand_iff Nat.one_ne_zero (Nat.zero_le _), and_iff_right nil_prefix]
      rfl
    · rw [if_neg hempty]
      cases hfound : indexOf candidate first 0 with
      | none =>
        refine iff_of_false (fun h => nomatch h.1) fun h => ?_
        exact indexOf_eq_none hempty hfound (Nat.zero_le 0) h.1
      | some found =>
        obtain ⟨-, hpre, hleast⟩ := indexOf_eq_some hfound
        dsimp only
        by_cases hzero : found = 0
        · subst hzero
          have hlength := hpre.length_le
          rw [drop_zero] at hpre hlength
          rw [if_neg fun h => h.2 rfl, Nat.zero_add, Nat.zero_add, ← stand_iff Nat.one_ne_zero hlength, and_iff_right hpre]
        · rw [if_pos ⟨rfl, hzero⟩]
          refine iff_of_false (fun h => nomatch h.1) fun h => hzero ?_
          exact Nat.le_zero.mp (hleast 0 le_rfl h.1)

end Blacklist
end OpenOmni
