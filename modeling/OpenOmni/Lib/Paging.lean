import Mathlib

/-! Reading a keyed list page by page, each page from the last key of the one before. -/
namespace Paging
open List

variable {α κ : Type*} [LinearOrder κ] (key : α → κ)

def behind (items : List α) (cursor : κ) : List α := items.filter fun a => cursor < key a

def pages (items : List α) (limit : ℕ) : ℕ → κ → List α
  | 0, _ => []
  | fuel + 1, cursor =>
    let page := (behind key items cursor).take limit
    if page.length < limit then page
    else page ++ pages items limit fuel ((page.getLast?.map key).getD cursor)

variable {key} {items : List α} {limit : ℕ}

variable {cursor : κ}

theorem behind_last {front rest : List α} {last : α} (hsorted : items.Pairwise fun a b => key a < key b)
    (h : behind key items cursor = front ++ [last] ++ rest) : behind key items (key last) = rest := by
  have hlast : cursor < key last := by
    have hmem : last ∈ behind key items cursor := by simp [h]
    simpa using (mem_filter.mp hmem).2
  have hfilter : behind key items (key last) = (behind key items cursor).filter fun a => key last < key a := by
    unfold behind
    rw [filter_filter]
    apply filter_congr
    intro a _
    by_cases ha : key last < key a
    · simp [ha, hlast.trans ha]
    · simp [ha]
  have hpairs : (front ++ [last] ++ rest).Pairwise fun a b => key a < key b := by
    rw [← h]
    exact hsorted.filter _
  rw [append_assoc, pairwise_append] at hpairs
  obtain ⟨-, hback, hcross⟩ := hpairs
  have hfront : (front ++ [last]).filter (fun a => key last < key a) = [] := by
    rw [filter_eq_nil_iff]
    intro a ha
    rcases mem_append.mp ha with ha | ha
    · have hbefore := hcross a ha last (by simp)
      simpa using hbefore.le
    · obtain rfl := mem_singleton.mp ha
      simp
  have hrest : rest.filter (fun a => key last < key a) = rest := by
    rw [filter_eq_self]
    intro a ha
    rw [singleton_append, pairwise_cons] at hback
    simpa using hback.1 a ha
  rw [hfilter, h, filter_append, hfront, hrest, nil_append]

theorem pages_eq {fuel : ℕ} (hsorted : items.Pairwise fun a b => key a < key b) (hlimit : 0 < limit)
    (hfuel : (behind key items cursor).length < fuel) :
    pages key items limit fuel cursor = behind key items cursor := by
  induction fuel generalizing cursor with
  | zero => omega
  | succ fuel ih =>
    unfold pages
    dsimp only
    split
    · rename_i hshort
      rw [length_take] at hshort
      exact take_of_length_le (by omega)
    · rename_i hfull
      rw [length_take] at hfull
      have hne : (behind key items cursor).take limit ≠ [] := by
        intro hnil
        have hlength := congrArg List.length hnil
        rw [length_take, length_nil] at hlength
        omega
      obtain ⟨front, last, hpage⟩ : ∃ front last, (behind key items cursor).take limit = front ++ [last] :=
        ⟨_, _, (dropLast_append_getLast hne).symm⟩
      have hsplit : behind key items cursor = front ++ [last] ++ (behind key items cursor).drop limit := by
        rw [← hpage, take_append_drop]
      have hnext := behind_last hsorted hsplit
      rw [hpage, getLast?_append_cons]
      have hlen : (behind key items (key last)).length < fuel := by
        rw [hnext, length_drop]
        omega
      simp only [getLast?_singleton, Option.map_some, Option.getD_some]
      rw [ih hlen, hnext, ← hsplit]

section
variable {β : Type*} (key) (decode : α → Option β)

/-- The last item that decodes, from page to page until one of which fewer than `limit` items decode. -/
def lastDecoded (items : List α) (limit : ℕ) : ℕ → κ → Option β → Option β
  | 0, _, latest => latest
  | fuel + 1, cursor, latest =>
    let page := (behind key items cursor).take limit
    let found := page.filterMap decode
    if found.length < limit then found.getLast?.or latest
    else lastDecoded items limit fuel ((page.getLast?.map key).getD cursor) (found.getLast?.or latest)

/-- No item that decodes stands on a later page than one that does not. -/
def DecodesInFront (limit : ℕ) (items : List α) : Prop :=
  ∀ i j damaged later, i / limit < j / limit → items[i]? = some damaged → items[j]? = some later →
    decode damaged = none → decode later = none

variable {key} {decode}

lemma decodes_of_full {page : List α} (h : page.length ≤ (page.filterMap decode).length) :
    ∀ a ∈ page, decode a ≠ none := by
  intro a ha hnone
  have hlt := length_filterMap_lt_length_iff_exists.mpr ⟨a, ha, hnone⟩
  omega

variable {front rest : List α} {latest : Option β}

lemma getLast?_filterMap_or : ((front ++ rest).filterMap decode).getLast?.or latest =
      (rest.filterMap decode).getLast?.or ((front.filterMap decode).getLast?.or latest) := by
  rw [filterMap_append, getLast?_append, Option.or_assoc]

theorem decodesInFront_append_of_short (hlimit : 0 < limit) (hlength : front.length ≤ limit)
    (hrest : front.length < limit → rest = []) (hshort : (front.filterMap decode).length < limit) :
    DecodesInFront decode limit (front ++ rest) ↔ rest.filterMap decode = [] := by
  constructor
  · intro h
    by_cases hfull : front.length = limit
    · obtain ⟨damaged, hdamaged, hnone⟩ := length_filterMap_lt_length_iff_exists.mp (hfull ▸ hshort)
      obtain ⟨i, hi, rfl⟩ := mem_iff_getElem.mp hdamaged
      rw [filterMap_eq_nil_iff]
      intro later hlater
      obtain ⟨j, hj, rfl⟩ := mem_iff_getElem.mp hlater
      refine h i (front.length + j) _ _ ?_ ?_ ?_ hnone
      · rw [Nat.div_eq_of_lt (by omega), hfull, Nat.add_div_left _ hlimit]
        exact Nat.succ_pos _
      · rw [getElem?_append_left hi, getElem?_eq_getElem hi]
      · rw [getElem?_append_right (by omega), Nat.add_sub_cancel_left, getElem?_eq_getElem hj]
    · rw [hrest (by omega)]
      rfl
  · intro hnil i j damaged later hpage _ hlater _
    have hj : limit ≤ j := by
      by_contra hj
      have hzero : j / limit = 0 := Nat.div_eq_of_lt (by omega)
      rw [hzero] at hpage
      exact absurd hpage (Nat.not_lt_zero _)
    rw [getElem?_append_right (by omega)] at hlater
    exact filterMap_eq_nil_iff.mp hnil later (mem_of_getElem? hlater)

theorem decodesInFront_append_of_full (hlimit : 0 < limit) (hlength : front.length = limit)
    (hfull : ∀ a ∈ front, decode a ≠ none) :
    DecodesInFront decode limit (front ++ rest) ↔ DecodesInFront decode limit rest := by
  constructor
  · intro h i j damaged later hpage hdamaged hlater
    refine h (front.length + i) (front.length + j) damaged later ?_ ?_ ?_
    · rw [hlength, Nat.add_div_left _ hlimit, Nat.add_div_left _ hlimit]
      omega
    · rwa [getElem?_append_right (by omega), Nat.add_sub_cancel_left]
    · rwa [getElem?_append_right (by omega), Nat.add_sub_cancel_left]
  · intro h i j damaged later hpage hdamaged hlater hnone
    have hi : front.length ≤ i := by
      by_contra hi
      rw [getElem?_append_left (by omega)] at hdamaged
      exact hfull damaged (mem_of_getElem? hdamaged) hnone
    have hj : front.length ≤ j := by
      by_contra hj
      have hsmall : j / limit ≤ i / limit := Nat.div_le_div_right (by omega)
      omega
    obtain ⟨i, rfl⟩ := Nat.exists_eq_add_of_le hi
    obtain ⟨j, rfl⟩ := Nat.exists_eq_add_of_le hj
    rw [getElem?_append_right hi, Nat.add_sub_cancel_left] at hdamaged
    rw [getElem?_append_right hj, Nat.add_sub_cancel_left] at hlater
    rw [hlength, Nat.add_div_left _ hlimit, Nat.add_div_left _ hlimit] at hpage
    exact h i j damaged later (by omega) hdamaged hlater hnone

theorem latest_eq_iff (h : ∀ a ∈ rest, ∀ b, decode a = some b → latest ≠ some b) :
    latest = (rest.filterMap decode).getLast?.or latest ↔ rest.filterMap decode = [] := by
  constructor
  · intro heq
    by_contra hne
    have hlast := getLast?_eq_some_getLast hne
    rw [hlast, Option.some_or] at heq
    obtain ⟨a, ha, hdecode⟩ := mem_filterMap.mp (getLast_mem hne)
    exact h a ha _ hdecode heq
  · intro hnil
    rw [hnil]
    rfl

/-- Reading page by page finds the last item that decodes exactly when none that does stands on a later page than one
that does not. -/
theorem lastDecoded_eq_iff {fuel : ℕ} {cursor : κ} (hsorted : items.Pairwise fun a b => key a < key b)
    (hlimit : 0 < limit) (hinj : ∀ a ∈ items, ∀ a' ∈ items, ∀ b, decode a = some b → decode a' = some b → a = a')
    (hlatest : ∀ a ∈ behind key items cursor, ∀ b, decode a = some b → latest ≠ some b)
    (hfuel : (behind key items cursor).length < fuel) : lastDecoded key decode items limit fuel cursor latest =
        ((behind key items cursor).filterMap decode).getLast?.or latest ↔
      DecodesInFront decode limit (behind key items cursor) := by
  induction fuel generalizing cursor latest with
  | zero => omega
  | succ fuel ih =>
    have hsplit := take_append_drop limit (behind key items cursor)
    have hpairs : (behind key items cursor).Pairwise fun a b => key a < key b := hsorted.filter _
    rw [← hsplit, pairwise_append] at hpairs
    obtain ⟨-, -, hcross⟩ := hpairs
    have hmem : ∀ a ∈ behind key items cursor, a ∈ items := fun a ha => mem_of_mem_filter ha
    -- what the page leaves as the latest is no item behind it
    have hnew : ∀ a ∈ (behind key items cursor).drop limit, ∀ b, decode a = some b →
        (((behind key items cursor).take limit).filterMap decode).getLast?.or latest ≠ some b := by
      intro a ha b hdecode heq
      cases hlast : (((behind key items cursor).take limit).filterMap decode).getLast? with
      | none =>
        rw [hlast, Option.none_or] at heq
        exact hlatest a (mem_of_mem_drop ha) b hdecode heq
      | some c =>
        rw [hlast, Option.some_or] at heq
        obtain rfl := Option.some.inj heq
        obtain ⟨a', ha', hdecode'⟩ := mem_filterMap.mp (mem_of_getLast? hlast)
        have hlt := hcross a' ha' a ha
        rw [hinj a' (hmem a' (mem_of_mem_take ha')) a (hmem a (mem_of_mem_drop ha)) c hdecode' hdecode] at hlt
        exact lt_irrefl _ hlt
    unfold lastDecoded
    dsimp only
    split
    · rename_i hshort
      rw [← hsplit, getLast?_filterMap_or, hsplit, latest_eq_iff hnew]
      rw [← decodesInFront_append_of_short hlimit (length_take_le _ _) ?_ hshort, hsplit]
      intro hlength
      rw [length_take] at hlength
      exact drop_of_length_le (by omega)
    · rename_i hfull
      have hle := length_filterMap_le decode ((behind key items cursor).take limit)
      have hlength : ((behind key items cursor).take limit).length = limit := by
        have htake := length_take_le limit (behind key items cursor)
        omega
      have hne : (behind key items cursor).take limit ≠ [] := by
        intro hnil
        rw [hnil, length_nil] at hlength
        omega
      obtain ⟨front, last, hpage⟩ : ∃ front last, (behind key items cursor).take limit = front ++ [last] :=
        ⟨_, _, (dropLast_append_getLast hne).symm⟩
      have hnext : behind key items (key last) = (behind key items cursor).drop limit :=
        behind_last hsorted (by rw [← hpage, hsplit])
      have hcursor : ((((behind key items cursor).take limit).getLast?.map key).getD cursor) = key last := by
        rw [hpage, getLast?_append_cons]
        rfl
      have hdecodes : ∀ a ∈ (behind key items cursor).take limit, decode a ≠ none := decodes_of_full (by omega)
      have hfuel' : (behind key items (key last)).length < fuel := by
        rw [hnext, length_drop]
        rw [length_take] at hlength
        omega
      rw [hcursor, ← hsplit, getLast?_filterMap_or, decodesInFront_append_of_full hlimit hlength hdecodes, hsplit, ← hnext]
      exact ih (by rwa [hnext]) hfuel'

end

end Paging
