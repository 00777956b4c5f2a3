import Mathlib.Data.String.Basic
import OpenOmni.Lib.Joined

/-! Paths written with slashes: the names in them, and the lexical operations that never look at a directory. -/
namespace PosixPath
open List

def split (path : String) : List String := (path.toList.splitOn '/').map String.ofList

def join (segments : List String) : String := "/".intercalate segments

def isAbsolute (path : String) : Bool := path.toList.head? = some '/'

/-- A name that can only stand for a child of the directory it is looked up in. -/
def IsName (s : String) : Prop :=
  s ≠ "" ∧ s ≠ "." ∧ s ≠ ".." ∧ '/' ∉ s.toList ∧ Char.ofNat 0 ∉ s.toList

instance (s : String) : Decidable (IsName s) := inferInstanceAs (Decidable (_ ∧ _))

/-- A segment taken after the names before it: `..` takes the last one back. -/
def normalStep (done : List String) (segment : String) : List String :=
  if segment = "" ∨ segment = "." then done
  else if segment = ".." then done.dropLast
  else done ++ [segment]

def names (path : String) : List String := (split path).foldl normalStep []

def absolute (segments : List String) : String := "/" ++ join segments

/-- An absolute path without empty segments, `.` and `..`. -/
def resolve (path : String) : String := absolute (names path)

def sharedLength : List String → List String → ℕ
  | a :: as, b :: bs => if a = b then sharedLength as bs + 1 else 0
  | _, _ => 0

/-- The way from one absolute path to another: up to where they part, and down. -/
def relative (start target : String) : String :=
  let shared := sharedLength (names start) (names target)
  join (List.replicate ((names start).length - shared) ".." ++ (names target).drop shared)

lemma toList_join (segments : List String) :
    (join segments).toList = ['/'].intercalate (segments.map String.toList) := by
  unfold join
  rw [String.toList_intercalate]
  rfl

variable {α : Type*} {sep c : α} {word : List α} {path segment s : String} {segments start : List String}

theorem not_mem_of_mem_splitOn [BEq α] [LawfulBEq α] (sep : α) :
    ∀ (text word : List α), word ∈ text.splitOn sep → sep ∉ word
  | [], word, hword => by
    rw [splitOn_nil, mem_singleton] at hword
    rw [hword]
    exact not_mem_nil
  | x :: text, word, hword => by
    have ih := not_mem_of_mem_splitOn sep text
    rw [splitOn_cons_eq_if_modifyHead] at hword
    split at hword
    · rcases mem_cons.mp hword with rfl | hword
      · exact not_mem_nil
      · exact ih word hword
    · rename_i hne
      have hx : sep ≠ x := by
        rintro rfl
        simp at hne
      cases hpieces : text.splitOn sep with
      | nil => exact absurd hpieces (splitOn_ne_nil sep text)
      | cons first rest =>
        rw [hpieces, modifyHead_cons] at hword
        rcases mem_cons.mp hword with rfl | hword
        · have hfirst := ih first (by simp [hpieces])
          simp [hx, hfirst]
        · exact ih word (by simp [hpieces, hword])

lemma mem_intercalate_of_mem {words : List (List α)} (hword : word ∈ words) (hc : c ∈ word) :
    c ∈ [sep].intercalate words := by
  induction words with
  | nil => cases hword
  | cons first rest ih =>
    cases rest with
    | nil =>
      obtain rfl := mem_singleton.mp hword
      simpa using hc
    | cons next rest =>
      rw [intercalate_cons_cons]
      rcases mem_cons.mp hword with rfl | hword
      · simp [hc]
      · simp [ih hword]

theorem mem_of_mem_splitOn [BEq α] [LawfulBEq α] {text : List α} (hword : word ∈ text.splitOn sep) (hc : c ∈ word) :
    c ∈ text := by
  have hjoin : [sep].intercalate (text.splitOn sep) = text := intercalate_splitOn sep
  rw [← hjoin]
  exact mem_intercalate_of_mem hword hc

lemma not_mem_slash_of_mem_split (h : segment ∈ split path) : '/' ∉ segment.toList := by
  obtain ⟨word, hword, rfl⟩ := mem_map.mp h
  rw [String.toList_ofList]
  exact not_mem_of_mem_splitOn '/' _ word hword

lemma mem_of_mem_split {c : Char} (h : segment ∈ split path) (hc : c ∈ segment.toList) : c ∈ path.toList := by
  obtain ⟨word, hword, rfl⟩ := mem_map.mp h
  rw [String.toList_ofList] at hc
  exact mem_of_mem_splitOn hword hc

theorem isName_of_mem_split (hnull : Char.ofNat 0 ∉ path.toList) (h : segment ∈ split path) (hempty : segment ≠ "")
    (hdot : segment ≠ ".") (hdots : segment ≠ "..") : IsName segment :=
  ⟨hempty, hdot, hdots, not_mem_slash_of_mem_split h, fun hc => hnull (mem_of_mem_split h hc)⟩

theorem split_join (hne : segments ≠ []) (h : ∀ s ∈ segments, IsName s) : split (join segments) = segments := by
  have hwords : ∀ word ∈ segments.map String.toList, '/' ∉ word := by
    intro word hword
    obtain ⟨s, hs, rfl⟩ := mem_map.mp hword
    exact (h s hs).2.2.2.1
  unfold split
  rw [toList_join, splitOn_intercalate _ hwords (by simpa using hne), map_map]
  conv_rhs => rw [← map_id segments]
  apply map_congr_left
  intro s _
  simp

lemma normalStep_name (done : List String) (h : IsName s) : normalStep done s = done ++ [s] := by
  unfold normalStep
  rw [if_neg (by simp [h.1, h.2.1]), if_neg h.2.2.1]

lemma foldl_normalStep_names (segments done : List String) (h : ∀ s ∈ segments, IsName s) :
    segments.foldl normalStep done = done ++ segments := by
  induction segments generalizing done with
  | nil => simp
  | cons s segments ih =>
    rw [foldl_cons, normalStep_name done (h s mem_cons_self),
      ih _ fun t ht => h t (mem_cons_of_mem _ ht)]
    simp

lemma isName_foldl_normalStep {done : List String}
    (hsegments : ∀ s ∈ segments, s ≠ "" → s ≠ "." → s ≠ ".." → IsName s) (hdone : ∀ s ∈ done, IsName s) :
    ∀ s ∈ segments.foldl normalStep done, IsName s := by
  induction segments generalizing done with
  | nil => exact hdone
  | cons segment segments ih =>
    rw [foldl_cons]
    apply ih fun s hs => hsegments s (mem_cons_of_mem _ hs)
    intro s hs
    unfold normalStep at hs
    split at hs
    · exact hdone s hs
    · rename_i hplain
      split at hs
      · exact hdone s (dropLast_subset _ hs)
      · rename_i hdots
        rcases mem_append.mp hs with hs | hs
        · exact hdone s hs
        · obtain rfl := mem_singleton.mp hs
          rw [not_or] at hplain
          exact hsegments s mem_cons_self hplain.1 hplain.2 hdots

lemma isName_of_mem_names (hnull : Char.ofNat 0 ∉ path.toList) (h : s ∈ names path) : IsName s :=
  isName_foldl_normalStep (fun _ ht => isName_of_mem_split hnull ht) (by simp) s h

lemma split_absolute (segments : List String) : split (absolute segments) = "" :: split (join segments) := by
  unfold split absolute
  rw [String.toList_append]
  rfl

theorem names_absolute (h : ∀ s ∈ segments, IsName s) : names (absolute segments) = segments := by
  unfold names
  rw [split_absolute, foldl_cons]
  have hstart : normalStep [] "" = [] := rfl
  rw [hstart]
  by_cases hne : segments = []
  · subst hne
    rfl
  · rw [split_join hne h, foldl_normalStep_names segments [] h, nil_append]

lemma sharedLength_append (a rest : List String) : sharedLength a (a ++ rest) = a.length := by
  induction a with
  | nil => cases rest <;> rfl
  | cons x a ih =>
    rw [cons_append, sharedLength, if_pos rfl, ih, length_cons]

theorem relative_append {rest : List String} (hstart : ∀ s ∈ start, IsName s) (hrest : ∀ s ∈ rest, IsName s) :
    relative (absolute start) (absolute (start ++ rest)) = join rest := by
  have hall : ∀ s ∈ start ++ rest, IsName s := by
    intro s hs
    rcases mem_append.mp hs with hs | hs
    · exact hstart s hs
    · exact hrest s hs
  unfold relative
  rw [names_absolute hstart, names_absolute hall, sharedLength_append]
  simp

theorem exists_append_of_absolute_append {target : List String} {tail : List Char} (hstart : ∀ s ∈ start, IsName s)
    (hne : start ≠ []) (htarget : ∀ s ∈ target, IsName s)
    (h : (absolute target).toList = (absolute start).toList ++ '/' :: tail) : ∃ rest, target = start ++ rest := by
  have hsplit : (absolute target).toList.splitOn '/' = (absolute start).toList.splitOn '/' ++ tail.splitOn '/' := by
    rw [h, splitOn_append_cons_self]
  have hpieces : split (absolute target) = split (absolute start) ++ (tail.splitOn '/').map String.ofList := by
    unfold split
    rw [hsplit, map_append]
  rw [split_absolute, split_absolute, split_join hne hstart, cons_append, List.cons.injEq] at hpieces
  have htargetNe : target ≠ [] := by
    rintro rfl
    have hlength := congrArg List.length hpieces.2
    cases start with
    | nil => exact hne rfl
    | cons s start =>
      simp [split, join] at hlength
  rw [split_join htargetNe htarget] at hpieces
  exact ⟨_, hpieces.2⟩

theorem getLast?_absolute_ne_slash (hne : segments ≠ []) (h : ∀ s ∈ segments, IsName s) :
    (absolute segments).toList.getLast? ≠ some '/' := by
  intro hlast
  obtain ⟨text, htext⟩ := getLast?_eq_some_iff.mp hlast
  have hpieces : split (absolute segments) = (text.splitOn '/').map String.ofList ++ [""] := by
    unfold split
    rw [htext, splitOn_append_cons_self, map_append]
    rfl
  obtain ⟨others, last, rfl⟩ := (eq_nil_or_concat' segments).resolve_left hne
  rw [split_absolute, split_join hne h, ← cons_append] at hpieces
  have hempty := singleton_injective (append_inj_right' hpieces rfl)
  exact (h last (by simp)).1 hempty

end PosixPath
