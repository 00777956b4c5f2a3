import Mathlib
import OpenOmni.Compaction.Summary

/-! Time markers: the date of a recorded message has the form that the marker's grammar asks for. -/
namespace OpenOmni
namespace Compaction
open List

open Message

def Dated (createdMs : ℚ) : Prop := -62167219200000 ≤ createdMs ∧ createdMs < 253402300800000

lemma dayOfYear_bounds {doe leap century era year : ℤ} (hlow : 0 ≤ doe) (hhigh : doe ≤ 146096)
    (hleap : leap = doe / 1460) (hcentury : century = doe / 36524) (hera : era = doe / 146096)
    (hyear : year = (doe - leap + century - era) / 365) :
    0 ≤ doe - (365 * year + year / 4 - year / 100) ∧ doe - (365 * year + year / 4 - year / 100) ≤ 365 := by
  have hdrop : century - era ≤ leap ∧ leap - (century - era) ≤ 100 := by omega
  -- a leap day every four years, but for the centuries
  have hfour : year / 4 ≤ leap ∧ leap ≤ year / 4 + 1 := by omega
  have hcent : year / 100 = century - era := by
    have hrange : 0 ≤ century ∧ century ≤ 4 := by omega
    clear hdrop hfour
    obtain ⟨hrange, hrange'⟩ := hrange
    interval_cases century <;> omega
  omega

lemma civilDate_bounds (day : ℤ) (hlow : -719528 ≤ day) (hhigh : day < 2932897) :
    0 ≤ (civilDate day).1 ∧ (civilDate day).1 ≤ 9999 ∧ 0 ≤ (civilDate day).2.1 ∧ (civilDate day).2.1 ≤ 12 ∧
      0 ≤ (civilDate day).2.2 ∧ (civilDate day).2.2 ≤ 31 := by
  unfold civilDate
  dsimp only
  generalize hz : day + 719468 = z
  generalize hera : z / 146097 = era
  generalize hdoe : z % 146097 = doe
  generalize hyear : (doe - doe / 1460 + doe / 36524 - doe / 146096) / 365 = year
  have hdoy := dayOfYear_bounds (by omega) (by omega) rfl rfl rfl hyear.symm
  have hyears : 0 ≤ year ∧ year ≤ 399 := by omega
  -- the first and the last era are cut at the ends of the years
  have hfirst : 0 ≤ era ∨ era = -1 ∧ 146037 ≤ doe := by omega
  have hlast : era < 24 ∨ era = 24 ∧ doe < 146037 := by omega
  have hend : 146037 ≤ doe ↔ 306 ≤ doe - (365 * year + year / 4 - year / 100) ∧ year = 399 := by omega
  generalize doe - (365 * year + year / 4 - year / 100) = doy at hdoy hend ⊢
  generalize hmp : (5 * doy + 2) / 153 = mp
  have hmonth : 0 ≤ mp ∧ mp ≤ 11 := by omega
  have hturn : 306 ≤ doy ↔ 10 ≤ mp := by omega
  have hday : 0 ≤ doy - (153 * mp + 2) / 5 + 1 ∧ doy - (153 * mp + 2) / 5 + 1 ≤ 31 := by omega
  clear hz hera hdoe hyear hmp
  refine ⟨?_, ?_, ?_, ?_, hday⟩ <;> split_ifs <;> omega

lemma padded_shape (width n : ℕ) (hwidth : 0 < width) (hn : n < 10 ^ width) :
    (padded width n).length = width ∧ ∀ c ∈ padded width n, c.isDigit = true := by
  have hlen : (Nat.toDigits 10 n).length ≤ width := (Nat.length_toDigits_le_iff (by decide) hwidth).mpr hn
  refine ⟨?_, fun c hc => ?_⟩
  · change (List.replicate _ '0' ++ Nat.toDigits 10 n).length = width
    rw [length_append, length_replicate]
    omega
  · rcases mem_append.mp hc with hc | hc
    · rw [eq_of_mem_replicate hc]
      rfl
    · exact Nat.isDigit_of_mem_toDigits (by decide) (by decide) hc

lemma isRecordedLine_of_shape {year month day : List Char} (hy : year.length = 4) (hm : month.length = 2)
    (hd : day.length = 2) (hdigits : ∀ c ∈ year ++ (month ++ day), c.isDigit = true) :
    isRecordedLine ("[recorded ".toList ++ (year ++ '-' :: (month ++ '-' :: day) ++ [']'])) = true := by
  match year, month, day, hy, hm, hd with
  | [y1, y2, y3, y4], [m1, m2], [d1, d2], _, _, _ =>
    simp only [cons_append, nil_append, forall_mem_cons] at hdigits
    simp [isRecordedLine, hdigits]

lemma isoDate_shape {createdMs : ℚ} {date : List Char} (hdated : Dated createdMs) (h : isoDate createdMs = some date) :
    ∃ year month day : List Char, year.length = 4 ∧ month.length = 2 ∧ day.length = 2 ∧
      (∀ c ∈ year ++ (month ++ day), c.isDigit = true) ∧ date = year ++ '-' :: (month ++ '-' :: day) := by
  unfold isoDate at h
  dsimp only at h
  generalize hms : (if 0 ≤ createdMs then ⌊createdMs⌋ else ⌈createdMs⌉) = ms at h
  have hrange : -62167219200000 ≤ ms ∧ ms < 253402300800000 := by
    obtain ⟨hlow, hhigh⟩ := hdated
    rw [← hms]
    split_ifs with hpos
    · have hfloor : (0 : ℤ) ≤ ⌊createdMs⌋ := Int.floor_nonneg.mpr hpos
      refine ⟨by omega, Int.floor_lt.mpr (by exact_mod_cast hhigh)⟩
    · have hceil : ⌈createdMs⌉ ≤ 0 := Int.ceil_le.mpr (by push_cast; linarith)
      refine ⟨?_, by omega⟩
      have hle : ((-62167219200000 : ℤ) : ℚ) ≤ (⌈createdMs⌉ : ℚ) := by
        refine le_trans ?_ (Int.le_ceil createdMs)
        push_cast
        exact hlow
      exact_mod_cast hle
  obtain ⟨hy0, hy, hm0, hm, hd0, hd⟩ := civilDate_bounds (ms / 86400000) (by omega) (by omega)
  generalize civilDate (ms / 86400000) = civil at h hy0 hy hm0 hm hd0 hd
  obtain ⟨year, month, day⟩ := civil
  dsimp only at h hy0 hy hm0 hm hd0 hd
  rw [if_neg (by omega), if_pos ⟨hy0, hy⟩] at h
  obtain ⟨hylen, hydigits⟩ := padded_shape 4 year.toNat (by decide) (by omega)
  obtain ⟨hmlen, hmdigits⟩ := padded_shape 2 month.toNat (by decide) (by omega)
  obtain ⟨hdlen, hddigits⟩ := padded_shape 2 day.toNat (by decide) (by omega)
  refine ⟨padded 4 year.toNat, padded 2 month.toNat, padded 2 day.toNat, hylen, hmlen, hdlen, ?_, ?_⟩
  · intro c hc
    rcases mem_append.mp hc with hc | hc
    · exact hydigits c hc
    · rcases mem_append.mp hc with hc | hc
      · exact hmdigits c hc
      · exact hddigits c hc
  · rw [← Option.some.inj h, take_of_length_le]
    simp only [length_append, length_cons, hylen, hmlen, hdlen]
    omega

lemma isRecordedLine_renderTimeMarker {createdMs : ℚ} {text : String} (hdated : Dated createdMs)
    (h : renderTimeMarker createdMs = some text) : isRecordedLine text.toList = true := by
  obtain ⟨date, hdate, rfl⟩ := Option.map_eq_some_iff.mp h
  obtain ⟨year, month, day, hy, hm, hd, hdigits, rfl⟩ := isoDate_shape hdated hdate
  rw [String.toList_ofList]
  exact isRecordedLine_of_shape hy hm hd hdigits

def timeTagged : Part → Bool
  | .text _ _ _ metadata => flagged "timeCarriage" metadata && flagged "policyInjected" metadata
  | _ => false

/-- A message with at most one time marker, of the closed grammar, and of a time that has one. -/
structure Marked (message : WithParts) : Prop where
  closed : ∀ part ∈ message.parts, timeTagged part = true → isTimeCarriageMarkerPart part = true
  once : message.parts.countP timeTagged ≤ 1
  dated : isUser message = true → isAnchorMessage message = false → Dated message.info.created

lemma marked_stampTimeMarker {message out : WithParts} {id : String} (h : Marked message)
    (hdated : Dated message.info.created) (hstamp : stampTimeMarker message id = some out) : Marked out := by
  obtain ⟨text, htext, rfl⟩ := Option.map_eq_some_iff.mp hstamp
  have hmarker := isRecordedLine_renderTimeMarker hdated htext
  refine ⟨?_, ?_, fun _ _ => hdated⟩
  · intro part hpart htagged
    rcases mem_cons.mp hpart with rfl | hpart
    · simp [isTimeCarriageMarkerPart, hmarker, flagged, List.lookup]
    · exact h.closed part (mem_filter.mp hpart).1 htagged
  · -- what was tagged was a marker, and is filtered out
    have hnone : (message.parts.filter fun part => !isTimeCarriageMarkerPart part).countP timeTagged = 0 := by
      rw [countP_eq_zero]
      intro part hpart htagged
      obtain ⟨hmem, hnot⟩ := mem_filter.mp hpart
      rw [h.closed part hmem htagged] at hnot
      cases hnot
    change List.countP timeTagged (_ :: _) ≤ 1
    rw [countP_cons, hnone]
    split_ifs <;> omega

end Compaction
end OpenOmni
