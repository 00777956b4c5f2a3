import Mathlib
import OpenOmni.Channels.SendAdmission
import OpenOmni.Lib.LossyUtf8

/-! Encoded components keep their texts apart, and so do components joined by a colon. -/
namespace OpenOmni
namespace Egress
open LossyUtf8 (encode)
open List

lemma loop_eq (bytes : ByteArray) (i : ℕ) (read : List UInt8) (h : i ≤ bytes.size) :
    ByteArray.toList.loop bytes i read = read.reverse ++ bytes.data.toList.drop i := by
  induction hleft : bytes.size - i generalizing i read with
  | zero =>
    have hend : i = bytes.data.toList.length := by
      rw [Array.length_toList]
      change _ = bytes.size
      omega
    rw [ByteArray.toList.loop, if_neg (by omega), hend, drop_length, append_nil]
  | succ left ih =>
    have hlt : i < bytes.data.toList.length := by
      rw [Array.length_toList]
      change _ < bytes.size
      omega
    rw [ByteArray.toList.loop, if_pos (by omega), ih (i + 1) _ (by omega) (by omega), drop_eq_getElem_cons hlt,
      reverse_cons, append_assoc]
    have hget : bytes.get! i = bytes.data.toList[i] := by
      have hsize : i < bytes.data.size := by rwa [Array.length_toList] at hlt
      unfold ByteArray.get!
      rw [Array.getElem_toList]
      exact getElem!_pos bytes.data i hsize
    rw [hget]
    rfl

lemma toList_toUTF8 (c : Char) : c.toString.toUTF8.toList = String.utf8EncodeChar c := by
  have hbytes : c.toString.toUTF8 = (String.utf8EncodeChar c).toByteArray := by
    rw [String.toUTF8_eq_toByteArray, ← List.utf8Encode_singleton]
    exact String.toByteArray_singleton
  unfold ByteArray.toList
  rw [loop_eq _ _ _ (Nat.zero_le _), hbytes, toList_data_toByteArray]
  rfl

def byteText (b : UInt8) : List Char := ['%', hexDigit (b.toNat / 16), hexDigit (b.toNat % 16)]

def componentText (c : Char) : List Char := if uriUnreserved c then [c] else (String.utf8EncodeChar c).flatMap byteText

lemma toList_encodeURIComponent (s : String) : (encodeURIComponent s).toList = s.toList.flatMap componentText := by
  unfold encodeURIComponent
  rw [String.toList_join, flatMap_map]
  refine flatMap_congr fun c _ => ?_
  unfold componentText
  split_ifs
  · exact String.toList_singleton c
  · rw [String.toList_join, flatMap_map, toList_toUTF8]
    exact flatMap_congr fun b _ => String.toList_ofList

def hexValue (c : Char) : ℕ := if c.toNat < 58 then c.toNat - 48 else c.toNat - 55

def readBytes : List Char → List UInt8
  | '%' :: high :: low :: rest => UInt8.ofNat (hexValue high * 16 + hexValue low) :: readBytes rest
  | c :: rest => UInt8.ofNat c.toNat :: readBytes rest
  | [] => []

lemma hexValue_hexDigit : ∀ n < 16, hexValue (hexDigit n) = n := by decide

lemma readBytes_byteText (b : UInt8) (rest : List Char) : readBytes (byteText b ++ rest) = b :: readBytes rest := by
  have hb := b.toNat_lt
  change UInt8.ofNat (hexValue (hexDigit (b.toNat / 16)) * 16 + hexValue (hexDigit (b.toNat % 16))) :: readBytes rest = _
  rw [hexValue_hexDigit _ (by omega), hexValue_hexDigit _ (by omega), Nat.div_add_mod', UInt8.ofNat_toNat]

lemma readBytes_flatMap (bytes : List UInt8) (rest : List Char) :
    readBytes (bytes.flatMap byteText ++ rest) = bytes ++ readBytes rest := by
  induction bytes with
  | nil => rfl
  | cons b bytes ih => rw [flatMap_cons, append_assoc, readBytes_byteText, ih, cons_append]

lemma unreserved_lt {c : Char} (h : uriUnreserved c = true) : c.toNat < 0x80 ∧ c ≠ '%' ∧ c ≠ ':' := by
  unfold uriUnreserved at h
  rcases Bool.or_eq_true_iff.mp h with halphanum | hmark
  · have hrange : (65 ≤ c.toNat ∧ c.toNat ≤ 90 ∨ 97 ≤ c.toNat ∧ c.toNat ≤ 122) ∨ 48 ≤ c.toNat ∧ c.toNat ≤ 57 := by
      simpa [Char.isAlphanum, Char.isAlpha, Char.isUpper, Char.isLower, Char.isDigit, UInt32.le_iff_toNat_le] using halphanum
    refine ⟨by omega, ?_, ?_⟩
    · rintro rfl
      revert hrange
      decide
    · rintro rfl
      revert hrange
      decide
  · have hall : ("-_.!~*'()".toList.all fun mark => mark.toNat < 0x80 && mark ≠ '%' && mark ≠ ':') = true := by rfl
    have hmarked := all_eq_true.mp hall c (of_decide_eq_true hmark)
    simp only [Bool.and_eq_true, decide_eq_true_eq, and_assoc] at hmarked
    exact hmarked

lemma readBytes_componentText (c : Char) (rest : List Char) :
    readBytes (componentText c ++ rest) = String.utf8EncodeChar c ++ readBytes rest := by
  unfold componentText
  split_ifs with hplain
  · obtain ⟨hlt, hpercent, -⟩ := unreserved_lt hplain
    rw [LossyUtf8.encodeChar_of_lt hlt, singleton_append, singleton_append, readBytes]
    intro high low rest' heq
    exact absurd heq hpercent
  · exact readBytes_flatMap _ _

lemma readBytes_encode (text : List Char) : readBytes (text.flatMap componentText) = encode text := by
  induction text with
  | nil => rfl
  | cons c text ih => rw [flatMap_cons, readBytes_componentText, ih, LossyUtf8.encode_cons]

lemma encodeURIComponent_injective : Function.Injective encodeURIComponent := by
  intro s t h
  have hbytes : encode s.toList = encode t.toList := by
    rw [← readBytes_encode, ← readBytes_encode, ← toList_encodeURIComponent, ← toList_encodeURIComponent, h]
  have htext := congrArg LossyUtf8.decode hbytes
  rw [LossyUtf8.decode_encode, LossyUtf8.decode_encode] at htext
  exact String.toList_inj.mp htext

lemma colon_not_mem (s : String) : ':' ∉ (encodeURIComponent s).toList := by
  have hdigit : ∀ n < 16, hexDigit n ≠ ':' := by decide
  have hbyte : ∀ b : UInt8, ':' ∉ byteText b := by
    intro b hmem
    have hb := b.toNat_lt
    simp only [byteText, mem_cons, not_mem_nil, or_false] at hmem
    rcases hmem with hmem | hmem | hmem
    · exact absurd hmem (by decide)
    · exact hdigit _ (by omega) hmem.symm
    · exact hdigit _ (by omega) hmem.symm
  rw [toList_encodeURIComponent]
  intro hmem
  obtain ⟨c, -, hc⟩ := mem_flatMap.mp hmem
  unfold componentText at hc
  split_ifs at hc with hplain
  · exact (unreserved_lt hplain).2.2 (mem_singleton.mp hc).symm
  · obtain ⟨b, -, hb⟩ := mem_flatMap.mp hc
    exact hbyte b hb

def joinComponents (components : List String) : String := ":".intercalate (components.map encodeURIComponent)

theorem joinComponents_inj {components components' : List String} (h : components ≠ []) (h' : components' ≠ []) :
    joinComponents components = joinComponents components' ↔ components = components' := by
  refine ⟨fun heq => ?_, congrArg joinComponents⟩
  have htext := congrArg String.toList heq
  unfold joinComponents at htext
  rw [String.toList_intercalate, String.toList_intercalate] at htext
  have hne : ∀ {l : List String}, l ≠ [] → (l.map encodeURIComponent).map String.toList ≠ [] := by
    intro l hl
    simpa using hl
  have hpieces : ∀ l : List String, Joined.pieces ':' ((l.map encodeURIComponent).map String.toList) =
      (l.map encodeURIComponent).map String.toList := fun l => by
    refine Joined.pieces_of_not_mem ':' fun word hword => ?_
    obtain ⟨text, htext, rfl⟩ := mem_map.mp hword
    obtain ⟨component, -, rfl⟩ := mem_map.mp htext
    exact colon_not_mem component
  have hwords := (Joined.intercalate_eq_iff ':' (hne h) (hne h')).mp htext
  rw [hpieces, hpieces, map_map, map_map] at hwords
  refine map_injective_iff.mpr (fun s t hst => ?_) hwords
  exact encodeURIComponent_injective (String.toList_inj.mp hst)

end Egress
end OpenOmni
