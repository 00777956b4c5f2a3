import OpenOmni.Protocol.CanonicalJson
import OpenOmni.Protocol.JsonBytes
import Mathlib.Data.List.GetD

/-! Tool outputs over the budget: stored once under their digest, with a bounded preview in their place. -/
namespace OpenOmni
namespace ToolOutput
open List Json LossyUtf8

structure ToolOutputRef where
  outputId : JsString
  bytes : ℕ
  mediaType : String
  preview : JsString

/-- A write through `ports.put`. -/
structure Put where
  outputId : JsString
  bytes : List UInt8
  mediaType : String

def continuation (b : UInt8) : Bool := b.toNat / 64 = 2

def width (b : UInt8) : ℕ := if b < 0x80 then 1 else if b < 0xE0 then 2 else if b < 0xF0 then 3 else 4

def marker (outputId : JsString) (bytes : ℕ) : JsString :=
  ascii "\n[output " ++ outputId ++ ascii s!": {bytes} bytes; read with tool_output(\"" ++ outputId ++ ascii "\")]"

section Model
variable (canonicalDigest : JsValue → JsString) (budgetBytes : ℕ)

/-- The row of a result: its value, or the reference and the key kept beside it. -/
inductive ResultRow where
  | whole (value : JsValue)
  | stored (outputRef : ToolOutputRef) (revert : Option JsValue)

end Model

def toolOutput (stored : Put) : JsString := textDecode stored.bytes

variable {text : List Char} {n : ℕ}

/-- A stored text is all there, under the id that the content names, beside a preview that begins as it does. -/
structure Stores (budgetBytes : ℕ) (text : List Char) (outputRef : ToolOutputRef) (put : Put) : Prop where
  id : put.outputId = outputRef.outputId
  bytes : outputRef.bytes = (encode text).length
  preview : ∃ part, part <+: text ∧ outputRef.preview = codeUnits part
  within : (textEncode (outputRef.preview ++ marker outputRef.outputId outputRef.bytes)).length +
    (textEncode outputRef.preview).length ≤ budgetBytes
  readBack : toolOutput put = codeUnits text

lemma textsFields_iff {fields : List (JsString × JsValue)} :
    TextsFields fields ↔ ∀ field ∈ fields, (∀ u ∈ field.1, u < 0x10000) ∧ Texts field.2 := by
  induction fields with
  | nil => simp [TextsFields]
  | cons field fields ih => rw [TextsFields, ih, forall_mem_cons, and_assoc]

mutual
lemma texts_sortedKeys : ∀ {v : JsValue}, Texts v → Texts (sortedKeys v)
  | .undefined, h | .null, h | .bool _, h | .num _, h | .str _, h | .exotic, h | .other _, h => h
  | .arr _, h => textsItems_sorted h
  | .obj fields, h => textsFields_iff.mpr fun field hfield =>
    textsFields_iff.mp (textsFields_sorted h) field ((sorted_perm (sortedFields fields)).mem_iff.mp hfield)
lemma textsItems_sorted : ∀ {items : List JsValue}, TextsItems items → TextsItems (sortedItems items)
  | [], _ => trivial
  | _ :: _, h => ⟨texts_sortedKeys h.1, textsItems_sorted h.2⟩
lemma textsFields_sorted : ∀ {fields : List (JsString × JsValue)}, TextsFields fields →
    TextsFields (sortedFields fields)
  | [], _ => trivial
  | (_, _) :: _, h => ⟨h.1, texts_sortedKeys h.2.1, textsFields_sorted h.2.2⟩
end

namespace OutputSample

def digest (_ : JsValue) : JsString := ascii "sha256:0"

end OutputSample

end ToolOutput
end OpenOmni
