import Mathlib

/-! Texts as the language has them: lengths and leading parts in UTF-16 code units, and the white
space that `trim` takes off. -/
namespace OpenOmni
namespace Utf16

def units (c : Char) : ℕ := if c.toNat < 0x10000 then 1 else 2

def length (text : String) : ℕ := (text.toList.map units).sum

def codeUnitsOf (c : Char) : List ℕ :=
  if c.toNat < 0x10000 then [c.toNat]
  else [0xD800 + (c.toNat - 0x10000) / 0x400, 0xDC00 + (c.toNat - 0x10000) % 0x400]

def codeUnits (text : String) : List ℕ := text.toList.flatMap codeUnitsOf

/-- The first `n` units; half of a character is replaced. -/
def takeChars : ℕ → List Char → List Char
  | _, [] => []
  | 0, _ => []
  | n + 1, c :: text => if units c ≤ n + 1 then c :: takeChars (n + 1 - units c) text else ['\uFFFD']

def take (n : ℕ) (text : String) : String := .ofList (takeChars n text.toList)

def isSpace (c : Char) : Bool :=
  c ∈ ['\t', '\n', '\x0b', '\x0c', '\r', ' ', '\u00a0', '\u1680', '\u2028', '\u2029', '\u202f', '\u205f', '\u3000', '\ufeff']
    || 0x2000 ≤ c.toNat && c.toNat ≤ 0x200a

def trimChars (text : List Char) : List Char := ((text.dropWhile isSpace).reverse.dropWhile isSpace).reverse

def trim (text : String) : String := .ofList (trimChars text.toList)

end Utf16
end OpenOmni
