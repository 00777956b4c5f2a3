import OpenOmni.Lib.Binary64
import OpenOmni.Lib.Dict
import Mathlib.Data.Nat.Digits.Defs

/-! JSON values and texts as the language has them: strings of code units, binary64 numbers, `String` of a number,
the quoting of `JSON.stringify`, and `JSON.parse`. -/
namespace OpenOmni

open Binary64 (IsNumber Decimal shortest nearest)

abbrev JsString := List ℕ

def ascii (s : String) : JsString := s.toList.map Char.toNat

inductive JsNumber where
  | finite (value : ℚ) (isNumber : IsNumber value)
  | negZero
  | infinity (negative : Bool)
  | nan

/-- A value of the language; an object lists its own enumerable string keys. -/
inductive JsValue where
  | undefined
  | null
  | bool (b : Bool)
  | num (x : JsNumber)
  | str (s : JsString)
  | arr (items : List JsValue)
  | obj (fields : List (JsString × JsValue))
  | exotic
  /-- A function, a symbol or a bigint, by its `typeof`. -/
  | other (type : JsString)

namespace Json

def digitsText (n : ℕ) : JsString := (Nat.digits 10 n).reverse.map (48 + ·)

/-- `Number::toString` of a positive number, from its digits. -/
def decimalText (d : Decimal) : JsString :=
  let digits := digitsText d.digits
  let point := d.exponent + digits.length
  if digits.length ≤ point ∧ point ≤ 21 then digits ++ List.replicate (point - digits.length).toNat 48
  else if 0 < point ∧ point ≤ 21 then digits.take point.toNat ++ 46 :: digits.drop point.toNat
  else if -6 < point ∧ point ≤ 0 then 48 :: 46 :: (List.replicate (-point).toNat 48 ++ digits)
  else
    digits.take 1 ++ (if digits.length = 1 then [] else 46 :: digits.drop 1) ++
      101 :: (if point - 1 < 0 then 45 else 43) :: digitsText (point - 1).natAbs

/-- `String` of a number. -/
def numberText : JsNumber → JsString
  | .finite value h =>
    if hpos : 0 < value then decimalText (shortest value h hpos)
    else if hneg : value < 0 then 45 :: decimalText (shortest (-value) h.neg (neg_pos.mpr hneg))
    else [48]
  | .negZero => [48]
  | .infinity negative => if negative then ascii "-Infinity" else ascii "Infinity"
  | .nan => ascii "NaN"

def isLead (u : ℕ) : Bool := 0xD800 ≤ u && u ≤ 0xDBFF

def isTrail (u : ℕ) : Bool := 0xDC00 ≤ u && u ≤ 0xDFFF

def hexDigit (d : ℕ) : ℕ := if d < 10 then 48 + d else 87 + d

def unicodeEscape (u : ℕ) : JsString :=
  [92, 117, hexDigit (u / 4096 % 16), hexDigit (u / 256 % 16), hexDigit (u / 16 % 16), hexDigit (u % 16)]

/-- A code unit that is no half of a pair, as `QuoteJSONString` writes it. -/
def quoteUnit (u : ℕ) : JsString :=
  if u = 8 then [92, 98]
  else if u = 9 then [92, 116]
  else if u = 10 then [92, 110]
  else if u = 12 then [92, 102]
  else if u = 13 then [92, 114]
  else if u = 34 then [92, 34]
  else if u = 92 then [92, 92]
  else if u < 32 || isLead u || isTrail u then unicodeEscape u
  else [u]

def quoteUnits : JsString → JsString
  | [] => []
  | [u] => quoteUnit u
  | u :: v :: rest => if isLead u && isTrail v then u :: v :: quoteUnits rest else quoteUnit u ++ quoteUnits (v :: rest)

/-- `JSON.stringify` of a string. -/
def quote (s : JsString) : JsString := 34 :: (quoteUnits s ++ [34])

def isSpace (u : ℕ) : Bool := u = 32 || u = 9 || u = 10 || u = 13

def skipSpace (text : JsString) : JsString := text.dropWhile isSpace

def isDigit (u : ℕ) : Bool := 48 ≤ u && u ≤ 57

def ofDigits (digits : JsString) : ℕ := digits.foldl (fun n u => n * 10 + (u - 48)) 0

def toNumber (negative : Bool) (value : ℚ) : JsNumber :=
  match h : nearest value with
  | none => .infinity negative
  | some r =>
    if negative then
      if r = 0 then .negZero else .finite (-r) (Binary64.isNumber_of_nearest h).neg
    else .finite r (Binary64.isNumber_of_nearest h)

def readFraction : JsString → Option (JsString × JsString)
  | 46 :: rest =>
    let digits := rest.takeWhile isDigit
    if digits = [] then none else some (digits, rest.dropWhile isDigit)
  | text => some ([], text)

def readExponentDigits (negative : Bool) (text : JsString) : Option (ℤ × JsString) :=
  let digits := text.takeWhile isDigit
  if digits = [] then none
  else some (if negative then -(ofDigits digits : ℤ) else ofDigits digits, text.dropWhile isDigit)

def readExponent : JsString → Option (ℤ × JsString)
  | u :: rest =>
    if u = 101 ∨ u = 69 then
      match rest with
      | 45 :: rest => readExponentDigits true rest
      | 43 :: rest => readExponentDigits false rest
      | rest => readExponentDigits false rest
    else some (0, u :: rest)
  | [] => some (0, [])

/-- A number without its sign: digits without a leading zero, a fraction, an exponent. -/
def readUnsigned (negative : Bool) (text : JsString) : Option (JsNumber × JsString) := do
  let whole := text.takeWhile isDigit
  guard (whole ≠ [] ∧ (whole.head? = some 48 → whole.length = 1))
  let (fraction, text) ← readFraction (text.dropWhile isDigit)
  let (exponent, text) ← readExponent text
  return (toNumber negative (ofDigits (whole ++ fraction) * 10 ^ (exponent - fraction.length)), text)

def readNumber : JsString → Option (JsNumber × JsString)
  | 45 :: text => readUnsigned true text
  | text => readUnsigned false text

def hexValue (u : ℕ) : Option ℕ :=
  if 48 ≤ u ∧ u ≤ 57 then some (u - 48)
  else if 97 ≤ u ∧ u ≤ 102 then some (u - 87)
  else if 65 ≤ u ∧ u ≤ 70 then some (u - 55)
  else none

/-- The code unit behind `\u`. -/
def readHex (a b c d : ℕ) : Option ℕ := do
  return (((← hexValue a) * 16 + (← hexValue b)) * 16 + (← hexValue c)) * 16 + (← hexValue d)

def simpleEscape (u : ℕ) : Option ℕ :=
  if u = 34 ∨ u = 92 ∨ u = 47 then some u
  else if u = 98 then some 8
  else if u = 102 then some 12
  else if u = 110 then some 10
  else if u = 114 then some 13
  else if u = 116 then some 9
  else none

def consUnit (u : Option ℕ) (read : Option (JsString × JsString)) : Option (JsString × JsString) := do
  let u ← u
  let (s, rest) ← read
  return (u :: s, rest)

def readUnits : JsString → Option (JsString × JsString)
  | [] => none
  | 34 :: rest => some ([], rest)
  | 92 :: 117 :: a :: b :: c :: d :: rest => consUnit (readHex a b c d) (readUnits rest)
  | 92 :: u :: rest => consUnit (simpleEscape u) (readUnits rest)
  | u :: rest => if u < 32 ∨ u = 92 then none else consUnit (some u) (readUnits rest)

mutual
def readValue : ℕ → JsString → Option (JsValue × JsString)
  | 0, _ => none
  | fuel + 1, text =>
    match skipSpace text with
    | 110 :: 117 :: 108 :: 108 :: rest => some (.null, rest)
    | 116 :: 114 :: 117 :: 101 :: rest => some (.bool true, rest)
    | 102 :: 97 :: 108 :: 115 :: 101 :: rest => some (.bool false, rest)
    | 34 :: rest => (readUnits rest).map fun read => (.str read.1, read.2)
    | 91 :: rest =>
      match skipSpace rest with
      | 93 :: rest => some (.arr [], rest)
      | rest => (readItems fuel rest).map fun read => (.arr read.1, read.2)
    | 123 :: rest =>
      match skipSpace rest with
      | 125 :: rest => some (.obj [], rest)
      | rest => (readMembers fuel rest).map fun read => (.obj (Dict.ofEntries read.1).entries, read.2)
    | text => (readNumber text).map fun read => (.num read.1, read.2)
def readItems : ℕ → JsString → Option (List JsValue × JsString)
  | 0, _ => none
  | fuel + 1, text => do
    let (item, text) ← readValue fuel text
    match skipSpace text with
    | 44 :: rest => (readItems fuel rest).map fun read => (item :: read.1, read.2)
    | 93 :: rest => some ([item], rest)
    | _ => none
/-- The members of an object up to its closing brace; a key that comes again takes the later value. -/
def readMembers : ℕ → JsString → Option (List (JsString × JsValue) × JsString)
  | 0, _ => none
  | fuel + 1, text =>
    match skipSpace text with
    | 34 :: rest => do
      let (key, text) ← readUnits rest
      match skipSpace text with
      | 58 :: rest => do
        let (item, text) ← readValue fuel rest
        match skipSpace text with
        | 44 :: rest => (readMembers fuel rest).map fun read => ((key, item) :: read.1, read.2)
        | 125 :: rest => some ([(key, item)], rest)
        | _ => none
      | _ => none
    | _ => none
end

/-- `JSON.parse`; `none` is a `SyntaxError`. A value takes at least a character, so the text's length is fuel enough. -/
def parse (text : JsString) : Option JsValue := do
  let (value, rest) ← readValue (text.length + 1) text
  guard (skipSpace rest = [])
  return value

end Json
end OpenOmni
