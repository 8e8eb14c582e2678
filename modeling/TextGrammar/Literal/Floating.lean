import TextGrammar.Literal.Binary64
import TextGrammar.Text.Digit

set_option autoImplicit false

/-! # Floating-point numerals

A numeral is an optional sign followed by `inf`, `infinity` or `nan` in any letter case, or by
digits with an optional point among, before or after them and an optional exponent. Its value is the
nearest binary64 number. -/

namespace TextGrammar.Literal

/-- Why a text is no numeral. -/
inductive FloatingError where
  | empty
  | invalid
deriving DecidableEq, Repr

def FloatingError.message : FloatingError → String
  | .empty => "cannot parse float from empty string"
  | .invalid => "invalid float literal"

/-- An optional sign: whether it is a minus, and the text after it. -/
def takeSign : List Char → Bool × List Char
  | '-' :: rest => (true, rest)
  | '+' :: rest => (false, rest)
  | text => (false, text)

/-- The exponent after its letter: an optional sign and at least one digit, and nothing else. -/
def readExponent? (text : List Char) : Option Int :=
  let (negative, digits) := takeSign text
  if digits.isEmpty || !digits.all Char.isDigit then none
  else
    let magnitude : Int := Text.decimalValue digits
    some (if negative then -magnitude else magnitude)

/-- The end of a numeral: nothing, or an exponent. -/
def readScale? : List Char → Option Int
  | [] => some 0
  | 'e' :: rest => readExponent? rest
  | 'E' :: rest => readExponent? rest
  | _ => none

/-- The digits after a point, if there is one, and the text after them. -/
def takeFraction : List Char → List Char × List Char
  | '.' :: rest => rest.span Char.isDigit
  | text => ([], text)

/-- The bits of an unsigned numeral in digits. -/
def readDecimal? (text : List Char) : Option Nat :=
  let (whole, rest) := text.span Char.isDigit
  let (fraction, rest) := takeFraction rest
  if whole.isEmpty && fraction.isEmpty then none
  else (readScale? rest).map fun scale =>
    decimalBits (Text.decimalValue (whole ++ fraction)) (scale - fraction.length)

/-- The bits of an unsigned numeral that is a name. -/
def readName? (text : List Char) : Option Nat :=
  let name := String.ofList (text.map Char.toLower)
  if name = "inf" ∨ name = "infinity" then some infinityBits
  else if name = "nan" then some 0x7ff8000000000000
  else none

/-- The bit of the sign. -/
def signBit : Nat := 0x8000000000000000

/-- The number that a floating-point numeral stands for. -/
def readFloating (text : List Char) : Except FloatingError Float :=
  if text.isEmpty then .error .empty
  else
    let (negative, magnitude) := takeSign text
    match (readDecimal? magnitude).or (readName? magnitude) with
    | none => .error .invalid
    | some bits => .ok (Float.ofBits (UInt64.ofNat (if negative then signBit + bits else bits)))

end TextGrammar.Literal
