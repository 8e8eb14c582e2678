import TextGrammar.Text.Digit

set_option autoImplicit false

/-! # Signed 32-bit numerals

A numeral is an optional sign and at least one digit of its base. Its value has to fit into a signed
32-bit number, and the digits are checked from left to right, so the first fault in the text is the
one reported: a numeral that has grown too large is refused before a character behind it is seen. -/

namespace TextGrammar.Literal

/-- Why a text is no numeral. -/
inductive IntegerError where
  | empty
  | invalidDigit
  | tooLarge
  | tooSmall
deriving DecidableEq, Repr

def IntegerError.message : IntegerError → String
  | .empty => "cannot parse integer from empty string"
  | .invalidDigit => "invalid digit found in string"
  | .tooLarge => "number too large to fit in target type"
  | .tooSmall => "number too small to fit in target type"

/-- The largest signed 32-bit number. -/
def maxInt32 : Int := 2147483647

/-- The smallest signed 32-bit number. -/
def minInt32 : Int := -2147483648

/-- Appends digits to a number; those of a negative numeral count downwards. -/
def appendDigits (base : Nat) (negative : Bool) : Int → List Char → Except IntegerError Int
  | value, [] => .ok value
  | value, c :: rest =>
    match Text.digitValue? base c with
    | none => .error .invalidDigit
    | some d =>
      -- the smallest number is the negative of none, so no number is negated
      let next := if negative then value * base - d else value * base + d
      if next > maxInt32 then .error .tooLarge
      else if next < minInt32 then .error .tooSmall
      else appendDigits base negative next rest

/-- The number that a numeral of the given base stands for. -/
def readInteger (base : Nat) (text : List Char) : Except IntegerError Int :=
  match text with
  | [] => .error .empty
  | ['+'] => .error .invalidDigit
  | ['-'] => .error .invalidDigit
  | '+' :: digits => appendDigits base false 0 digits
  | '-' :: digits => appendDigits base true 0 digits
  | digits => appendDigits base false 0 digits

end TextGrammar.Literal
