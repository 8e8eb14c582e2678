set_option autoImplicit false

/-! # Digits

The digits of bases up to sixteen: `0` to `9`, then the letters `a` to `f` in either case. No
character outside the ASCII range is a digit. -/

namespace TextGrammar.Text

/-- The value of a hexadecimal digit, and sixteen for any other character. -/
def hexValue (c : Char) : Nat :=
  if '0' ≤ c ∧ c ≤ '9' then c.toNat - '0'.toNat
  else if 'a' ≤ c ∧ c ≤ 'f' then c.toNat - 'a'.toNat + 10
  else if 'A' ≤ c ∧ c ≤ 'F' then c.toNat - 'A'.toNat + 10
  else 16

/-- The value of a digit of the given base, which is sixteen at most. -/
def digitValue? (base : Nat) (c : Char) : Option Nat :=
  if hexValue c < base then some (hexValue c) else none

/-- The value of a text of decimal digits. -/
def decimalValue (digits : List Char) : Nat :=
  digits.foldl (fun value c => value * 10 + hexValue c) 0

end TextGrammar.Text
