set_option autoImplicit false

/-! # Rounding to binary64

A positive fraction is rounded to the nearest binary64 number, a fraction half way between two of
them to the one with the even mantissa. All of it is exact arithmetic on natural numbers; only the
sixty-four bits of the result are a machine word. -/

namespace TextGrammar.Literal

/-- The quotient of two numbers, rounded to the nearest whole number, a half to the even one. -/
def roundedQuotient (num den : Nat) : Nat :=
  let whole := num / den
  let rest := num % den
  if 2 * rest < den ∨ (2 * rest = den ∧ whole % 2 = 0) then whole else whole + 1

/-- The largest `k` with `2 ^ k ≤ num / den`, for positive numbers. -/
def logFraction (num den : Nat) : Int :=
  let guess : Int := (num.log2 : Int) - (den.log2 : Int)
  if den <<< guess.toNat ≤ num <<< (-guess).toNat then guess else guess - 1

/-- The bits of infinity. -/
def infinityBits : Nat := 0x7ff0000000000000

/-- The bits of the binary64 number nearest to a positive fraction. The mantissa is counted in
units of `2 ^ exponent`; a mantissa that rounding carries to the next power of two moves the
exponent field by itself, and whatever passes the largest finite number is infinity. -/
def binary64Bits (num den : Nat) : Nat :=
  -- fifty-three digits of the mantissa, or fewer near zero
  let exponent := max (logFraction num den - 52) (-1074)
  let mantissa := roundedQuotient (num <<< (-exponent).toNat) (den <<< exponent.toNat)
  min infinityBits ((exponent + 1074).toNat <<< 52 + mantissa)

/-- The bits of `digits` times the power of ten `exponent`. Powers so far out that the result is
zero or infinite in any case are not computed. -/
def decimalBits (digits : Nat) (exponent : Int) : Nat :=
  if digits = 0 then 0
  else if exponent > 400 then infinityBits
  else if exponent + (digits.log2 : Int) < -1200 then 0
  else binary64Bits (digits * Nat.pow 10 exponent.toNat) (Nat.pow 10 (-exponent).toNat)

end TextGrammar.Literal
