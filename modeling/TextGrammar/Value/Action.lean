import TextGrammar.Literal.Escape
import TextGrammar.Literal.Floating
import TextGrammar.Literal.Integer
import TextGrammar.Value.Basic

set_option autoImplicit false

/-! # Actions on values

What a grammar does with the values of its parsers: it turns them into others, which may be refused,
or puts the values of a repetition together. -/

namespace TextGrammar

/-! ## Conversions that are never refused -/

/-- The left-nested pair of three values as a triple. -/
def flatten {α β γ : Type} : (α × β) × γ → α × β × γ
  | ((a, b), c) => (a, b, c)

/-- A conversion of values. -/
inductive Conversion where
  | id
  /-- The length of a text or a list. -/
  | len
  /-- A text or a list from back to front. -/
  | rev
  /-- The code of the first character. -/
  | code
  /-- Three values in pairs as a triple. -/
  | flatten
  /-- The value behind another one. -/
  | tag (t : Value)

/-- What a conversion makes of a value. -/
def Conversion.apply : Conversion → Value → Value
  | .id, v => v
  | .len, .str s => .int s.length
  | .len, .list vs => .int vs.length
  | .len, _ => .int (-1)
  | .rev, .str s => .str (String.ofList s.toList.reverse)
  | .rev, .list vs => .list vs.reverse
  | .rev, v => v
  | .code, .str s =>
    match s.toList with
    | c :: _ => .int c.toNat
    | [] => .int (-1)
  | .code, _ => .int (-1)
  | .flatten, .pair (.pair a b) c =>
    let (a, b, c) := TextGrammar.flatten ((a, b), c)
    .triple a b c
  | .flatten, v => v
  | .tag t, v => .pair t v

/-! ## Conversions that may be refused -/

/-- The largest signed 64-bit number. -/
def maxInt64 : Int := 9223372036854775807

/-- The smallest signed 64-bit number. -/
def minInt64 : Int := -9223372036854775808

/-- A number, if it is a signed 64-bit one. -/
def checkedInt64 (message : String) (n : Int) : Except String Int :=
  if minInt64 ≤ n ∧ n ≤ maxInt64 then .ok n else .error message

/-- One step of a calculation in signed 64-bit numbers. Whatever is no sum, difference or product is
a quotient, which is rounded towards zero. -/
def calculate (op : String) (m n : Int) : Except String Int :=
  if op = "+" then checkedInt64 "overflow" (m + n)
  else if op = "-" then checkedInt64 "overflow" (m - n)
  else if op = "*" then checkedInt64 "overflow" (m * n)
  else if n = 0 then .error "division by zero"
  else checkedInt64 "division by zero" (m.tdiv n)

/-- A number, and operators with their second operands, from left to right. -/
def calculateAll : Int → List Value → Except String Int
  | m, [] => .ok m
  | m, .pair (.str op) (.int n) :: rest =>
    match calculate op m n with
    | .ok result => calculateAll result rest
    | .error message => .error message
  | _, _ => .error "shape"

/-- A conversion of values that may be refused. -/
inductive Checked where
  /-- The number of a decimal numeral. -/
  | digits
  /-- The number of an octal numeral. -/
  | octal
  /-- The number of a hexadecimal numeral. -/
  | hex
  /-- The number of a floating-point numeral. -/
  | float
  /-- The text of a string literal. -/
  | literal (dialect : Literal.Dialect)
  /-- Refuses everything. -/
  | fail
  /-- Refuses an empty text or list. -/
  | nonempty
  /-- One of two equal values. -/
  | same
  /-- The result of a calculation. -/
  | calculation

/-- A conversion of texts, which refuses all other values. -/
def onText (f : List Char → Except String Value) : Value → Except String Value
  | .str s => f s.toList
  | _ => .error "not a string"

/-- The number of a numeral. -/
def integerValue (base : Nat) (text : List Char) : Except String Value :=
  ((Literal.readInteger base text).map .int).mapError Literal.IntegerError.message

/-- What a conversion makes of a value, or why it refuses it. -/
def Checked.apply : Checked → Value → Except String Value
  | .digits => onText (integerValue 10)
  | .octal => onText (integerValue 8)
  | .hex => onText (integerValue 16)
  | .float => onText fun text =>
    ((Literal.readFloating text).map .float).mapError Literal.FloatingError.message
  | .literal dialect => onText fun text =>
    ((Literal.decode dialect text).map (.str <| String.ofList ·)).mapError
      Literal.EscapeError.message
  | .fail => fun _ => .error "boom"
  | .nonempty => fun
    | .str "" => .error "empty"
    | .list [] => .error "empty"
    | v => .ok v
  | .same => fun
    | .pair a b => if a.equal b then .ok a else .error "mismatch"
    | _ => .error "mismatch"
  | .calculation => fun
    | .pair (.int m) (.list rest) => (calculateAll m rest).map .int
    | _ => .error "shape"

/-! ## Putting values together -/

/-- How the values of a repetition are put together. -/
inductive Accumulation where
  | sum
  | sub
  | max
  /-- Pairs that nest to the left. -/
  | nest
  /-- The last value. -/
  | last
  /-- Texts one after another. -/
  | concat

namespace Accumulation

/-- What there is before the first value. -/
def seed : Accumulation → Value
  | .sum | .sub | .max => .int 0
  | .nest | .last => .none
  | .concat => .str ""

/-- What there is after one more value. -/
def add : Accumulation → Value → Value → Value
  | .sum, before, v => .int (before.toInt + v.toInt)
  | .sub, before, v => .int (before.toInt - v.toInt)
  | .max, before, v => .int (Max.max before.toInt v.toInt)
  | .nest, before, v => .pair before v
  | .last, _, v => v
  | .concat, .str s, .str t => .str (s ++ t)
  | .concat, before, _ => before

end Accumulation

end TextGrammar
