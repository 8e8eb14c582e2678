set_option autoImplicit false

/-! # Values of one type

A grammar that is read from a file, and not written in a program, has parsers whose values are all of
one type. It holds numbers, texts and booleans, and lists, tuples and options of values. -/

namespace TextGrammar

/-- What a parser may come to. -/
inductive Value where
  | none
  | some (v : Value)
  | bool (b : Bool)
  | int (n : Int)
  | float (x : Float)
  | str (s : String)
  | list (vs : List Value)
  | pair (a b : Value)
  | triple (a b c : Value)

namespace Value

instance : Inhabited Value := ⟨.none⟩

/-- A value that may be missing. -/
def ofOption : Option Value → Value
  | Option.none => .none
  | Option.some v => .some v

mutual

/-- Two values are equal; numbers are compared as numbers, so there is a number that is not equal to
itself. -/
def equal : Value → Value → Bool
  | .none, .none => true
  | .some v, .some w => equal v w
  | .bool a, .bool b => a == b
  | .int m, .int n => m == n
  | .float x, .float y => x == y
  | .str s, .str t => s == t
  | .list vs, .list ws => equalAll vs ws
  | .pair a b, .pair c d => equal a c && equal b d
  | .triple a b c, .triple d e f => equal a d && equal b e && equal c f
  | _, _ => false

/-- Two lists are equal. -/
def equalAll : List Value → List Value → Bool
  | [], [] => true
  | v :: vs, w :: ws => equal v w && equalAll vs ws
  | _, _ => false

end

/-- The number, or zero for what is no number. -/
def toInt : Value → Int
  | .int n => n
  | _ => 0

end Value

end TextGrammar
