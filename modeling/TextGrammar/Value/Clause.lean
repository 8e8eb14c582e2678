import TextGrammar.Parser.Forms
import TextGrammar.Value.Action

set_option autoImplicit false

/-! # Parsers over values

The parsers of a grammar that is read from a file: each is after no value or after a value of the one
type `Value`, and refers to the rules by their names. -/

namespace TextGrammar

/-- The rule that has one of some names. It is after no value or after one. -/
inductive Rule (names : List String) : Type → Type where
  | effect (i : Fin names.length) : Rule names Unit
  | value (i : Fin names.length) : Rule names Value

/-- A parser that is after no value. -/
abbrev EffectParser (names : List String) := Parser (Rule names) Unit

/-- A parser that is after a value. -/
abbrev ValueParser (names : List String) := Parser (Rule names) Value

/-- A parser of either kind. -/
inductive Clause (names : List String) where
  | effect (p : EffectParser names)
  | value (p : ValueParser names)

variable {names : List String}

namespace EffectParser

/-- One upper-case letter of the ASCII range. -/
def upper : EffectParser names :=
  .letter ⟨"Parser", none, Primitive.test Char.isUpper, "uppercase letter expected."⟩

end EffectParser

namespace ValueParser

/-- Any character, as a text. It leaves a remark. -/
def anyChar : ValueParser names :=
  .letter ⟨"ValParser", some "any at ", fun c => some (.str (String.singleton c)),
    "character expected."⟩

def pair (first second : ValueParser names) : ValueParser names :=
  .pairWith .pair first second

def orValue (left : EffectParser names) (right : ValueParser names) : ValueParser names :=
  .orValueWith .some .none left right

def orEffect (left : ValueParser names) (right : EffectParser names) : ValueParser names :=
  .orEffectWith .some .none left right

def option (inner : ValueParser names) : ValueParser names :=
  .opt .some .none inner

def capture (inner : EffectParser names) : ValueParser names :=
  .captureWith .str inner

def rep (bounds : Repeat) (separator : Option (EffectParser names)) (item : ValueParser names) :
    ValueParser names :=
  .repListWith .list bounds separator item

def count (bounds : Repeat) (separator : Option (EffectParser names)) (item : EffectParser names) :
    ValueParser names :=
  .countWith (fun n => .int n) bounds separator item

def reduce (bounds : Repeat) (separator : Option (EffectParser names)) (item : ValueParser names)
    (acc : Accumulation) (finish : Conversion) : ValueParser names :=
  .reduceWith acc.seed acc.add finish.apply bounds separator item

def fold1 (bounds : Repeat) (separator : Option (EffectParser names)) (item : ValueParser names)
    (acc : Accumulation) : ValueParser names :=
  .fold1With acc.add .ofOption bounds separator item

/-- What comes after a value, depending on it. -/
inductive Continuation (names : List String) where
  /-- The same text once more. -/
  | again
  /-- A parser as often as the value says. -/
  | times (item : EffectParser names)
  /-- The parser that belongs to the text, or another one. -/
  | case (branches : List (String × ValueParser names)) (other : ValueParser names)

namespace Continuation

/-- The same text once more. An empty text cannot be repeated; the value then says so. -/
def sameText (s : String) : ValueParser names :=
  match Keyword.ofText s with
  | .ok k => capture (.keyword k)
  | .error e => .produced (.str e.message)

/-- The bounds of as many times as a value says; for no number, or none above zero, there are no
bounds. -/
def boundsOf : Value → Repeat
  | .int n => (Repeat.exactly (.ofNat n.toNat)).toOption.getD .any
  | _ => .any

/-- The parser that comes after a value. -/
def next : Continuation names → Value → ValueParser names
  | .again, .str s => sameText s
  | .again, v => .produced v
  | .times item, v => count (boundsOf v) none item
  | .case branches other, .str s => (branches.lookup s).getD other
  | .case _ other, _ => other

end Continuation

def flatMap (first : ValueParser names) (after : Continuation names) : ValueParser names :=
  Parser.flatMap first after.next

end ValueParser

namespace Clause

/-- The name in a trace. -/
def name : Clause names → String
  | .effect p => p.name
  | .value p => p.name

/-- The value, or the text that is read if there is no value. -/
def captured : Clause names → ValueParser names
  | .effect p => .capture p
  | .value p => p

/-- The parser without its value. -/
def withoutValue : Clause names → EffectParser names
  | .effect p => p
  | .value p => .unval p

/-- The description of a parser, which tells no more than its kind and its name. -/
def fields : Clause names → String
  | .effect p => "BoxedParser(" ++ p.name ++ ")"
  | .value p => "BoxedValParser(" ++ p.name ++ ")"

end Clause

end TextGrammar
