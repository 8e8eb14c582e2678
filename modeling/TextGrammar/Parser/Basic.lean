import TextGrammar.Step.Primitive
import TextGrammar.Step.Repeat

set_option autoImplicit false

/-! # Parsers

A parser is a description: how a text is to be read and what value comes of it. It may refer to the
rules of a grammar, and so to itself. A parser that is after no value has the value `()`.

Several forms differ only in what they make of the values of their parts. There is one constructor
for them, which is told the name that the trace shows and what to make of the values; the functions
below name the forms. -/

namespace TextGrammar

/-- How the values of a repetition are put together: from `start`, by `add` for each item, and at
the end by `finish`. -/
structure Fold (α γ : Type) where
  {State : Type}
  start : State
  add : State → α → State
  finish : State → γ

/-- A parser with a value of type `α`, over the rules `ρ` of a grammar. -/
inductive Parser (ρ : Type → Type) : Type → Type 1 where
  | primitive (p : Primitive) : Parser ρ Unit
  | letter {α : Type} (l : Letter α) : Parser ρ α
  /-- A value without reading anything. -/
  | produce {α : Type} (name : String) (value : α) : Parser ρ α
  /-- One parser after another. -/
  | seq {α β γ : Type} (name : String) (combine : α → β → γ) (first : Parser ρ α)
      (second : Parser ρ β) : Parser ρ γ
  /-- Ordered choice. -/
  | choice {α β γ : Type} (name : String) (ofLeft : α → γ) (ofRight : β → γ) (left : Parser ρ α)
      (right : Parser ρ β) : Parser ρ γ
  /-- A parser or nothing. -/
  | opt {α γ : Type} (present : α → γ) (absent : γ) (inner : Parser ρ α) : Parser ρ γ
  /-- A parser whose success commits the choice around it. -/
  | cut {α : Type} (inner : Parser ρ α) : Parser ρ α
  /-- The next place where a parser succeeds. -/
  | skipTo {α : Type} (target : Parser ρ α) : Parser ρ α
  /-- A parser would succeed here. -/
  | lookahead (inner : Parser ρ Unit) : Parser ρ Unit
  /-- A parser would fail here. -/
  | not (inner : Parser ρ Unit) : Parser ρ Unit
  /-- A parser several times. -/
  | iterate {α γ : Type} (name : String) (bounds : Repeat) (fold : Fold α γ) (item : Parser ρ α) :
      Parser ρ γ
  /-- A parser several times, with another one between each two times. -/
  | iterateSeparated {α γ : Type} (name : String) (bounds : Repeat) (fold : Fold α γ)
      (separator : Parser ρ Unit) (item : Parser ρ α) : Parser ρ γ
  /-- The text that a parser reads. -/
  | captureWith {γ : Type} (ofText : String → γ) (inner : Parser ρ Unit) : Parser ρ γ
  /-- A parser with another value. -/
  | mapped {α γ : Type} (name : String) (f : α → γ) (inner : Parser ρ α) : Parser ρ γ
  /-- A parser with another value; a value that is refused is a failure. -/
  | tryMap {α γ : Type} (f : α → Except String γ) (inner : Parser ρ α) : Parser ρ γ
  /-- A parser with another value; a value that is refused ends the run. -/
  | tryMapRaising {α γ : Type} (f : α → Except String γ) (inner : Parser ρ α) : Parser ρ γ
  /-- A parser, and then another one that depends on its value. -/
  | flatMap {α γ : Type} (first : Parser ρ α) (next : α → Parser ρ γ) : Parser ρ γ
  /-- A rule of the grammar. -/
  | rule {α : Type} (name : String) (r : ρ α) : Parser ρ α

namespace Parser

variable {ρ : Type → Type} {α β γ : Type}

/-- The name in a trace. -/
def name : Parser ρ α → String
  | .primitive p => p.name
  | .letter l => l.name
  | .produce name _ => name
  | .seq name .. => name
  | .choice name .. => name
  | .opt .. => "Opt"
  | .cut _ => "Cut"
  | .skipTo _ => "SkipTo"
  | .lookahead _ => "Lookahead"
  | .not _ => "Not"
  | .iterate name .. => name
  | .iterateSeparated name .. => name
  | .captureWith .. => "Capture"
  | .mapped name .. => name
  | .tryMap .. => "TryMap"
  | .tryMapRaising .. => "TryMapRaising"
  | .flatMap .. => "FlatMap"
  | .rule name _ => name

end Parser

end TextGrammar
