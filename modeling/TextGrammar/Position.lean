set_option autoImplicit false

/-! # Positions and spans

A position says how far a reader has come in a text: its line and column, both counted from one,
and the number of characters already read. Lines and columns are counted in words of 32 bits. A span is
the stretch between two positions. -/

namespace TextGrammar

/-- A place between two characters of a text. In a text of 2^32 - 1 characters or more, the counters of
lines and columns may go past the largest word and begin at zero again; the index does not. -/
structure Position where
  line : UInt32
  column : UInt32
  index : Nat
deriving DecidableEq, Repr

namespace Position

/-- The beginning of every text. -/
def bof : Position := ⟨1, 1, 0⟩

instance : Inhabited Position := ⟨bof⟩

/-- The position after a character that ends no line. -/
def advanceColumn (p : Position) : Position :=
  ⟨p.line, p.column + 1, p.index + 1⟩

/-- The position after the last character of a line break. -/
def advanceLine (p : Position) : Position :=
  ⟨p.line + 1, 1, p.index + 1⟩

/-- The position after one character, which ends the line or does not. -/
def advance (p : Position) (breaksLine : Bool) : Position :=
  if breaksLine then p.advanceLine else p.advanceColumn

/-- Whether a character ends a line, given the one after it: a line feed does, and so does a
carriage return that no line feed follows. -/
def breaksLine (c : Char) (next : Option Char) : Bool :=
  c == '\n' || (c == '\r' && next != some '\n')

/-- The position after the first `n` characters of a text that begins at `p`. -/
def advanceOver (p : Position) : List Char → Nat → Position
  | c :: rest, n + 1 => (p.advance (breaksLine c rest.head?)).advanceOver rest n
  | _, _ => p

/-- The position of the character with a given index. -/
def ofIndex (text : List Char) (n : Nat) : Position :=
  bof.advanceOver text n

/-- Nothing has been read yet. -/
def isBof (p : Position) : Bool :=
  p.index == 0

/-- The form in which messages and traces show a position. -/
def text (p : Position) : String :=
  s!"(ln: {p.line}, col: {p.column}, idx: {p.index})"

/-- The form in which the description of a reader's state shows a position. -/
def fields (p : Position) : String :=
  "Position \x7b line: " ++ toString p.line ++ ", column: " ++ toString p.column
    ++ ", index: " ++ toString p.index ++ " \x7d"

@[simp] theorem index_bof : bof.index = 0 := rfl

@[simp] theorem index_advanceColumn (p : Position) : p.advanceColumn.index = p.index + 1 := rfl

@[simp] theorem index_advanceLine (p : Position) : p.advanceLine.index = p.index + 1 := rfl

@[simp] theorem index_advance (p : Position) (breaksLine : Bool) :
    (p.advance breaksLine).index = p.index + 1 := by
  cases breaksLine <;> rfl

end Position

/-- The characters from `start` up to, and without, `stop`. -/
structure Span where
  start : Position
  stop : Position
deriving DecidableEq, Repr, Inhabited

namespace Span

/-- The empty span at a position. -/
def point (p : Position) : Span := ⟨p, p⟩

/-- The number of characters; a span whose end lies before its start has none. -/
def length (s : Span) : Nat :=
  s.stop.index - s.start.index

def isEmpty (s : Span) : Bool :=
  s.length == 0

def text (s : Span) : String :=
  s.start.text ++ ".." ++ s.stop.text

end Span

end TextGrammar
