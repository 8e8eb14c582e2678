import TextGrammar.Position

set_option autoImplicit false

/-! # Reading a text by index

What a cursor is about: a text, the number of characters read, and saved numbers. Going back is
setting the number back. There is nothing to be kept or handed back, and nothing can fail. -/

namespace TextGrammar

/-- A text and how far it has been read. -/
structure Reader where
  text : List Char
  /-- The number of characters read. -/
  index : Nat
  /-- The saved numbers, the innermost first. -/
  saved : List Nat

namespace Reader

/-- A reader at the beginning of a text. -/
def ofText (text : List Char) : Reader :=
  ⟨text, 0, []⟩

/-- What has not been read. -/
def rest (r : Reader) : List Char :=
  r.text.drop r.index

/-- The position of the next character. -/
def position (r : Reader) : Position :=
  .ofIndex r.text r.index

/-- The next character. -/
def peek (r : Reader) : Option Char :=
  r.text[r.index]?

def isEof (r : Reader) : Bool :=
  r.peek.isNone

/-- The reader some characters further. -/
def forward (n : Nat) (r : Reader) : Reader :=
  { r with index := r.index + n }

/-- Reads the next character. -/
def read (r : Reader) : Option Char × Reader :=
  (r.peek, if r.isEof then r else r.forward 1)

/-- Reads all that is left. -/
def readToEnd (r : Reader) : Option (List Char) × Reader :=
  if r.isEof then (none, r) else (some r.rest, r.forward r.rest.length)

/-! ## Lines -/

/-- The character belongs to the end of a line. -/
def isTerminator (c : Char) : Bool :=
  c == '\n' || c == '\r'

/-- The number of characters that end the line at the beginning of a text. -/
def terminatorLength : List Char → Nat
  | '\r' :: '\n' :: _ => 2
  | c :: _ => if isTerminator c then 1 else 0
  | [] => 0

/-- The first line of a text, without what ends it. -/
def firstLine (text : List Char) : List Char :=
  text.takeWhile (!isTerminator ·)

/-- The length of the first line of a text, with what ends it. -/
def firstLineLength (text : List Char) : Nat :=
  (firstLine text).length + terminatorLength (text.drop (firstLine text).length)

/-- Reads a line. -/
def readLine (r : Reader) : Option (List Char) × Reader :=
  if r.isEof then (none, r) else (some (firstLine r.rest), r.forward (firstLineLength r.rest))

/-! ## Marks -/

/-- Saves the number of characters read. -/
def mark (r : Reader) : Reader :=
  { r with saved := r.index :: r.saved }

/-- Forgets the number saved last. -/
def unmark (r : Reader) : Reader :=
  { r with saved := r.saved.tail }

/-- Goes back to the number saved last, and may forget it. -/
def reset (alsoUnmark : Bool) (r : Reader) : Reader :=
  let back := { r with index := r.saved.headD r.index }
  if alsoUnmark then back.unmark else back

/-- The text read since the number saved last. -/
def captured (r : Reader) : Option (List Char) :=
  r.saved.head?.map fun m => (r.text.take r.index).drop m

/-- The text read since the number saved last, which may be forgotten. -/
def capture (alsoUnmark : Bool) (r : Reader) : Option (List Char) × Reader :=
  (r.captured, if alsoUnmark then r.unmark else r)

end Reader

end TextGrammar
