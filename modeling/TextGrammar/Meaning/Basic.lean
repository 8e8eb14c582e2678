import TextGrammar.Step.Basic

set_option autoImplicit false

/-! # What a parser means

A parser means a function: from a text, the characters to pass over and the number of characters
read, to an outcome and the number of characters read then. There is no cursor, so there are no marks
and nothing is handed back: what may be taken back is simply tried at the same number again. -/

namespace TextGrammar

/-- A text, and the characters that are passed over before every parser. -/
structure Setting where
  text : List Char
  skip : Option CharClass

/-- An error and the number of characters read when it arose. -/
abbrev ErrorAt := ParseError × Nat

/-- The meaning of a part of a run: what it comes to and the number of characters read, or an
error. -/
abbrev PartMeaning (α : Type) := Setting → Nat → Except ErrorAt (α × Nat)

/-- The meaning of a parser. -/
abbrev Meaning (α : Type) := PartMeaning (Outcome α)

namespace Setting

/-- What has not been read. -/
def rest (w : Setting) (n : Nat) : List Char :=
  w.text.drop n

/-- The number of characters that have not been read. -/
def left (w : Setting) (n : Nat) : Nat :=
  w.text.length - n

/-- The next character. -/
def next? (w : Setting) (n : Nat) : Option Char :=
  w.text[n]?

/-- The number of characters from here on that pass a test. -/
def runLength (w : Setting) (accept : Char → Bool) (n : Nat) : Nat :=
  ((w.rest n).takeWhile accept).length

/-- The first place from here on that is not passed over. -/
def passOver (w : Setting) (n : Nat) : Nat :=
  match w.skip with
  | none => n
  | some skip => n + w.runLength skip.contains n

/-- The span between two numbers of characters read. -/
def span (w : Setting) (start stop : Nat) : Span :=
  ⟨.ofIndex w.text start, .ofIndex w.text stop⟩

end Setting

namespace Meaning

variable {α β γ : Type}

/-- The meaning with another outcome. -/
def mapOutcome (f : Outcome α → Outcome β) (p : Meaning α) : Meaning β := fun w n =>
  (p w n).map fun (o, m) => (f o, m)

/-- The meaning with another value. -/
def map (f : α → β) (p : Meaning α) : Meaning β :=
  p.mapOutcome (Outcome.map f)

theorem map_eq_ok {p : Meaning α} {w : Setting} {n m : Nat} {o : Outcome α} (f : α → β)
    (h : p w n = .ok (o, m)) : p.map f w n = .ok (o.map f, m) := by
  simp only [map, mapOutcome, h]
  rfl

/-- A parser is entered behind the characters to pass over, and its outcome covers what it has
read. -/
def framed (body : Meaning α) : Meaning α := fun w n =>
  let start := w.passOver n
  (body w start).map fun (o, stop) => (o.withSpan (w.span start stop), stop)

theorem framed_eq_ok {body : Meaning α} {w : Setting} {n m : Nat} {o : Outcome α}
    (h : body w (w.passOver n) = .ok (o, m)) :
    framed body w n = .ok (o.withSpan (w.span (w.passOver n) m), m) := by
  simp only [framed, h]
  rfl

/-- The meaning, and with its value another one. -/
def flatMap (p : Meaning α) (next : α → Meaning β) : Meaning β := fun w n => do
  let (first, n) ← p w n
  match first.status with
  | .error message => .ok (⟨.error message, first.backtrack, none⟩, n)
  | .ok value =>
    let (second, n) ← next value w n
    .ok (second.allowBacktrack (first.backtrack && second.backtrack), n)

/-- Two meanings, and both their values put together. -/
def seq (combine : α → β → γ) (p : Meaning α) (q : Meaning β) : Meaning γ :=
  p.flatMap fun a => q.map (combine a)

/-- A conversion that fails where it refuses a value. -/
def tryMap (f : α → Except String β) (p : Meaning α) : Meaning β :=
  p.mapOutcome fun o =>
    { o with status := match o.status with
        | .error message => .error message
        | .ok value => (f value).mapError Step.mappingFailure }

/-- A conversion that ends the run where it refuses a value. -/
def tryMapRaising (f : α → Except String β) (p : Meaning α) : Meaning β := fun w n => do
  let (o, n) ← p w n
  match o.status with
  | .error message => .ok ({ o with status := .error message }, n)
  | .ok value =>
    match f value with
    | .error message => .error (.mapping message, n)
    | .ok mapped => .ok ({ o with status := .ok mapped }, n)

/-- The text between where the meaning begins and where it ends. -/
def capture (p : Meaning Unit) : Meaning String := fun w n => do
  let (o, m) ← p w n
  .ok (o.attach (String.ofList ((w.rest n).take (m - n))), m)

end Meaning

end TextGrammar
