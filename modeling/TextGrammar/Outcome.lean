import TextGrammar.Position

set_option autoImplicit false

/-! # Outcomes

A run succeeds with a value or fails with a message. Beside that, an outcome says whether the choice
around it may still go back and try something else, and which stretch of the text it covers. The
outcome of a run that is after no value is one with the value `()`. -/

namespace TextGrammar

/-- What a run comes to. -/
structure Outcome (α : Type) where
  status : Except String α
  /-- Another alternative may be tried. An outcome that rules this out is committed. -/
  backtrack : Bool
  span : Option Span

namespace Outcome

variable {α β : Type}

/-! ## Construction -/

/-- A success that commits to nothing. -/
def success (value : α) : Outcome α :=
  ⟨.ok value, true, none⟩

/-- A failure that commits to nothing. -/
def failure (message : String) : Outcome α :=
  ⟨.error message, true, none⟩

/-! ## Questions -/

def isSuccessful (o : Outcome α) : Bool :=
  o.status.isOk

def isFailure (o : Outcome α) : Bool :=
  !o.isSuccessful

/-- The message of a failure. -/
def message? (o : Outcome α) : Option String :=
  match o.status with
  | .ok _ => none
  | .error message => some message

/-- The value of a success. -/
def value? (o : Outcome α) : Option α :=
  o.status.toOption

def start? (o : Outcome α) : Option Position :=
  o.span.map Span.start

def stop? (o : Outcome α) : Option Position :=
  o.span.map Span.stop

/-- The value, or another one in place of a failure. -/
def valueOr (o : Outcome α) (other : α) : α :=
  o.value?.getD other

/-! ## Changes -/

def allowBacktrack (allow : Bool) (o : Outcome α) : Outcome α :=
  { o with backtrack := allow }

def withSpan (span : Span) (o : Outcome α) : Outcome α :=
  { o with span := some span }

/-- The outcome with another value. A failure stays as it is. -/
def map (f : α → β) (o : Outcome α) : Outcome β :=
  ⟨o.status.map f, o.backtrack, o.span⟩

/-- The outcome of a run that was after no value, with a value. -/
def attach (value : β) (o : Outcome Unit) : Outcome β :=
  o.map fun _ => value

/-- The outcome without its value. -/
def detach (o : Outcome α) : Outcome Unit :=
  o.map fun _ => ()

/-- The outcome that rules out other alternatives if it is a success. -/
def commit (o : Outcome α) : Outcome α :=
  if o.isSuccessful then o.allowBacktrack false else o

end Outcome

end TextGrammar
