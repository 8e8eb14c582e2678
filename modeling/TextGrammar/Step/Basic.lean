import TextGrammar.Context

set_option autoImplicit false

/-! # Steps one after another

A step runs a parser from the state of a run. Steps are put together by functions that pass the
state on; the first error ends the whole. Whether another alternative may still be tried after a
sequence is up to every step of it. -/

namespace TextGrammar.Step

variable {α β γ : Type}

/-- A parser with its name: it is entered behind the characters to pass over, leaves a trace, and
its outcome covers what lies between where it was entered and where it ended. -/
def framed (name : String) (body : Step α) : Step α := fun ctx =>
  match ctx.enter name with
  | .error e ctx => .error e ctx
  | .ok start ctx =>
    match body ctx with
    -- the span of the parser replaces those of the parsers within it
    | .ok o ctx => .ok (o.withSpan ⟨start, ctx.position⟩) (ctx.leave name o)
    | .error e ctx => .error e (ctx.abort name e)

/-- The step with another outcome. -/
def mapOutcome (f : Outcome α → Outcome β) (p : Step α) : Step β := fun ctx =>
  match p ctx with
  | .ok o ctx => .ok (f o) ctx
  | .error e ctx => .error e ctx

/-- The step with another value. -/
def map (f : α → β) (p : Step α) : Step β :=
  p.mapOutcome (Outcome.map f)

/-- The step, and with its value another one. A failure of the first is the outcome. -/
def flatMap (p : Step α) (next : α → Step β) : Step β := fun ctx =>
  match p ctx with
  | .error e ctx => .error e ctx
  | .ok first ctx =>
    match first.status with
    | .error message => .ok ⟨.error message, first.backtrack, none⟩ ctx
    | .ok value =>
      match next value ctx with
      | .error e ctx => .error e ctx
      | .ok second ctx =>
        .ok (second.allowBacktrack (first.backtrack && second.backtrack)) ctx

/-- Two steps, and both their values put together. -/
def seq (combine : α → β → γ) (p : Step α) (q : Step β) : Step γ :=
  p.flatMap fun a => q.map (combine a)

/-- The message of a failed conversion. -/
def mappingFailure (message : String) : String :=
  "an error has occurred while mapping: " ++ message ++ " "

/-- The step and a conversion of its value. A refused value is a failure. -/
def tryMap (f : α → Except String β) (p : Step α) : Step β :=
  p.mapOutcome fun o =>
    { o with status := match o.status with
        | .error message => .error message
        | .ok value => (f value).mapError mappingFailure }

/-- The step and a conversion of its value. A refused value is an error. -/
def tryMapRaising (f : α → Except String β) (p : Step α) : Step β := fun ctx =>
  match p ctx with
  | .error e ctx => .error e ctx
  | .ok o ctx =>
    match o.status with
    | .error message => .ok { o with status := .error message } ctx
    | .ok value =>
      match f value with
      | .error message => .error (.mapping message) ctx
      | .ok mapped => .ok { o with status := .ok mapped } ctx

/-- The step, whose value is the text that it has read. -/
def capture (p : Step Unit) : Step String := fun ctx =>
  match p (ctx.onCursor Cursor.mark) with
  | .error e ctx => .error e ctx
  | .ok o ctx => .ok (o.attach (ctx.cursor.captured.getD "")) (ctx.onCursor Cursor.unmark)

end TextGrammar.Step
