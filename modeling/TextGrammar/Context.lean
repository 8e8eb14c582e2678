import TextGrammar.CharClass.Printed
import TextGrammar.Cursor.Lines
import TextGrammar.Cursor.Mark
import TextGrammar.Cursor.Printed
import TextGrammar.Outcome
import TextGrammar.Trace

set_option autoImplicit false

/-! # The state of a run

A run reads through a cursor. It may pass over the characters of a class before every parser, and it
may keep a trace. -/

namespace TextGrammar

/-- The state that the parsers of a run share. -/
structure Context where
  cursor : Cursor
  /-- The characters that are passed over before every parser. -/
  skip : Option CharClass
  /-- The lines of the trace, if one is kept. -/
  trace : Option (Array TraceLine)
  /-- The number of parsers that have been entered and not been left. -/
  depth : Nat

/-- A part of a run, which may end in an error. -/
abbrev Running (α : Type) := EStateM ParseError Context α

/-- A run of a parser. -/
abbrev Step (α : Type) := Running (Outcome α)

namespace Context

/-- The state before a run. -/
def ofCursor (cursor : Cursor) (skip : Option CharClass) (traced : Bool) : Context :=
  ⟨cursor, skip, if traced then some #[] else none, 0⟩

/-- The state before a run over a text that passes over nothing and keeps no trace. -/
def ofText (text : String) : Context :=
  ofCursor (.ofText text) none false

def position (ctx : Context) : Position :=
  ctx.cursor.position

/-- The number of characters that have not been read. -/
def size (ctx : Context) : Nat :=
  ctx.cursor.size

/-- Changes the marks of the cursor. -/
def onCursor (change : Cursor → Cursor) (ctx : Context) : Context :=
  { ctx with cursor := change ctx.cursor }

/-- Reads through the cursor. A fault ends the run. -/
def reading {α : Type} (r : Reading Cursor α) : Running α := fun ctx =>
  match r ctx.cursor with
  | .ok a cursor => .ok a { ctx with cursor }
  | .error f cursor => .error (.source f) { ctx with cursor }

/-! ## The trace -/

/-- Adds a line to the trace, if one is kept. -/
def record (line : TraceLine) (ctx : Context) : Context :=
  { ctx with trace := ctx.trace.map (·.push line) }

/-- Adds a remark to the trace. -/
def log (remark : String) (ctx : Context) : Context :=
  ctx.record (.note ctx.depth remark)

/-- Passes over the characters of the skip class. -/
def passOver : Running Unit := fun ctx =>
  match ctx.skip with
  | none => .ok () ctx
  | some skip =>
    match reading (Cursor.readWhile skip.contains) ctx with
    | .ok _ ctx => .ok () ctx
    | .error e ctx => .error e ctx

/-- A parser is entered, behind the characters to pass over. -/
def enter (name : String) : Running Position := fun ctx =>
  match passOver ctx with
  | .error e ctx => .error e ctx
  | .ok _ ctx =>
    .ok ctx.position { ctx.record (.enter ctx.depth name ctx.position) with depth := ctx.depth + 1 }

/-- A parser is left with an outcome. -/
def leave {α : Type} (name : String) (o : Outcome α) (ctx : Context) : Context :=
  let ctx := { ctx with depth := ctx.depth - 1 }
  ctx.record (.leave ctx.depth name ctx.position o.message? o.backtrack)

/-- A parser is left with an error. -/
def abort (name : String) (e : ParseError) (ctx : Context) : Context :=
  let ctx := { ctx with depth := ctx.depth - 1 }
  ctx.record (.abort ctx.depth name ctx.position e)

/-- The description of the state of a run. -/
def fields (ctx : Context) : String :=
  let skip := match ctx.skip with
    | none => "None"
    | some skip => "Some(" ++ skip.fields ++ ")"
  "Context \x7b cursor: " ++ ctx.cursor.fields ++ ", skip: " ++ skip
    ++ ", sink: " ++ toString ctx.trace.isSome ++ ", depth: " ++ toString ctx.depth ++ " \x7d"

end Context

end TextGrammar
