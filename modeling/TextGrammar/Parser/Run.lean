import TextGrammar.Parser.Basic

set_option autoImplicit false

/-! # Running a parser

A parser means a step. A rule of the grammar means whatever the step of its definition is, which may
enter the same rule again. A run that ends never enters a rule while the same rule is running and
nothing has been read in between, because the second would do just what the first did. So the number
of rules times the number of places in the text bounds how deeply rules are nested, and a run that
goes deeper is given up as endless. -/

namespace TextGrammar

namespace Parser

variable {ρ : Type → Type}

/-- What a parser does after it has been entered; `call` is the meaning of the rules. -/
def body (call : {β : Type} → ρ β → Step β) {α : Type} : Parser ρ α → Step α
  | .primitive p => p.step
  | .letter l => l.step
  | .produce _ value => fun ctx => .ok (.success value) ctx
  | .seq _ combine first second =>
    Step.seq combine (.framed first.name (first.body call)) (.framed second.name (second.body call))
  | .choice _ ofLeft ofRight left right =>
    Step.choose ((Step.framed left.name (left.body call)).map ofLeft)
      ((Step.framed right.name (right.body call)).map ofRight)
  | .opt present absent inner => Step.opt present absent (.framed inner.name (inner.body call))
  | .cut inner => (Step.framed inner.name (inner.body call)).mapOutcome Outcome.commit
  | .skipTo target => Step.skipTo (.framed target.name (target.body call))
  | .lookahead inner => Step.lookahead (.framed inner.name (inner.body call))
  | .not inner => Step.not (.framed inner.name (inner.body call))
  | .iterate _ bounds fold item =>
    (Step.repeated bounds none (.framed item.name (item.body call)) fold.add fold.start).map
      fold.finish
  | .iterateSeparated _ bounds fold separator item =>
    (Step.repeated bounds (some (.framed separator.name (separator.body call)))
      (.framed item.name (item.body call)) fold.add fold.start).map fold.finish
  | .captureWith ofText inner =>
    (Step.capture (.framed inner.name (inner.body call))).map ofText
  | .mapped _ f inner => (Step.framed inner.name (inner.body call)).map f
  | .tryMap f inner => Step.tryMap f (.framed inner.name (inner.body call))
  | .tryMapRaising f inner => Step.tryMapRaising f (.framed inner.name (inner.body call))
  | .flatMap first next =>
    Step.flatMap (.framed first.name (first.body call)) fun a =>
      .framed (next a).name ((next a).body call)
  | .rule _ r => call r

/-- A parser with its name, where `call` is the meaning of the rules. -/
def run (call : {β : Type} → ρ β → Step β) {α : Type} (p : Parser ρ α) : Step α :=
  Step.framed p.name (p.body call)

end Parser

/-- A rule, whatever it is after. -/
abbrev AnyRule (ρ : Type → Type) :=
  (α : Type) × ρ α

/-- Rules, of which there are finitely many, and their definitions. -/
structure Grammar (ρ : Type → Type) where
  define : {α : Type} → ρ α → Parser ρ α
  /-- All rules. -/
  all : List (AnyRule ρ)
  mem_all : ∀ {α : Type} (r : ρ α), ⟨α, r⟩ ∈ all

namespace Grammar

variable {ρ : Type → Type} {α : Type}

/-- The meaning of a rule that is nested in others at most `depth` deep. -/
def call (g : Grammar ρ) : Nat → {α : Type} → ρ α → Step α
  | 0 => fun _ ctx => .error .endlessRecursion ctx
  | depth + 1 => fun r => (g.define r).run (g.call depth)

/-- No run that ends nests rules more deeply. -/
def depthBound (g : Grammar ρ) (ctx : Context) : Nat :=
  g.all.length * (ctx.size + 1) + 1

/-- Runs a parser. -/
def parse (g : Grammar ρ) (p : Parser ρ α) : Step α := fun ctx =>
  p.run (g.call (g.depthBound ctx)) ctx

/-- Runs a parser over a text. -/
def parseText (g : Grammar ρ) (p : Parser ρ α) (text : String) : Except ParseError (Outcome α) :=
  match g.parse p (.ofText text) with
  | .ok o _ => .ok o
  | .error e _ => .error e

end Grammar

end TextGrammar
