import TextGrammar.Meaning.Choice
import TextGrammar.Meaning.Primitive
import TextGrammar.Meaning.Repeat
import TextGrammar.Parser.Run

set_option autoImplicit false

/-! # What the parsers of a grammar mean

`Grammar.meaning` follows the parser in the way `Grammar.parse` does, and is what the latter is
compared with. -/

namespace TextGrammar

namespace Parser

variable {ρ : Type → Type}

/-- What a parser means after the characters to pass over; `call` is the meaning of the rules. -/
def bodyMeaning (call : {β : Type} → ρ β → Meaning β) {α : Type} : Parser ρ α → Meaning α
  | .primitive p => .primitive p
  | .letter l => .one l.accept fun _ => l.message
  | .produce _ value => fun _ n => .ok (.success value, n)
  | .seq _ combine first second =>
    Meaning.seq combine (.framed (first.bodyMeaning call)) (.framed (second.bodyMeaning call))
  | .choice _ ofLeft ofRight left right =>
    Meaning.choose ((Meaning.framed (left.bodyMeaning call)).map ofLeft)
      ((Meaning.framed (right.bodyMeaning call)).map ofRight)
  | .opt present absent inner => Meaning.opt present absent (.framed (inner.bodyMeaning call))
  | .cut inner => (Meaning.framed (inner.bodyMeaning call)).mapOutcome Outcome.commit
  | .skipTo target => Meaning.skipTo (.framed (target.bodyMeaning call))
  | .lookahead inner => Meaning.lookahead (.framed (inner.bodyMeaning call))
  | .not inner => Meaning.not (.framed (inner.bodyMeaning call))
  | .iterate _ bounds fold item =>
    (Meaning.repeated bounds none (.framed (item.bodyMeaning call)) fold.add fold.start).map
      fold.finish
  | .iterateSeparated _ bounds fold separator item =>
    (Meaning.repeated bounds (some (.framed (separator.bodyMeaning call)))
      (.framed (item.bodyMeaning call)) fold.add fold.start).map fold.finish
  | .captureWith ofText inner =>
    (Meaning.capture (.framed (inner.bodyMeaning call))).map ofText
  | .mapped _ f inner => (Meaning.framed (inner.bodyMeaning call)).map f
  | .tryMap f inner => Meaning.tryMap f (.framed (inner.bodyMeaning call))
  | .tryMapRaising f inner => Meaning.tryMapRaising f (.framed (inner.bodyMeaning call))
  | .flatMap first next =>
    Meaning.flatMap (.framed (first.bodyMeaning call)) fun a =>
      .framed ((next a).bodyMeaning call)
  | .rule _ r => call r

/-- What a parser means. -/
def meaning (call : {β : Type} → ρ β → Meaning β) {α : Type} (p : Parser ρ α) : Meaning α :=
  Meaning.framed (p.bodyMeaning call)

end Parser

namespace Grammar

variable {ρ : Type → Type} {α : Type}

/-- What a rule means that is nested in others at most `depth` deep. -/
def callMeaning (g : Grammar ρ) : Nat → {α : Type} → ρ α → Meaning α
  | 0 => fun _ _ n => .error (.endlessRecursion, n)
  | depth + 1 => fun r => (g.define r).meaning (g.callMeaning depth)

/-- What a parser means over a grammar. -/
def meaning (g : Grammar ρ) (p : Parser ρ α) : Meaning α := fun w n =>
  p.meaning (g.callMeaning (g.all.length * (w.left n + 1) + 1)) w n

end Grammar

end TextGrammar
