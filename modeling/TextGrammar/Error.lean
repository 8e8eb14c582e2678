import TextGrammar.Source.Fault
import TextGrammar.Text.Quoted

set_option autoImplicit false

/-! # Errors

A grammar that cannot be built and a run that cannot go on are errors. A text that does not match a
grammar is not: that is an ordinary outcome of a run. -/

namespace TextGrammar

/-- Why a part of a grammar cannot be built. -/
inductive GrammarError where
  | emptyKeyword
  | emptyKeywordSet
  | duplicateKeyword (keyword : String)
  | cutIndexOutOfRange (keyword : String) (index : Nat)
  | invalidRepeat (min max : Nat)
deriving DecidableEq, Repr

def GrammarError.message : GrammarError → String
  | .emptyKeyword => "keyword must not be empty"
  | .emptyKeywordSet => "keyword set must not be empty"
  | .duplicateKeyword keyword =>
    "keyword set contains " ++ Text.quoted keyword ++ " more than once"
  | .cutIndexOutOfRange keyword index =>
    "cut index " ++ toString index ++ " is out of range for keyword " ++ Text.quoted keyword
  | .invalidRepeat min max =>
    "invalid repetition bounds (min=" ++ toString min ++ ", max=" ++ toString max ++ ")"

/-- Why a run is given up. -/
inductive ParseError where
  /-- The source failed. -/
  | source (fault : Fault)
  /-- A conversion refused a value and was meant to end the run with that. -/
  | mapping (message : String)
  /-- A rule was entered again where it was still running and nothing had been read. -/
  | endlessRecursion
deriving DecidableEq, Repr

namespace ParseError

/-- What there is to say about the cause. -/
def cause : ParseError → String
  | .source fault => fault.message
  | .mapping message => message
  | .endlessRecursion => "a rule runs into itself"

def message (e : ParseError) : String :=
  match e with
  | .source _ => "failed to read input: " ++ e.cause
  | .mapping _ => "mapping callback failed: " ++ e.cause
  | .endlessRecursion => "endless recursion: " ++ e.cause

end ParseError

end TextGrammar
