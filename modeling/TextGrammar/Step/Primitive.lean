import TextGrammar.Keyword
import TextGrammar.Step.Basic
import TextGrammar.Text.CharName

set_option autoImplicit false

/-! # Primitive steps

A primitive reads the cursor directly: one character, a run of characters, or the letters of a
keyword. It never goes back by itself. Its message tells what was expected and what was found. -/

namespace TextGrammar

/-- A parser that is after no value and runs no other parser. -/
inductive Primitive where
  /-- One given character. -/
  | exact (c : Char)
  /-- One character of a class. -/
  | charIn (members : CharClass)
  /-- As many characters of a class as there are, `min` at least. -/
  | charsWhileIn (members : CharClass) (min : Nat)
  /-- As many spaces and controls as there are, `min` at least. -/
  | space (min : Nat)
  /-- The end of the input. -/
  | eof
  /-- The beginning of the input. -/
  | bof
  | keyword (k : Keyword)
  /-- Any keyword of a set, the shortest that matches. -/
  | keywordIn (s : KeywordSet)

/-- A parser of one character, as a user of the library defines it: it may leave a remark that
begins with `remark?` and tells where it is, and fails with `message` at any character that it does
not accept. -/
structure Letter (α : Type) where
  name : String
  remark? : Option String
  accept : Char → Option α
  message : String

namespace Primitive

/-- The name in a trace. -/
def name : Primitive → String
  | .exact _ => "Exact"
  | .charIn _ => "CharClass"
  | .charsWhileIn _ _ => "CharsWhileIn"
  | .space _ => "Space"
  | .eof => "Eof"
  | .bof => "Bof"
  | .keyword _ => "Keyword"
  | .keywordIn _ => "KeywordIn"

/-! ## Messages -/

/-- The message where one thing is expected and another found. -/
def mismatch (expected : String) (found : Option Char) : String :=
  expected ++ " expected but " ++ Text.foundName found ++ " found."

/-- The message where a member of a class is expected. -/
def notInClass (members : CharClass) (found : Option Char) : String :=
  mismatch ("a member of class (" ++ members.text ++ ")") found

/-- The message of a run of characters that is too short. -/
def tooShort (min count : Nat) : String :=
  "expected that length of char sequence is greater than or equal " ++ toString min
    ++ ", but actualy it is " ++ toString count ++ "."

/-- The message of too few spaces. -/
def tooFewSpaces (min count : Nat) : String :=
  toString count ++ " space(s) found but more space(s) needed (min=" ++ toString min ++ ")."

/-! ## Letters one after another -/

/-- How far the letters of a text match. -/
inductive Match where
  | complete
  /-- The letter at `offset`, which is `expected`, does not match. -/
  | broken (offset : Nat) (expected : Char) (found : Option Char)

/-- Reads letters, of which the first stands at `offset` in its text, up to the first mismatch. -/
def matchLetters : List Char → Nat → Reading Cursor Match
  | [], _ => fun cur => .ok .complete cur
  | c :: cs, offset => fun cur =>
    match Cursor.peek cur with
    | .error f cur => .error f cur
    | .ok found cur =>
      if found = some c then
        match Cursor.read cur with
        | .error f cur => .error f cur
        | .ok _ cur => matchLetters cs (offset + 1) cur
      else .ok (.broken offset c found) cur

/-- Reads one keyword of a set, `offset` letters of which have been read. -/
def matchCandidates : List KeywordSet.Candidate → Nat → Reading Cursor (Outcome Unit)
  | [], _ => fun cur => .ok (.failure "expected keyword not found.") cur
  | k :: ks, offset => fun cur =>
    match matchLetters (k.letters.drop offset) offset cur with
    | .error f cur => .error f cur
    | .ok .complete cur => .ok (.success ()) cur
    | .ok (.broken offset expected found) cur =>
      match k.fork? with
      | some fork =>
        -- the next keyword has the same letters up to the fork, so none is read again
        if offset ≤ fork then matchCandidates ks offset cur
        else .ok (.failure (mismatch (Text.charName expected) found)) cur
      | none => .ok (.failure (mismatch (Text.charName expected) found)) cur

/-- Reads a keyword. A mismatch behind its cut is final. -/
def matchKeyword (k : Keyword) : Reading Cursor (Outcome Unit) := fun cur =>
  match matchLetters k.text.toList 0 cur with
  | .error f cur => .error f cur
  | .ok .complete cur => .ok (.success ()) cur
  | .ok (.broken offset expected found) cur =>
    let final := k.cut?.any (· ≤ offset)
    .ok ((Outcome.failure (mismatch (Text.charName expected) found)).allowBacktrack !final) cur

/-! ## Single characters and runs -/

/-- Reads the next character if it is accepted; otherwise `message` tells what is wrong. -/
def matchOne {α : Type} (accept : Char → Option α) (message : Option Char → String) :
    Reading Cursor (Outcome α) := fun cur =>
  match Cursor.peek cur with
  | .error f cur => .error f cur
  | .ok found cur =>
    match found.bind accept with
    | none => .ok (.failure (message found)) cur
    | some value =>
      match Cursor.read cur with
      | .error f cur => .error f cur
      | .ok _ cur => .ok (.success value) cur

/-- Accepts the characters that pass a test. -/
def test (p : Char → Bool) (c : Char) : Option Unit :=
  if p c then some () else none

/-- Reads as many accepted characters as there are; `message` tells that there were too few. -/
def matchRun (accept : Char → Bool) (min : Nat) (message : Nat → String) :
    Reading Cursor (Outcome Unit) := fun cur =>
  match Cursor.readWhile accept cur with
  | .error f cur => .error f cur
  | .ok cs cur => .ok (if cs.length < min then .failure (message cs.length) else .success ()) cur

/-- Succeeds if the next character, or the end, is as it should be. Nothing is read. -/
def matchNext (p : Option Char → Bool) (message : Option Char → String) :
    Reading Cursor (Outcome Unit) := fun cur =>
  match Cursor.peek cur with
  | .error f cur => .error f cur
  | .ok found cur => .ok (if p found then .success () else .failure (message found)) cur

/-! ## All primitives -/

/-- What a primitive does to the cursor. -/
def reading : Primitive → Reading Cursor (Outcome Unit)
  | .exact c => matchOne (test (· == c)) (mismatch (Text.charName c))
  | .charIn members => matchOne (test members.contains) (notInClass members)
  | .charsWhileIn members min => matchRun members.contains min (tooShort min)
  | .space min => matchRun (· ≤ ' ') min (tooFewSpaces min)
  | .eof => matchNext Option.isNone (mismatch "EOF")
  | .bof => fun cur =>
    if cur.position.isBof then .ok (.success ()) cur
    else matchNext (fun _ => false) (mismatch "BOF") cur
  | .keyword k => matchKeyword k
  | .keywordIn s => matchCandidates s.candidates 0

/-- The step of a primitive. -/
def step (p : Primitive) : Step Unit :=
  Context.reading p.reading

end Primitive

namespace Letter

variable {α : Type}

/-- The step of a parser of one character. -/
def step (l : Letter α) : Step α := fun ctx =>
  let ctx := match l.remark? with
    | none => ctx
    | some remark => ctx.log (remark ++ ctx.position.text)
  Context.reading (Primitive.matchOne l.accept fun _ => l.message) ctx

end Letter

end TextGrammar
