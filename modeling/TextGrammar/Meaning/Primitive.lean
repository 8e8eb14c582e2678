import TextGrammar.Meaning.Basic
import TextGrammar.Step.Primitive

set_option autoImplicit false

/-! # What a primitive means

A primitive looks at the text from a place on and says how far it goes. A keyword goes as far as its
letters and the text agree. -/

namespace TextGrammar.Meaning

variable {α : Type}

/-- One accepted character. -/
def one (accept : Char → Option α) (message : Option Char → String) : Meaning α := fun w n =>
  match (w.next? n).bind accept with
  | none => .ok (.failure (message (w.next? n)), n)
  | some value => .ok (.success value, n + 1)

/-- As many accepted characters as there are. -/
def many (accept : Char → Bool) (min : Nat) (message : Nat → String) : Meaning Unit := fun w n =>
  let count := w.runLength accept n
  .ok (if count < min then .failure (message count) else .success (), n + count)

/-- The next character, or the end, is as it should be. -/
def next (p : Option Char → Bool) (message : Option Char → String) : Meaning Unit := fun w n =>
  .ok (if p (w.next? n) then .success () else .failure (message (w.next? n)), n)

/-- The failure at the letter `c` of a keyword. -/
def mismatch (w : Setting) (c : Char) (n : Nat) : Outcome Unit :=
  .failure (Primitive.mismatch (Text.charName c) (w.next? n))

/-- A keyword. -/
def keyword (k : Keyword) : Meaning Unit := fun w n =>
  let letters := k.text.toList
  let common := commonLength letters (w.rest n)
  match letters[common]? with
  | none => .ok (.success (), n + common)
  | some c =>
    let final := k.cut?.any (· ≤ common)
    .ok ((mismatch w c (n + common)).allowBacktrack !final, n + common)

theorem keyword_eq_success {k : Keyword} {w : Setting} {n : Nat}
    (h : k.text.toList[commonLength k.text.toList (w.rest n)]? = none) :
    keyword k w n = .ok (.success (), n + commonLength k.text.toList (w.rest n)) := by
  simp only [keyword, h]

theorem keyword_eq_mismatch {k : Keyword} {w : Setting} {n : Nat} {c : Char}
    (h : k.text.toList[commonLength k.text.toList (w.rest n)]? = some c) :
    keyword k w n =
      .ok ((mismatch w c (n + commonLength k.text.toList (w.rest n))).allowBacktrack
          !(k.cut?.any (· ≤ commonLength k.text.toList (w.rest n))),
        n + commonLength k.text.toList (w.rest n)) := by
  simp only [keyword, h]

/-- Keywords with their forks; the keyword begins at `n`, and `offset` letters have been read. -/
def candidates : List KeywordSet.Candidate → Nat → Meaning Unit
  | [], offset => fun _ n => .ok (.failure "expected keyword not found.", n + offset)
  | k :: ks, offset => fun w n =>
    let common := offset + commonLength (k.letters.drop offset) (w.rest (n + offset))
    match k.letters[common]? with
    | none => .ok (.success (), n + common)
    | some c =>
      if k.fork?.any (common ≤ ·) then candidates ks common w n
      else .ok (mismatch w c (n + common), n + common)

/-- A primitive. -/
def primitive : Primitive → Meaning Unit
  | .exact c => one (Primitive.test (· == c)) (Primitive.mismatch (Text.charName c))
  | .charIn members => one (Primitive.test members.contains) (Primitive.notInClass members)
  | .charsWhileIn members min => many members.contains min (Primitive.tooShort min)
  | .space min => many (· ≤ ' ') min (Primitive.tooFewSpaces min)
  | .eof => next Option.isNone (Primitive.mismatch "EOF")
  | .bof => fun w n =>
    if n = 0 then .ok (.success (), n) else next (fun _ => false) (Primitive.mismatch "BOF") w n
  | .keyword k => keyword k
  | .keywordIn s => candidates s.candidates 0

end TextGrammar.Meaning
