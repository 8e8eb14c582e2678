import TextGrammar.Text.CharName
import TextGrammar.Text.Digit

set_option autoImplicit false

/-! # Escapes in string literals

The body of a string literal stands for a text: a backslash and the characters after it give one
character, every other character gives itself. Two dialects differ in little: JSON knows `\/`,
Java knows octal codes. -/

namespace TextGrammar.Literal

/-- The language whose string literals are read. -/
inductive Dialect where
  | java
  | json
deriving DecidableEq, Repr

/-- What is wrong with an escape. -/
inductive EscapeError where
  /-- No escape begins with this character, or the text ends after a backslash. -/
  | unknownEscape (found : Option Char)
  /-- Four hexadecimal digits are due, and something else is found. -/
  | hexDigitExpected (found : Option Char)
  /-- One half of a surrogate pair stands without the other. -/
  | unpairedSurrogate (unit : Nat)
deriving DecidableEq, Repr

/-- A number in upper-case hexadecimal digits, at least four of them. -/
def upperHex4 (n : Nat) : String :=
  let digits := (Nat.toDigits 16 n).map Char.toUpper
  String.ofList (List.replicate (4 - digits.length) '0' ++ digits)

def EscapeError.message : EscapeError → String
  | .unknownEscape found => "unknown escape sequence '\\' + " ++ Text.foundName found ++ " found."
  | .hexDigitExpected found => "[0-9A-Fa-f] expected but " ++ Text.foundName found ++ " found."
  | .unpairedSurrogate unit => "unpaired surrogate \\u" ++ upperHex4 unit ++ " found."

/-! ## Digits -/

/-- Exactly `n` hexadecimal digits, appended to those of `value`. -/
def hexDigits : Nat → Nat → List Char → Except EscapeError (Nat × List Char)
  | 0, value, rest => .ok (value, rest)
  | _ + 1, _, [] => .error (.hexDigitExpected none)
  | n + 1, value, c :: rest =>
    match Text.digitValue? 16 c with
    | some d => hexDigits n (value * 16 + d) rest
    | none => .error (.hexDigitExpected (some c))

/-- At most `n` further octal digits, appended to those of `value`: as many as there are. -/
def octalDigits : Nat → Nat → List Char → Nat × List Char
  | 0, value, rest => (value, rest)
  | _ + 1, value, [] => (value, [])
  | n + 1, value, c :: rest =>
    match Text.digitValue? 8 c with
    | some d => octalDigits n (value * 8 + d) rest
    | none => (value, c :: rest)

/-! ## Surrogates -/

/-- The first half of a surrogate pair. -/
def isHighSurrogate (unit : Nat) : Bool :=
  0xD800 ≤ unit && unit ≤ 0xDBFF

/-- The second half of a surrogate pair. -/
def isLowSurrogate (unit : Nat) : Bool :=
  0xDC00 ≤ unit && unit ≤ 0xDFFF

/-- The code point of a surrogate pair. -/
def pairCode (high low : Nat) : Nat :=
  0x10000 + (high - 0xD800) * 0x400 + (low - 0xDC00)

/-! ## One escape -/

/-- The escape `\u`, from its first digit on. A high surrogate takes the `\u` after it too. -/
def unicodeEscape (text : List Char) : Except EscapeError (Char × List Char) := do
  let (unit, rest) ← hexDigits 4 0 text
  if isHighSurrogate unit then
    match rest with
    | '\\' :: 'u' :: rest =>
      -- from here on it is the digits of the second half that are at fault
      let (low, rest) ← hexDigits 4 0 rest
      if isLowSurrogate low then .ok (Char.ofNat (pairCode unit low), rest)
      else .error (.unpairedSurrogate unit)
    | _ => .error (.unpairedSurrogate unit)
  else if isLowSurrogate unit then .error (.unpairedSurrogate unit)
  else .ok (Char.ofNat unit, rest)

/-- The escapes of one letter that both dialects know. -/
def letterEscape? : Char → Option Char
  | 'b' => some '\x08'
  | 't' => some '\t'
  | 'n' => some '\n'
  | 'f' => some '\x0c'
  | 'r' => some '\r'
  | '"' => some '"'
  | '\'' => some '\''
  | '\\' => some '\\'
  | _ => none

/-- An octal code that begins with the digit `first`: of three digits at most, or of two when
three would pass 255. -/
def octalEscape (first : Nat) (rest : List Char) : Char × List Char :=
  let (code, rest) := octalDigits (if first ≤ 3 then 2 else 1) first rest
  (Char.ofNat code, rest)

/-- The first digit of an octal code, in the dialect that has them. -/
def octalStart? : Dialect → Char → Option Nat
  | .java, c => Text.digitValue? 8 c
  | .json, _ => none

/-- The character that an escape stands for, and the text after it; the argument begins after the
backslash. -/
def escape (dialect : Dialect) : List Char → Except EscapeError (Char × List Char)
  | [] => .error (.unknownEscape none)
  | 'u' :: rest => unicodeEscape rest
  | c :: rest =>
    if dialect = .json ∧ c = '/' then .ok ('/', rest)
    else match octalStart? dialect c with
      | some first => .ok (octalEscape first rest)
      | none => match letterEscape? c with
        | some meant => .ok (meant, rest)
        | none => .error (.unknownEscape (some c))

/-! ## What is left gets shorter -/

theorem length_of_hexDigits {n value : Nat} {text rest : List Char} {result : Nat}
    (h : hexDigits n value text = .ok (result, rest)) : rest.length + n = text.length := by
  induction n generalizing value text with
  | zero => simp_all [hexDigits]
  | succ n ih =>
    cases text with
    | nil => simp [hexDigits] at h
    | cons c text =>
      simp only [hexDigits] at h
      split at h
      · have := ih h
        simp only [List.length_cons]
        omega
      · simp at h

theorem length_octalDigits_le (n value : Nat) (text : List Char) :
    (octalDigits n value text).2.length ≤ text.length := by
  induction n generalizing value text with
  | zero => simp [octalDigits]
  | succ n ih =>
    cases text with
    | nil => simp [octalDigits]
    | cons c text =>
      simp only [octalDigits]
      split
      · exact Nat.le_succ_of_le (ih _ _)
      · simp

theorem length_octalEscape_le (first : Nat) (text : List Char) :
    (octalEscape first text).2.length ≤ text.length :=
  length_octalDigits_le _ _ _

theorem length_of_unicodeEscape {text rest : List Char} {c : Char}
    (h : unicodeEscape text = .ok (c, rest)) : rest.length < text.length := by
  unfold unicodeEscape at h
  cases first : hexDigits 4 0 text with
  | error e => simp [first, bind, Except.bind] at h
  | ok unit =>
    have before := length_of_hexDigits first
    simp only [first, bind, Except.bind] at h
    split at h
    · split at h
      · rename_i tail same
        cases second : hexDigits 4 0 tail with
        | error e => simp [second] at h
        | ok low =>
          have after := length_of_hexDigits second
          simp only [second] at h
          split at h
          · simp only [Except.ok.injEq, Prod.mk.injEq] at h
            rw [same] at before
            simp only [List.length_cons, h.2] at before after
            omega
          · simp at h
      · simp at h
    · split at h
      · simp at h
      · simp only [Except.ok.injEq, Prod.mk.injEq] at h
        rw [h.2] at before
        omega

theorem length_of_escape {dialect : Dialect} {text rest : List Char} {c : Char}
    (h : escape dialect text = .ok (c, rest)) : rest.length < text.length := by
  unfold escape at h
  split at h
  · simp at h
  · exact Nat.lt_succ_of_lt (length_of_unicodeEscape h)
  · split at h
    · simp_all
    · split at h
      · rename_i tail _ _ _ first _
        simp only [Except.ok.injEq] at h
        have := length_octalEscape_le first tail
        rw [h] at this
        exact Nat.lt_succ_of_le this
      · split at h <;> simp_all

/-! ## A whole literal -/

/-- The text that the body of a string literal stands for, or what is wrong with the first
malformed escape in it. -/
def decode (dialect : Dialect) : List Char → Except EscapeError (List Char)
  | [] => .ok []
  | '\\' :: text =>
    match h : escape dialect text with
    | .error e => .error e
    | .ok (c, rest) =>
      have := length_of_escape h
      (decode dialect rest).map (c :: ·)
  | c :: text => (decode dialect text).map (c :: ·)
termination_by text => text.length

end TextGrammar.Literal
