import Mathlib
import TextGrammar.Proofs.Literal.Numeral

set_option autoImplicit false

/-! # The grammar of escapes

What an escape is is said here without a scanner: by the letters that there are, by numerals, and by the
two halves that UTF-16 has for a character. What else may stand behind a backslash is malformed, in one
of seven ways. The scanner finds the one or the other. -/

namespace TextGrammar.Literal

open Text

/-! ## What there is to be read -/

/-- The letters that both dialects know, each with the character it stands for. -/
def letters : List (Char × Char) :=
  [('b', '\x08'), ('t', '\t'), ('n', '\n'), ('f', '\x0c'), ('r', '\r'), ('"', '"'), ('\'', '\''),
    ('\\', '\\')]

/-- Four hexadecimal digits. -/
def IsUnit (group : List Char) (unit : Nat) : Prop :=
  group.length = 4 ∧ IsNumeral 16 group unit

/-- One to three octal digits; there is a third one only if the first is three at most. -/
structure IsOctalCode (code : List Char) (value : Nat) : Prop where
  numeral : IsNumeral 8 code value
  ne_nil : code ≠ []
  length_le : code.length ≤ 3
  third : code.length = 3 → ∀ c ∈ code.head?, c ≤ '3'

/-- The first half that UTF-16 has for a character beyond `\uFFFF`. -/
def highHalf (c : Char) : Nat :=
  0xD800 + (c.toNat - 0x10000) / 0x400

/-- The second half. -/
def lowHalf (c : Char) : Nat :=
  0xDC00 + (c.toNat - 0x10000) % 0x400

/-- A text, from behind a backslash, begins with an escape that stands for a character, and the rest
is behind the escape. -/
inductive Escapes (dialect : Dialect) : List Char → Char → List Char → Prop where
  | letter {c meant : Char} {rest : List Char} (listed : (c, meant) ∈ letters) :
      Escapes dialect (c :: rest) meant rest
  | solidus {rest : List Char} (json : dialect = .json) : Escapes dialect ('/' :: rest) '/' rest
  | unicode {group rest : List Char} {c : Char} (unit : IsUnit group c.toNat) :
      Escapes dialect ('u' :: (group ++ rest)) c rest
  | pair {group group' rest : List Char} {c : Char} (beyond : 0x10000 ≤ c.toNat)
      (high : IsUnit group (highHalf c)) (low : IsUnit group' (lowHalf c)) :
      Escapes dialect ('u' :: (group ++ '\\' :: 'u' :: (group' ++ rest))) c rest
  | octal {code rest : List Char} {c : Char} (java : dialect = .java)
      (isCode : IsOctalCode code c.toNat)
      (longest : ∀ longer value, IsOctalCode longer value → longer <+: code ++ rest →
        longer.length ≤ code.length) :
      Escapes dialect (code ++ rest) c rest

/-- A text, from behind a backslash, begins with no escape. -/
inductive Malformed (dialect : Dialect) : List Char → EscapeError → Prop where
  | atEnd : Malformed dialect [] (.unknownEscape none)
  | unknown {c : Char} {rest : List Char} (no_letter : ∀ meant, (c, meant) ∉ letters)
      (no_unicode : c ≠ 'u') (no_solidus : ¬(dialect = .json ∧ c = '/'))
      (no_octal : ¬(dialect = .java ∧ ∃ d, IsDigit 8 c d)) :
      Malformed dialect (c :: rest) (.unknownEscape (some c))
  | digits {text : List Char} {found : Option Char} (cut : CutOff 4 text found) :
      Malformed dialect ('u' :: text) (.hexDigitExpected found)
  | digitsOfLow {group text : List Char} {high : Nat} {found : Option Char}
      (unit : IsUnit group high) (isHigh : isHighSurrogate high = true) (cut : CutOff 4 text found) :
      Malformed dialect ('u' :: (group ++ '\\' :: 'u' :: text)) (.hexDigitExpected found)
  | loneLow {group rest : List Char} {low : Nat} (unit : IsUnit group low)
      (isLow : isLowSurrogate low = true) :
      Malformed dialect ('u' :: (group ++ rest)) (.unpairedSurrogate low)
  | loneHigh {group rest : List Char} {high : Nat} (unit : IsUnit group high)
      (isHigh : isHighSurrogate high = true) (alone : ¬['\\', 'u'] <+: rest) :
      Malformed dialect ('u' :: (group ++ rest)) (.unpairedSurrogate high)
  | notLow {group group' rest : List Char} {high second : Nat} (unit : IsUnit group high)
      (isHigh : isHighSurrogate high = true) (unit' : IsUnit group' second)
      (not_low : isLowSurrogate second = false) :
      Malformed dialect ('u' :: (group ++ '\\' :: 'u' :: (group' ++ rest))) (.unpairedSurrogate high)

variable {dialect : Dialect} {text rest group : List Char} {c : Char} {unit high low : Nat}

/-! ## Surrogates -/

theorem isHighSurrogate_iff : isHighSurrogate unit = true ↔ 0xD800 ≤ unit ∧ unit ≤ 0xDBFF := by
  simp [isHighSurrogate]

theorem isLowSurrogate_iff : isLowSurrogate unit = true ↔ 0xDC00 ≤ unit ∧ unit ≤ 0xDFFF := by
  simp [isLowSurrogate]

theorem isHighSurrogate_highHalf (c : Char) : isHighSurrogate (highHalf c) = true := by
  have valid : c.toNat.isValidChar := c.valid
  unfold Nat.isValidChar at valid
  rw [isHighSurrogate_iff, highHalf]
  omega

theorem isLowSurrogate_lowHalf (c : Char) : isLowSurrogate (lowHalf c) = true := by
  rw [isLowSurrogate_iff, lowHalf]
  omega

/-- The halves of a character are put together to the character. -/
theorem pairCode_halves (beyond : 0x10000 ≤ c.toNat) : pairCode (highHalf c) (lowHalf c) = c.toNat := by
  unfold pairCode highHalf lowHalf
  omega

/-- Every pair of surrogates are the halves of a character. -/
theorem exists_halves (isHigh : isHighSurrogate high = true) (isLow : isLowSurrogate low = true) :
    ∃ c : Char, 0x10000 ≤ c.toNat ∧ highHalf c = high ∧ lowHalf c = low := by
  rw [isHighSurrogate_iff] at isHigh
  rw [isLowSurrogate_iff] at isLow
  have valid : (pairCode high low).isValidChar := by
    unfold Nat.isValidChar pairCode
    omega
  obtain ⟨c, meant⟩ : ∃ c : Char, c.toNat = pairCode high low :=
    ⟨_, (Char.toNat_ofNat _).trans (if_pos valid)⟩
  unfold pairCode at meant
  refine ⟨c, ?_, ?_, ?_⟩
  · omega
  · unfold highHalf
    omega
  · unfold lowHalf
    omega

/-- A character is no surrogate. -/
theorem not_surrogate (c : Char) : isHighSurrogate c.toNat = false ∧ isLowSurrogate c.toNat = false := by
  have valid : c.toNat.isValidChar := c.valid
  unfold Nat.isValidChar at valid
  rw [← Bool.not_eq_true, ← Bool.not_eq_true, isHighSurrogate_iff, isLowSurrogate_iff]
  omega

/-- Of four hexadecimal digits, what is no surrogate is a character. -/
theorem exists_char (h : IsUnit group unit) (no_high : isHighSurrogate unit = false)
    (no_low : isLowSurrogate unit = false) : ∃ c : Char, c.toNat = unit := by
  have small : unit < 16 ^ 4 := h.1 ▸ h.2.lt (by decide)
  rw [← Bool.not_eq_true, isHighSurrogate_iff] at no_high
  rw [← Bool.not_eq_true, isLowSurrogate_iff] at no_low
  have valid : unit.isValidChar := by
    unfold Nat.isValidChar
    omega
  exact ⟨Char.ofNat unit, (Char.toNat_ofNat unit).trans (if_pos valid)⟩

/-! ## Unicode escapes -/

theorem hexDigits_of_isUnit (h : IsUnit group unit) (rest : List Char) :
    hexDigits 4 0 (group ++ rest) = .ok (unit, rest) := by
  rw [← h.1]
  exact hexDigits_of_isNumeral group .nil h.2

theorem unicodeEscape_of_char (h : IsUnit group c.toNat) (rest : List Char) :
    unicodeEscape (group ++ rest) = .ok (c, rest) := by
  obtain ⟨no_high, no_low⟩ := not_surrogate c
  simp [unicodeEscape, hexDigits_of_isUnit h, bind, Except.bind, no_high, no_low]

theorem unicodeEscape_of_low (h : IsUnit group low) (isLow : isLowSurrogate low = true)
    (rest : List Char) : unicodeEscape (group ++ rest) = .error (.unpairedSurrogate low) := by
  have no_high : isHighSurrogate low = false := by
    rw [isLowSurrogate_iff] at isLow
    rw [← Bool.not_eq_true, isHighSurrogate_iff]
    omega
  simp [unicodeEscape, hexDigits_of_isUnit h, bind, Except.bind, no_high, isLow]

theorem unicodeEscape_of_alone (h : IsUnit group high) (isHigh : isHighSurrogate high = true)
    (alone : ¬['\\', 'u'] <+: rest) :
    unicodeEscape (group ++ rest) = .error (.unpairedSurrogate high) := by
  simp only [unicodeEscape, hexDigits_of_isUnit h, bind, Except.bind, isHigh, if_true]
  split
  · exact absurd ⟨_, rfl⟩ alone
  · rfl

/-- Behind a high surrogate and another `\u`, the digits there decide. -/
theorem unicodeEscape_of_high (h : IsUnit group high) (isHigh : isHighSurrogate high = true)
    (text : List Char) :
    unicodeEscape (group ++ '\\' :: 'u' :: text) =
      (hexDigits 4 0 text).bind fun (low, rest) =>
        if isLowSurrogate low then .ok (Char.ofNat (pairCode high low), rest)
        else .error (.unpairedSurrogate high) := by
  simp only [unicodeEscape, hexDigits_of_isUnit h, bind, Except.bind, isHigh, if_true]

/-! ## Octal escapes -/

/-- Which numerals are octal codes is told by their first digit. -/
theorem isOctalCode_cons_iff {first value : Nat} (digit : IsDigit 8 c first) :
    IsOctalCode (c :: group) value ↔
      IsNumeral 8 (c :: group) value ∧ group.length ≤ if first ≤ 3 then 2 else 1 := by
  constructor
  · rintro ⟨numeral, -, length_le, third⟩
    refine ⟨numeral, ?_⟩
    rw [List.length_cons] at length_le third
    split
    · exact Nat.le_of_succ_le_succ length_le
    · rename_i large
      by_contra exceeds
      exact large (digit.le_three_iff.mp (third (by omega) c rfl))
  · rintro ⟨numeral, few⟩
    refine ⟨numeral, List.cons_ne_nil c group, ?_, ?_⟩
    · rw [List.length_cons]
      split at few <;> omega
    · rintro three _ ⟨⟩
      rw [digit.le_three_iff]
      by_contra large
      rw [List.length_cons] at three
      rw [if_neg large] at few
      omega

/-- The value of an octal code is less than 256 after every digit. -/
theorem octalDigits_lt {first taken : Nat} (digit : IsDigit 8 c first)
    (few : taken ≤ if first ≤ 3 then 2 else 1) (text : List Char) :
    (octalDigits taken first text).1 < 2 ^ 8 := by
  obtain ⟨group, -, short, whole, -⟩ := octalDigits_spec taken digit.isNumeral text
  have bounded : _ < (first + 1) * 8 ^ group.length :=
    whole.lt_of_first (by decide) (by decide) digit
  have small : (first + 1) * 8 ^ group.length ≤ (first + 1) * 8 ^ (if first ≤ 3 then 2 else 1) :=
    Nat.mul_le_mul_left _ (Nat.pow_le_pow_right (by decide) (Nat.le_trans short few))
  have first_lt := digit.1
  split at small <;> omega

/-- Where there is an octal digit, the scanner finds a code, and there is no longer one. -/
theorem octalEscape_spec {first : Nat} (digit : IsDigit 8 c first) (text : List Char) :
    ∃ code, c :: text = code ++ (octalEscape first text).2 ∧
      IsOctalCode code (octalEscape first text).1.toNat ∧
      ∀ longer value, IsOctalCode longer value → longer <+: c :: text →
        longer.length ≤ code.length := by
  unfold octalEscape
  have small := octalDigits_lt digit (Nat.le_refl _) text
  have most (group : List Char) (value : Nat) : IsOctalCode (c :: group) value ↔
      IsNumeral 8 (c :: group) value ∧ group.length ≤ if first ≤ 3 then 2 else 1 :=
    isOctalCode_cons_iff digit
  generalize (if first ≤ 3 then 2 else 1) = more at small most ⊢
  obtain ⟨group, split, short, whole, last⟩ := octalDigits_spec more digit.isNumeral text
  generalize octalDigits more first text = scanned at small split whole last ⊢
  obtain ⟨value, rest⟩ := scanned
  simp only at small split whole last
  subst split
  have valid : value.isValidChar := .inl (by omega)
  have meant : (Char.ofNat value).toNat = value := (Char.toNat_ofNat value).trans (if_pos valid)
  refine ⟨c :: group, rfl, meant.symm ▸ (most group value).mpr ⟨whole, short⟩, ?_⟩
  intro longer value' isLonger begins
  by_contra exceeds
  rw [Nat.not_le] at exceeds
  obtain ⟨tail, rfl⟩ : c :: group <+: longer :=
    List.prefix_of_prefix_length_le (List.prefix_append (c :: group) rest) begins exceeds.le
  cases tail with
  | nil => simp at exceeds
  | cons e tail =>
      -- the scanner would have taken the digit that follows
      obtain ⟨behind, rfl⟩ : e :: tail <+: rest := by simpa using begins
      obtain ⟨d, hd⟩ := isLonger.numeral.isDigit (c := e) (by simp)
      have longer_le := ((most (group ++ e :: tail) value').mp isLonger).2
      rw [List.length_append, List.length_cons] at longer_le
      exact last (by omega) e rfl d hd

/-- Two longest codes at the beginning of the same text are the same. -/
theorem longest_unique {code code' rest rest' : List Char} {value value' : Nat}
    (isCode : IsOctalCode code value) (isCode' : IsOctalCode code' value')
    (same : code ++ rest = code' ++ rest')
    (longest : ∀ longer value, IsOctalCode longer value → longer <+: code ++ rest →
      longer.length ≤ code.length)
    (longest' : ∀ longer value, IsOctalCode longer value → longer <+: code' ++ rest' →
      longer.length ≤ code'.length) : code = code' ∧ value = value' ∧ rest = rest' := by
  have length : code.length = code'.length :=
    Nat.le_antisymm (longest' code value isCode (same ▸ List.prefix_append code rest))
      (longest code' value' isCode' (same ▸ List.prefix_append code' rest'))
  obtain ⟨rfl, rfl⟩ := List.append_inj same length
  exact ⟨rfl, isCode.numeral.unique (by decide) isCode'.numeral, rfl⟩

/-! ## One escape -/

theorem escape_cons (no_unicode : c ≠ 'u') (rest : List Char) :
    escape dialect (c :: rest) =
      if dialect = .json ∧ c = '/' then .ok ('/', rest)
      else match octalStart? dialect c with
        | some first => .ok (octalEscape first rest)
        | none => match letterEscape? c with
          | some meant => .ok (meant, rest)
          | none => .error (.unknownEscape (some c)) := by
  unfold escape
  split
  · rename_i same
    cases same
  · rename_i same
    exact absurd (List.cons.inj same).1 no_unicode
  · rename_i same
    cases same
    rfl

theorem letterEscape?_eq_some_iff {meant : Char} :
    letterEscape? c = some meant ↔ (c, meant) ∈ letters := by
  constructor
  · intro h
    unfold letterEscape? at h
    split at h
    all_goals
      cases h
      try decide
  · have known : ∀ entry ∈ letters, letterEscape? entry.1 = some entry.2 := by decide
    exact known (c, meant)

theorem octalStart?_eq_some_iff {first : Nat} :
    octalStart? dialect c = some first ↔ dialect = .java ∧ IsDigit 8 c first := by
  cases dialect with
  | java => simp [octalStart?, digitValue?_eq_some_iff]
  | json => simp [octalStart?]

theorem octalStart?_eq_none_iff :
    octalStart? dialect c = none ↔ ¬(dialect = .java ∧ ∃ d, IsDigit 8 c d) := by
  simp only [Option.eq_none_iff_forall_ne_some, ne_eq, octalStart?_eq_some_iff]
  tauto

/-- No letter is an octal digit or begins another escape. -/
theorem letters_apart {meant : Char} (listed : (c, meant) ∈ letters) :
    c ≠ 'u' ∧ c ≠ '/' ∧ ∀ d, ¬IsDigit 8 c d := by
  have apart : ∀ entry ∈ letters, entry.1 ≠ 'u' ∧ entry.1 ≠ '/' ∧ digitValue? 8 entry.1 = none := by
    decide
  have here := apart (c, meant) listed
  rwa [digitValue?_eq_none_iff (by decide)] at here

theorem escape_of_escapes {behind : List Char} (h : Escapes dialect text c behind) :
    escape dialect text = .ok (c, behind) := by
  cases h with
  | letter listed =>
      obtain ⟨no_unicode, no_solidus, no_octal⟩ := letters_apart listed
      have no_start : octalStart? dialect _ = none :=
        octalStart?_eq_none_iff.mpr fun ⟨_, d, hd⟩ => no_octal d hd
      rw [escape_cons no_unicode, if_neg fun h => no_solidus h.2, no_start,
        letterEscape?_eq_some_iff.mpr listed]
  | solidus json => rw [escape_cons (by decide), if_pos ⟨json, rfl⟩]
  | unicode unit => exact unicodeEscape_of_char unit behind
  | pair beyond high low =>
      have isLow := isLowSurrogate_lowHalf c
      show unicodeEscape _ = _
      rw [unicodeEscape_of_high high (isHighSurrogate_highHalf c), hexDigits_of_isUnit low,
        Except.bind]
      simp only [isLow, if_true, pairCode_halves beyond, Char.ofNat_toNat]
  | @octal code _ _ java isCode longest =>
      obtain ⟨first, group, rfl⟩ := List.exists_cons_of_ne_nil isCode.ne_nil
      obtain ⟨d, digit⟩ := isCode.numeral.isDigit List.mem_cons_self
      have no_unicode : first ≠ 'u' := by
        rintro rfl
        exact (digitValue?_eq_none_iff (by decide)).mp (by decide) d digit
      rw [List.cons_append, escape_cons no_unicode, if_neg (by simp [java]),
        octalStart?_eq_some_iff.mpr ⟨java, digit⟩]
      obtain ⟨code', split, isCode', longest'⟩ := octalEscape_spec digit (group ++ behind)
      obtain ⟨-, meant, last⟩ := longest_unique isCode isCode' split longest (split ▸ longest')
      exact congrArg Except.ok (Prod.ext (Char.toNat_inj.mp meant.symm) last.symm)

theorem escape_of_malformed {e : EscapeError} (h : Malformed dialect text e) :
    escape dialect text = .error e := by
  cases h with
  | atEnd => rfl
  | @unknown c _ no_letter no_unicode no_solidus no_octal =>
      have no_meaning : letterEscape? c = none := by
        simpa only [Option.eq_none_iff_forall_ne_some, ne_eq, letterEscape?_eq_some_iff] using no_letter
      rw [escape_cons no_unicode, if_neg no_solidus, octalStart?_eq_none_iff.mpr no_octal, no_meaning]
  | digits cut =>
      show unicodeEscape _ = _
      rw [unicodeEscape, hexDigits_of_cutOff cut]
      rfl
  | digitsOfLow unit isHigh cut =>
      show unicodeEscape _ = _
      rw [unicodeEscape_of_high unit isHigh, hexDigits_of_cutOff cut]
      rfl
  | loneLow unit isLow => exact unicodeEscape_of_low unit isLow _
  | loneHigh unit isHigh alone => exact unicodeEscape_of_alone unit isHigh alone
  | notLow unit isHigh unit' not_low =>
      show unicodeEscape _ = _
      rw [unicodeEscape_of_high unit isHigh, hexDigits_of_isUnit unit', Except.bind]
      simp only [not_low, Bool.false_eq_true, if_false]

/-- Behind `\\u` there is an escape, or there is something wrong. -/
theorem unicode_cases (dialect : Dialect) (text : List Char) :
    (∃ c behind, Escapes dialect ('u' :: text) c behind) ∨ ∃ e, Malformed dialect ('u' :: text) e := by
  obtain ⟨group, unit, rest, rfl, length, numeral⟩ | ⟨found, cut⟩ := hexDigits_cases 4 .nil text
  · have isUnit : IsUnit group unit := ⟨length, numeral⟩
    cases isHigh : isHighSurrogate unit with
    | false =>
        cases isLow : isLowSurrogate unit with
        | false =>
            obtain ⟨c, rfl⟩ := exists_char isUnit isHigh isLow
            exact .inl ⟨c, rest, .unicode isUnit⟩
        | true => exact .inr ⟨_, .loneLow isUnit isLow⟩
    | true =>
        by_cases follows : ['\\', 'u'] <+: rest
        · obtain ⟨text, rfl⟩ := follows
          simp only [List.cons_append, List.nil_append]
          obtain ⟨group', second, rest, rfl, length', numeral'⟩ | ⟨found, cut⟩ :=
            hexDigits_cases 4 .nil text
          · have isUnit' : IsUnit group' second := ⟨length', numeral'⟩
            cases isLow : isLowSurrogate second with
            | false => exact .inr ⟨_, .notLow isUnit isHigh isUnit' isLow⟩
            | true =>
                obtain ⟨c, beyond, rfl, rfl⟩ := exists_halves isHigh isLow
                exact .inl ⟨c, rest, .pair beyond isUnit isUnit'⟩
          · exact .inr ⟨_, .digitsOfLow isUnit isHigh cut⟩
        · exact .inr ⟨_, .loneHigh isUnit isHigh follows⟩
  · exact .inr ⟨_, .digits cut⟩

/-- Behind a backslash there is an escape, or there is something wrong. -/
theorem escape_cases (dialect : Dialect) (text : List Char) :
    (∃ c behind, Escapes dialect text c behind) ∨ ∃ e, Malformed dialect text e := by
  cases text with
  | nil => exact .inr ⟨_, .atEnd⟩
  | cons c text =>
      by_cases unicode : c = 'u'
      · exact unicode ▸ unicode_cases dialect text
      by_cases solidus : dialect = .json ∧ c = '/'
      · obtain ⟨json, rfl⟩ := solidus
        exact .inl ⟨'/', text, .solidus json⟩
      by_cases octal : dialect = .java ∧ ∃ d, IsDigit 8 c d
      · obtain ⟨java, d, digit⟩ := octal
        obtain ⟨code, split, isCode, longest⟩ := octalEscape_spec digit text
        rw [split] at longest ⊢
        exact .inl ⟨_, _, .octal java isCode longest⟩
      by_cases letter : ∃ meant, (c, meant) ∈ letters
      · obtain ⟨meant, listed⟩ := letter
        exact .inl ⟨meant, text, .letter listed⟩
      · push Not at letter
        exact .inr ⟨_, .unknown letter unicode solidus octal⟩

end TextGrammar.Literal
