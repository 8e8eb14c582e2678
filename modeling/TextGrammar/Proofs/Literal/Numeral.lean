import Mathlib.Data.Nat.Digits.Lemmas
import TextGrammar.Literal.Escape

set_option autoImplicit false

/-! # Numerals in escapes

The digits after a backslash are scanned one by one with the value of those before. What is scanned is a
numeral, in the sense in which digits are one anywhere. -/

namespace TextGrammar

namespace Text

/-! ## Digits -/

/-- The digits of bases up to sixteen, in the order of their values. -/
def lowerDigits : List Char :=
  ['0', '1', '2', '3', '4', '5', '6', '7', '8', '9', 'a', 'b', 'c', 'd', 'e', 'f']

/-- The same digits, with the letters in upper case. -/
def upperDigits : List Char :=
  ['0', '1', '2', '3', '4', '5', '6', '7', '8', '9', 'A', 'B', 'C', 'D', 'E', 'F']

/-- The character is the digit of a value in a base. A letter is a digit in either case. -/
def IsDigit (base : Nat) (c : Char) (d : Nat) : Prop :=
  d < base ∧ (lowerDigits[d]? = some c ∨ upperDigits[d]? = some c)

/-- What holds of the first characters in the order of their codes holds of every character with a code
as small. -/
@[elab_as_elim] theorem of_toNat_lt {bound : Nat} {motive : Char → Prop}
    (h : ∀ n < bound, motive (Char.ofNat n)) (c : Char) (small : c.toNat < bound) : motive c := by
  have here := h c.toNat small
  rwa [Char.ofNat_toNat] at here

theorem toNat_lt_of_hexValue_lt {c : Char} (h : hexValue c < 16) : c.toNat < 128 := by
  have bounded {last : Char} (h : c ≤ last) : c.toNat ≤ last.toNat := h
  unfold hexValue at h
  split at h
  · rename_i decimal
    exact Nat.lt_of_le_of_lt (bounded decimal.2) (by decide)
  · split at h
    · rename_i lower
      exact Nat.lt_of_le_of_lt (bounded lower.2) (by decide)
    · split at h
      · rename_i upper
        exact Nat.lt_of_le_of_lt (bounded upper.2) (by decide)
      · exact absurd h (Nat.lt_irrefl 16)

theorem hexValue_of_getElem? {digits : List Char} {c : Char} {d : Nat} (small : d < 16)
    (values : digits.map hexValue = List.range 16) (h : digits[d]? = some c) : hexValue c = d := by
  have here : (digits.map hexValue)[d]? = some (hexValue c) := by rw [List.getElem?_map, h]; rfl
  rw [values, List.getElem?_range small] at here
  exact (Option.some.inj here).symm

theorem hexValue_eq_iff {c : Char} {d : Nat} (small : d < 16) :
    hexValue c = d ↔ (lowerDigits[d]? = some c ∨ upperDigits[d]? = some c) := by
  constructor
  · intro h
    have listed : ∀ c : Char, c.toNat < 128 → ∀ d < 16, hexValue c = d →
        (lowerDigits[d]? = some c ∨ upperDigits[d]? = some c) :=
      fun c small => of_toNat_lt (by decide +kernel) c small
    exact listed c (toNat_lt_of_hexValue_lt (h ▸ small)) d small h
  · rintro (h | h)
    · exact hexValue_of_getElem? small (by decide) h
    · exact hexValue_of_getElem? small (by decide) h

theorem digitValue?_eq_some_iff {base d : Nat} {c : Char} (le : base ≤ 16) :
    digitValue? base c = some d ↔ IsDigit base c d := by
  unfold digitValue? IsDigit
  constructor
  · intro h
    split at h
    · rename_i small
      cases h
      exact ⟨small, (hexValue_eq_iff (Nat.lt_of_lt_of_le small le)).mp rfl⟩
    · cases h
  · rintro ⟨small, listed⟩
    rw [(hexValue_eq_iff (Nat.lt_of_lt_of_le small le)).mpr listed, if_pos small]

theorem digitValue?_eq_none_iff {base : Nat} {c : Char} (le : base ≤ 16) :
    digitValue? base c = none ↔ ∀ d, ¬IsDigit base c d := by
  simp only [Option.eq_none_iff_forall_ne_some, ne_eq, digitValue?_eq_some_iff le]

theorem IsDigit.le_three_iff {c : Char} {d : Nat} (h : IsDigit 8 c d) : c ≤ '3' ↔ d ≤ 3 := by
  have listed : ∀ c : Char, c.toNat < 128 → hexValue c < 8 → (c ≤ '3' ↔ hexValue c ≤ 3) :=
    fun c small => of_toNat_lt (by decide +kernel) c small
  obtain ⟨small, here⟩ := h
  have value := (hexValue_eq_iff (Nat.lt_trans small (by decide))).mpr here
  subst value
  exact listed c (toNat_lt_of_hexValue_lt (Nat.lt_trans small (by decide))) small

/-! ## Numerals -/

/-- The characters are a numeral of a base; the first digit counts most. -/
def IsNumeral (base : Nat) (chars : List Char) (value : Nat) : Prop :=
  ∃ digits, List.Forall₂ (IsDigit base) chars digits ∧ value = Nat.ofDigits base digits.reverse

variable {base value value' d : Nat} {chars more : List Char} {c : Char}

theorem IsNumeral.nil : IsNumeral base [] 0 :=
  ⟨[], .nil, rfl⟩

theorem IsNumeral.concat (h : IsNumeral base chars value) (hc : IsDigit base c d) :
    IsNumeral base (chars ++ [c]) (value * base + d) := by
  obtain ⟨digits, each, rfl⟩ := h
  refine ⟨digits ++ [d], List.rel_append each (.cons hc .nil), ?_⟩
  rw [List.reverse_append, List.reverse_singleton, List.singleton_append, Nat.ofDigits_cons,
    Nat.mul_comm, Nat.add_comm]

theorem IsDigit.isNumeral (hc : IsDigit base c d) : IsNumeral base [c] d := by
  have alone := IsNumeral.nil.concat hc
  rwa [Nat.zero_mul, Nat.zero_add] at alone

theorem IsNumeral.isDigit (h : IsNumeral base chars value) (hc : c ∈ chars) :
    ∃ d, IsDigit base c d := by
  obtain ⟨digits, each, -⟩ := h
  obtain ⟨i, small, rfl⟩ := List.mem_iff_getElem.mp hc
  exact ⟨_, each.get small (each.length_eq ▸ small)⟩

/-- A character is the digit of one value. -/
theorem IsDigit.unique (le : base ≤ 16) : Relator.RightUnique (IsDigit base) := fun _ _ _ hd hd' =>
  Option.some.inj (((digitValue?_eq_some_iff le).mpr hd).symm.trans
    ((digitValue?_eq_some_iff le).mpr hd'))

/-- A numeral has one value. -/
theorem IsNumeral.unique (le : base ≤ 16) (h : IsNumeral base chars value)
    (h' : IsNumeral base chars value') : value = value' := by
  obtain ⟨digits, each, rfl⟩ := h
  obtain ⟨digits', each', rfl⟩ := h'
  rw [(IsDigit.unique le).forall₂ each each']

theorem IsNumeral.lt (h : IsNumeral base chars value) (two_le : 1 < base) :
    value < base ^ chars.length := by
  obtain ⟨digits, each, rfl⟩ := h
  rw [each.length_eq, ← List.length_reverse]
  refine Nat.ofDigits_lt_base_pow_length two_le fun d hd => ?_
  obtain ⟨i, small, rfl⟩ := List.mem_iff_getElem.mp (List.mem_reverse.mp hd)
  exact (each.get (each.length_eq ▸ small) small).1

/-- The first digit bounds a numeral. -/
theorem IsNumeral.lt_of_first (le : base ≤ 16) (two_le : 1 < base)
    (h : IsNumeral base (c :: chars) value) (first : IsDigit base c d) :
    value < (d + 1) * base ^ chars.length := by
  obtain ⟨_, _ | ⟨first', others⟩, rfl⟩ := h
  rename_i digits
  cases IsDigit.unique le first first'
  have behind : Nat.ofDigits base digits.reverse < base ^ chars.length :=
    IsNumeral.lt ⟨digits, others, rfl⟩ two_le
  rw [List.reverse_cons, Nat.ofDigits_append, Nat.ofDigits_singleton, List.length_reverse,
    ← others.length_eq, Nat.add_mul, Nat.one_mul, Nat.mul_comm, Nat.add_comm]
  exact Nat.add_lt_add_left behind _

end Text

namespace Literal

open Text

/-! ## Exactly so many hexadecimal digits -/

variable {n value unit : Nat} {before text rest : List Char}

theorem hexDigits_of_isNumeral (group : List Char) (h : IsNumeral 16 before value)
    (whole : IsNumeral 16 (before ++ group) unit) :
    hexDigits group.length value (group ++ rest) = .ok (unit, rest) := by
  induction group generalizing before value with
  | nil =>
      rw [List.append_nil] at whole
      rw [h.unique (Nat.le_refl 16) whole]
      rfl
  | cons c group ih =>
      obtain ⟨d, hd⟩ := whole.isDigit (c := c) (by simp)
      simp only [List.length_cons, List.cons_append, hexDigits,
        (digitValue?_eq_some_iff (Nat.le_refl 16)).mpr hd]
      exact ih (h.concat hd) (by simpa using whole)

/-- The first `n` characters are no digits throughout: some other character is found among them, or
the end. -/
def CutOff (n : Nat) (text : List Char) (found : Option Char) : Prop :=
  ∃ digits behind, text = digits ++ behind ∧ digits.length < n ∧
    (∀ c ∈ digits, ∃ d, IsDigit 16 c d) ∧ behind.head? = found ∧ ∀ c ∈ found, ∀ d, ¬IsDigit 16 c d

theorem hexDigits_of_cutOff {found : Option Char} (h : CutOff n text found) (value : Nat) :
    hexDigits n value text = .error (.hexDigitExpected found) := by
  obtain ⟨digits, behind, rfl, short, each, rfl, other⟩ := h
  induction digits generalizing n value with
  | nil =>
      obtain ⟨n, rfl⟩ := Nat.exists_eq_succ_of_ne_zero (Nat.ne_zero_of_lt short)
      cases behind with
      | nil => rfl
      | cons c behind =>
          have none := (digitValue?_eq_none_iff (Nat.le_refl 16)).mpr (other c rfl)
          simp only [List.nil_append, hexDigits, none]
          rfl
  | cons c digits ih =>
      obtain ⟨n, rfl⟩ := Nat.exists_eq_succ_of_ne_zero (Nat.ne_zero_of_lt short)
      obtain ⟨⟨d, hd⟩, others⟩ := List.forall_mem_cons.mp each
      simp only [List.cons_append, hexDigits, (digitValue?_eq_some_iff (Nat.le_refl 16)).mpr hd]
      exact ih _ (Nat.lt_of_succ_lt_succ short) others

/-- There are as many digits as are due, or they are cut off. -/
theorem hexDigits_cases (n : Nat) (h : IsNumeral 16 before value) (text : List Char) :
    (∃ group unit rest, text = group ++ rest ∧ group.length = n ∧
        IsNumeral 16 (before ++ group) unit) ∨ ∃ found, CutOff n text found := by
  induction n generalizing before value text with
  | zero => exact .inl ⟨[], value, text, rfl, rfl, by rwa [List.append_nil]⟩
  | succ n ih =>
      cases text with
      | nil => exact .inr ⟨none, [], [], rfl, Nat.succ_pos n, by simp, rfl, by simp⟩
      | cons c text =>
          by_cases digit : ∃ d, IsDigit 16 c d
          · obtain ⟨d, hd⟩ := digit
            obtain ⟨group, unit, rest, rfl, length, whole⟩ |
              ⟨found, digits, behind, rfl, short, each, rest⟩ := ih (h.concat hd) text
            · exact .inl ⟨c :: group, unit, rest, rfl, by simp [length], by simpa using whole⟩
            · refine .inr ⟨found, c :: digits, behind, rfl, Nat.succ_lt_succ short, ?_, rest⟩
              exact List.forall_mem_cons.mpr ⟨⟨d, hd⟩, each⟩
          · push Not at digit
            exact .inr ⟨some c, [], c :: text, rfl, Nat.succ_pos n, by simp, rfl, by simpa using digit⟩

/-! ## As many octal digits as there are -/

/-- What is scanned are digits, no more than so many, and none follows if there might have been more. -/
theorem octalDigits_spec (n : Nat) (h : IsNumeral 8 before value) (text : List Char) :
    ∃ group, text = group ++ (octalDigits n value text).2 ∧ group.length ≤ n ∧
      IsNumeral 8 (before ++ group) (octalDigits n value text).1 ∧
      (group.length < n → ∀ c ∈ (octalDigits n value text).2.head?, ∀ d, ¬IsDigit 8 c d) := by
  induction n generalizing before value text with
  | zero => exact ⟨[], rfl, Nat.le_refl 0, by simpa [octalDigits] using h, by simp⟩
  | succ n ih =>
      cases text with
      | nil => exact ⟨[], rfl, Nat.zero_le _, by simpa [octalDigits] using h, by simp [octalDigits]⟩
      | cons c text =>
          cases hd : digitValue? 8 c with
          | none =>
              have other := (digitValue?_eq_none_iff (by decide)).mp hd
              exact ⟨[], by simp [octalDigits, hd], Nat.zero_le _, by simpa [octalDigits, hd] using h,
                by simpa [octalDigits, hd] using other⟩
          | some d =>
              have digit := (digitValue?_eq_some_iff (by decide)).mp hd
              obtain ⟨group, split, short, whole, last⟩ := ih (h.concat digit) text
              simp only [octalDigits, hd]
              refine ⟨c :: group, by rw [List.cons_append, ← split], Nat.succ_le_succ short, ?_, ?_⟩
              · simpa using whole
              · exact fun more => last (Nat.lt_of_succ_lt_succ more)

end Literal

end TextGrammar
