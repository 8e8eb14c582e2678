import TextGrammar.Text.Quoted

set_option autoImplicit false

/-! # Ranges of characters

A range holds the characters from its first to its last one, both included. -/

namespace TextGrammar

/-- Characters are ordered by code point. -/
theorem char_le_iff (a b : Char) : a ≤ b ↔ a.toNat ≤ b.toNat :=
  Char.le_def.trans UInt32.le_iff_toNat_le

/-- The characters from `lo` to `hi`. -/
structure CharRange where
  lo : Char
  hi : Char
  lo_le_hi : lo ≤ hi
deriving DecidableEq

namespace CharRange

/-- The range between two characters, given in either order. -/
def between (a b : Char) : CharRange :=
  if h : a ≤ b then ⟨a, b, h⟩
  else ⟨b, a, by rw [char_le_iff] at *; omega⟩

/-- The range of one character. -/
def single (c : Char) : CharRange :=
  ⟨c, c, Char.le_refl c⟩

def contains (r : CharRange) (c : Char) : Bool :=
  r.lo ≤ c && c ≤ r.hi

/-- At least one code point lies between the end of `r` and the start of `s`. -/
def Before (r s : CharRange) : Prop :=
  r.hi.toNat + 1 < s.lo.toNat

instance (r s : CharRange) : Decidable (r.Before s) :=
  inferInstanceAs (Decidable (_ < _))

/-- The range that begins like `r` and ends like the one of both ranges that ends later. -/
def extend (r next : CharRange) : CharRange where
  lo := r.lo
  hi := if r.hi ≤ next.hi then next.hi else r.hi
  lo_le_hi := by
    have hr := r.lo_le_hi
    simp only [char_le_iff] at *
    split <;> omega

/-- What a range and the next one hold together, if they overlap or touch. The next one does not begin
before the first. -/
def mergeWith (r next : CharRange) : Option CharRange :=
  if next.lo.toNat ≤ r.hi.toNat + 1 then some (r.extend next) else none

/-! ## Small facts -/

/-- A code point lies between the bounds, whether or not there is a character for it. -/
def Holds (r : CharRange) (n : Nat) : Prop :=
  r.lo.toNat ≤ n ∧ n ≤ r.hi.toNat

theorem contains_iff (r : CharRange) (c : Char) : r.contains c = true ↔ r.Holds c.toNat := by
  simp only [contains, Bool.and_eq_true, decide_eq_true_eq, char_le_iff, Holds]

theorem contains_single (a c : Char) : (single a).contains c = (a == c) := by
  rw [Bool.eq_iff_iff, contains_iff, beq_iff_eq, ← Char.toNat_inj]
  show a.toNat ≤ c.toNat ∧ c.toNat ≤ a.toNat ↔ a.toNat = c.toNat
  omega

theorem toNat_lo_le (r : CharRange) : r.lo.toNat ≤ r.hi.toNat :=
  (char_le_iff _ _).mp r.lo_le_hi

theorem toNat_hi_extend (r next : CharRange) :
    (r.extend next).hi.toNat = max r.hi.toNat next.hi.toNat := by
  simp only [extend, char_le_iff]
  split <;> omega

/-- Ranges that are not merged leave a gap. -/
theorem before_of_mergeWith {r next : CharRange} (h : r.mergeWith next = none) : r.Before next := by
  unfold mergeWith at h
  split at h
  · cases h
  · rename_i apart
    exact Nat.lt_of_not_le apart

/-- A merged range begins like the first of both, so that it leaves the same gap behind any range
before it. -/
theorem lo_of_mergeWith {r next joined : CharRange} (h : r.mergeWith next = some joined) :
    joined.lo = r.lo := by
  unfold mergeWith at h
  split at h
  · cases h
    rfl
  · cases h

/-- A merged range holds what either range holds, provided that the next one does not begin before the
first: then no code point between them is missing. -/
theorem holds_of_mergeWith {r next joined : CharRange} (h : r.mergeWith next = some joined)
    (ascending : r.lo ≤ next.lo) (n : Nat) : joined.Holds n ↔ r.Holds n ∨ next.Holds n := by
  unfold mergeWith at h
  split at h
  · rename_i reaches
    cases h
    have hr := r.toNat_lo_le
    rw [char_le_iff] at ascending
    simp only [Holds, toNat_hi_extend]
    simp only [extend]
    omega
  · cases h

/-! ## Printed forms -/

/-- One character in the printed form of a class: brackets, the backslash and the circumflex are
escaped, and a control character is written by its escape. -/
def letterText (c : Char) : String :=
  if c = '[' ∨ c = ']' ∨ c = '\\' ∨ c = '^' then "\\" ++ c.toString
  else if c.toNat < 32 ∨ (127 ≤ c.toNat ∧ c.toNat < 160) then
    if c = '\t' then "\\t" else if c = '\n' then "\\n" else if c = '\r' then "\\r"
    else Text.codeEscape c
  else c.toString

/-- The printed form of a range: its bounds with a hyphen between them, or its only character. -/
def text (r : CharRange) : String :=
  if r.lo = r.hi then letterText r.lo
  else letterText r.lo ++ "-" ++ letterText r.hi

/-- The form in which the description of a reader's state shows a range. -/
def fields (r : CharRange) : String :=
  "CharRange \x7b start: " ++ Text.quotedLetter r.lo ++ ", end: " ++ Text.quotedLetter r.hi ++ " \x7d"

end CharRange

end TextGrammar
