set_option autoImplicit false

/-! # Text as a source

A text in memory delivers its characters from first to last and never fails. The place it has come
to is a position of the text, so it always lies between two whole characters. -/

namespace TextGrammar

/-- A text and the place up to which it has been delivered. -/
structure TextSource where
  text : String
  place : text.Pos

namespace TextSource

/-- A text of which nothing has been delivered. -/
def ofText (text : String) : TextSource :=
  ⟨text, text.startPos⟩

/-- The part that has not been delivered. -/
def remaining (s : TextSource) : String :=
  (s.text.sliceFrom s.place).copy

/-- The next character. -/
def peek (s : TextSource) : Option Char :=
  if h : s.place = s.text.endPos then none else some (s.place.get h)

/-- The source after its next character, or unchanged at the end. -/
def advance (s : TextSource) : TextSource :=
  if h : s.place = s.text.endPos then s else ⟨s.text, s.place.next h⟩

/-- The characters that have not been delivered. -/
def chars (s : TextSource) : List Char :=
  s.remaining.toList

@[simp] theorem chars_ofText (text : String) : (ofText text).chars = text.toList := by
  simp [chars, remaining, ofText]

/-- Away from the end, the next character comes first in what is left. -/
theorem chars_eq_cons {s : TextSource} (h : s.place ≠ s.text.endPos) :
    s.chars = s.place.get h :: (s.advance).chars := by
  have before := s.place.splits_next_right h
  have after := s.place.splits
  have step : s.advance = ⟨s.text, s.place.next h⟩ := dif_neg h
  rw [step]
  simp only [chars, remaining]
  rw [after.eq_right before]
  simp

theorem chars_eq_nil {s : TextSource} (h : s.place = s.text.endPos) : s.chars = [] := by
  simp [chars, remaining, h]

theorem peek_eq_head? (s : TextSource) : s.peek = s.chars.head? := by
  unfold peek
  split
  · rename_i h
    simp [chars_eq_nil h]
  · rename_i h
    simp [chars_eq_cons h]

@[simp] theorem chars_advance (s : TextSource) : s.advance.chars = s.chars.tail := by
  by_cases h : s.place = s.text.endPos
  · simp [advance, h, chars_eq_nil h]
  · simp [chars_eq_cons h]

end TextSource

end TextGrammar
