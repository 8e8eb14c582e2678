import TextGrammar.Source.ItemSource
import TextGrammar.Source.TextSource

set_option autoImplicit false

/-! # Sources of characters

A source delivers characters one after another and lets the next one be looked at. It may stand for
a resource that has to be released, and then counts how often it was. -/

namespace TextGrammar

/-- A supplier of characters. -/
inductive Source where
  /-- A text in memory. -/
  | text (s : TextSource)
  /-- A list of characters and faults. -/
  | items (s : ItemSource)
  /-- A source that holds a resource, which was released `closings` times. Releasing it fails with
  the message `failure?`, if there is one. -/
  | resource (inner : Source) (failure? : Option String) (closings : Nat)

namespace Source

/-- The source of a text. -/
def ofText (t : String) : Source :=
  .text (.ofText t)

/-- The source of a list of items. -/
def ofItems (is : List Item) : Source :=
  .items (.ofItems is)

/-- The next character, which stays in the source. -/
def peek : Reading Source (Option Char)
  | .text s => .ok s.peek (.text s)
  | .items s => Reading.embed .items (s.peek)
  | .resource inner failure? closings =>
    Reading.embed (.resource · failure? closings) (peek inner)

/-- The next character, which is then delivered. -/
def read : Reading Source (Option Char)
  | .text s => .ok s.peek (.text s.advance)
  | .items s => Reading.embed .items (s.read)
  | .resource inner failure? closings =>
    Reading.embed (.resource · failure? closings) (read inner)

/-- Releases what the source holds, the inner resource first. It may be done any number of times,
and each time counts. -/
def close : Reading Source Unit
  | .text s => .ok () (.text s)
  | .items s => .ok () (.items s)
  | .resource inner failure? closings =>
    match close inner with
    | .error f inner => .error f (.resource inner failure? (closings + 1))
    | .ok _ inner =>
      match failure? with
      | some m => .error ⟨.other, m⟩ (.resource inner failure? (closings + 1))
      | none => .ok () (.resource inner failure? (closings + 1))

/-- How often the resources of the source were released, all together. -/
def closings : Source → Nat
  | .text _ => 0
  | .items _ => 0
  | .resource inner _ n => n + inner.closings

/-- The characters that have not been delivered; faults between them do not count. -/
def chars : Source → List Char
  | .text s => s.chars
  | .items s => s.chars
  | .resource inner _ _ => inner.chars

@[simp] theorem chars_ofText (t : String) : (ofText t).chars = t.toList :=
  TextSource.chars_ofText t

@[simp] theorem chars_ofItems (is : List Item) :
    (ofItems is).chars = is.filterMap Item.char? := rfl

/-- Looking ahead delivers no character. -/
@[simp] theorem chars_peek (s : Source) : (Reading.left (peek s)).chars = s.chars := by
  induction s with
  | text s => rfl
  | items s => simp [peek, chars]
  | resource inner failure? closings ih => simpa [peek, chars] using ih

/-- Looking ahead finds the first character that is left. -/
theorem eq_head?_of_peek {s s' : Source} {found : Option Char} (h : peek s = .ok found s') :
    found = s.chars.head? := by
  induction s generalizing s' with
  | text s => cases h; exact s.peek_eq_head?
  | items s =>
    unfold peek at h
    cases seen : s.peek with
    | ok c t => rw [seen] at h; cases h; exact ItemSource.eq_head?_of_peek seen
    | error f t => rw [seen] at h; cases h
  | resource inner failure? closings ih =>
    unfold peek at h
    cases seen : peek inner with
    | ok c t => rw [seen] at h; cases h; exact @ih t seen
    | error f t => rw [seen] at h; cases h

theorem chars_of_read {s s' : Source} {found : Option Char} (h : read s = .ok found s') :
    s'.chars = s.chars.tail := by
  induction s generalizing s' with
  | text s => cases h; exact s.chars_advance
  | items s =>
    unfold read at h
    cases seen : s.read with
    | ok c t => rw [seen] at h; cases h; exact ItemSource.chars_of_read seen
    | error f t => rw [seen] at h; cases h
  | resource inner failure? closings ih =>
    unfold read at h
    cases seen : read inner with
    | ok c t => rw [seen] at h; cases h; exact @ih t seen
    | error f t => rw [seen] at h; cases h

/-- Reading delivers the first character that is left. -/
theorem eq_head?_of_read {s s' : Source} {found : Option Char} (h : read s = .ok found s') :
    found = s.chars.head? := by
  induction s generalizing s' with
  | text s => cases h; exact s.peek_eq_head?
  | items s =>
    unfold read at h
    cases seen : s.read with
    | ok c t => rw [seen] at h; cases h; exact ItemSource.eq_head?_of_read seen
    | error f t => rw [seen] at h; cases h
  | resource inner failure? closings ih =>
    unfold read at h
    cases seen : read inner with
    | ok c t => rw [seen] at h; cases h; exact @ih t seen
    | error f t => rw [seen] at h; cases h

theorem chars_of_read_error {s s' : Source} {f : Fault} (h : read s = .error f s') :
    s'.chars = s.chars := by
  induction s generalizing s' with
  | text s => cases h
  | items s =>
    unfold read at h
    cases seen : s.read with
    | ok c t => rw [seen] at h; cases h
    | error f t => rw [seen] at h; cases h; exact ItemSource.chars_of_read_error seen
  | resource inner failure? closings ih =>
    unfold read at h
    cases seen : read inner with
    | ok c t => rw [seen] at h; cases h
    | error f t => rw [seen] at h; cases h; exact @ih t seen

end Source

end TextGrammar
