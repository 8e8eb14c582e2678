import TextGrammar.Source.Fault

set_option autoImplicit false

/-! # A list of characters and faults as a source

A decoder over a stream delivers characters with faults between them. Each fault is reported once:
who asks again after a fault gets what comes behind it. A character that has been looked at is kept
until it is read, and the end of the list is remembered once it has been seen. -/

namespace TextGrammar

/-- What a source delivers in one step. -/
inductive Item where
  | char (c : Char)
  | fault (f : Fault)
deriving DecidableEq

/-- The character of an item that is one. -/
def Item.char? : Item → Option Char
  | .char c => some c
  | .fault _ => none

/-- What is known of the next character without asking for it. -/
inductive Ahead where
  | unknown
  | char (c : Char)
  | atEnd
deriving DecidableEq

/-- Items that have not been asked for, and what is known ahead of them. -/
structure ItemSource where
  items : List Item
  ahead : Ahead
deriving DecidableEq

namespace ItemSource

/-- A list of items of which none has been asked for. -/
def ofItems (items : List Item) : ItemSource :=
  ⟨items, .unknown⟩

/-- The next character. A fault in its place is taken off the list. -/
def peek : Reading ItemSource (Option Char) := fun s =>
  match s.ahead with
  | .char c => .ok (some c) s
  | .atEnd => .ok none s
  | .unknown =>
    match s.items with
    | [] => .ok none { s with ahead := .atEnd }
    | .char c :: rest => .ok (some c) ⟨rest, .char c⟩
    | .fault f :: rest => .error f ⟨rest, .unknown⟩

/-- The next character, which is then delivered. -/
def read : Reading ItemSource (Option Char) := fun s =>
  match peek s with
  | .ok (some c) s => .ok (some c) { s with ahead := .unknown }
  | .ok none s => .ok none s
  | .error f s => .error f s

/-- The items that have not been delivered. -/
def undelivered (s : ItemSource) : List Item :=
  match s.ahead with
  | .char c => .char c :: s.items
  | .atEnd => []
  | .unknown => s.items

/-- The characters that have not been delivered. -/
def chars (s : ItemSource) : List Char :=
  s.undelivered.filterMap Item.char?

@[simp] theorem chars_ofItems (items : List Item) :
    (ofItems items).chars = items.filterMap Item.char? := rfl

/-- Looking ahead delivers no character. -/
@[simp] theorem chars_peek (s : ItemSource) : (Reading.left (peek s)).chars = s.chars := by
  obtain ⟨items, ahead⟩ := s
  cases ahead with
  | char c => rfl
  | atEnd => rfl
  | unknown =>
    cases items with
    | nil => rfl
    | cons item rest => cases item <;> rfl

/-- Looking ahead finds the first character that is left. -/
theorem eq_head?_of_peek {s s' : ItemSource} {found : Option Char} (h : peek s = .ok found s') :
    found = s.chars.head? := by
  obtain ⟨items, ahead⟩ := s
  unfold peek at h
  cases ahead with
  | char c => cases h; rfl
  | atEnd => cases h; rfl
  | unknown =>
    cases items with
    | nil => cases h; rfl
    | cons item rest => cases item <;> cases h; rfl

theorem chars_of_read {s s' : ItemSource} {found : Option Char} (h : read s = .ok found s') :
    s'.chars = s.chars.tail := by
  obtain ⟨items, ahead⟩ := s
  unfold read peek at h
  cases ahead with
  | char c => cases h; rfl
  | atEnd => cases h; rfl
  | unknown =>
    cases items with
    | nil => cases h; rfl
    | cons item rest => cases item <;> cases h; rfl

theorem eq_head?_of_read {s s' : ItemSource} {found : Option Char} (h : read s = .ok found s') :
    found = s.chars.head? := by
  unfold read at h
  split at h <;> cases h <;> rename_i seen <;> exact eq_head?_of_peek seen

theorem chars_of_read_error {s s' : ItemSource} {f : Fault} (h : read s = .error f s') :
    s'.chars = s.chars := by
  unfold read at h
  split at h <;> cases h
  rename_i seen
  simpa [seen] using s.chars_peek

end ItemSource

end TextGrammar
