import TextGrammar.Position
import TextGrammar.Source.Basic

set_option autoImplicit false

/-! # Reading with save points

A cursor reads a source character by character and knows its position. A mark saves the position; as
long as a mark is open, what is read is also kept, so that the cursor can go back to the innermost
mark or tell the text read since then. Characters handed back are read again before the source is
asked for more.

A line ends with a line feed, or with a carriage return that no line feed follows. To tell which of
the two a carriage return is, the cursor looks at the character behind it, and it does so before it
moves: a fault at that point loses nothing. -/

namespace TextGrammar

/-- A source and how far it has been read. -/
structure Cursor where
  source : Source
  /-- Characters taken from the source or handed back, which are read next. -/
  pending : List Char
  /-- The position of the next character. -/
  position : Position
  /-- The saved positions, the innermost first. -/
  marks : List Position
  /-- The characters read since the outermost mark, the latest first. -/
  backup : List Char
  closed : Bool

namespace Cursor

/-- A cursor at the beginning of a source. -/
def ofSource (source : Source) : Cursor :=
  ⟨source, [], .bof, [], [], false⟩

/-- A cursor at the beginning of a text. -/
def ofText (text : String) : Cursor :=
  ofSource (.ofText text)

/-- The characters that have not been read. -/
def rest (cur : Cursor) : List Char :=
  cur.pending ++ cur.source.chars

/-- The number of characters that have not been read. -/
def size (cur : Cursor) : Nat :=
  cur.rest.length

/-- Lets the source answer. -/
def ask {α : Type} (query : Reading Source α) : Reading Cursor α := fun cur =>
  Reading.embed (fun source => { cur with source }) (query cur.source)

/-! ## Reading -/

/-- The next character, which stays unread; nothing at the end. -/
def peek : Reading Cursor (Option Char) := fun cur =>
  match cur.pending with
  | c :: _ => .ok (some c) cur
  | [] => ask Source.peek cur

/-- Takes the next character out of the source and puts it before what is read next. -/
def fetch : Reading Cursor Unit := fun cur =>
  match Source.read cur.source with
  | .ok found source => .ok () { cur with source, pending := found.toList }
  | .error f source => .error f { cur with source }

/-- The character after the next one. -/
def peekSecond : Reading Cursor (Option Char) := fun cur =>
  match cur.pending with
  | _ :: c :: _ => .ok (some c) cur
  | [_] => ask Source.peek cur
  | [] =>
    match fetch cur with
    | .ok _ cur => ask Source.peek cur
    | .error f cur => .error f cur

/-- The next character, which is `c`, ends a line. -/
def endsLine (c : Char) : Reading Cursor Bool := fun cur =>
  if c = '\n' then .ok true cur
  else if c = '\r' then
    match peekSecond cur with
    | .ok second cur => .ok (second != some '\n') cur
    | .error f cur => .error f cur
  else .ok false cur

/-- Takes the next character away from where it waits. -/
def drop : Reading Cursor Unit := fun cur =>
  match cur.pending with
  | _ :: pending => .ok () { cur with pending }
  | [] =>
    match Source.read cur.source with
    | .ok _ source => .ok () { cur with source }
    | .error f source => .error f { cur with source }

/-- Records that a character was read. -/
def advance (c : Char) (breaksLine : Bool) (cur : Cursor) : Cursor :=
  { cur with
    position := cur.position.advance breaksLine
    backup := if cur.marks.isEmpty then cur.backup else c :: cur.backup }

/-- Reads the next character; nothing at the end. -/
def read : Reading Cursor (Option Char) := fun cur =>
  match peek cur with
  | .error f cur => .error f cur
  | .ok none cur => .ok none cur
  | .ok (some c) cur =>
    -- all that can fail for want of a second character fails here, where nothing is lost
    match endsLine c cur with
    | .error f cur => .error f cur
    | .ok breaksLine cur =>
      match drop cur with
      | .error f cur => .error f cur
      | .ok _ cur => .ok (some c) (cur.advance c breaksLine)

/-- The end has been reached. -/
def isEof : Reading Cursor Bool := fun cur =>
  match peek cur with
  | .ok found cur => .ok found.isNone cur
  | .error f cur => .error f cur

/-! ## What reading leaves unread -/

/-- The two cursors differ at most in where the characters wait that have not been read. -/
structure SamePlace (cur cur' : Cursor) : Prop where
  rest : cur'.rest = cur.rest
  position : cur'.position = cur.position
  marks : cur'.marks = cur.marks
  backup : cur'.backup = cur.backup
  closed : cur'.closed = cur.closed

namespace SamePlace

theorem refl (cur : Cursor) : SamePlace cur cur := ⟨rfl, rfl, rfl, rfl, rfl⟩

theorem trans {a b c : Cursor} (h : SamePlace a b) (h' : SamePlace b c) : SamePlace a c :=
  ⟨h'.rest.trans h.rest, h'.position.trans h.position, h'.marks.trans h.marks,
    h'.backup.trans h.backup, h'.closed.trans h.closed⟩

end SamePlace

theorem samePlace_askPeek (cur : Cursor) : SamePlace cur (Reading.left (ask Source.peek cur)) := by
  refine ⟨?_, ?_, ?_, ?_, ?_⟩ <;> simp [ask, rest]

/-- Looking ahead moves nothing. -/
theorem samePlace_peek (cur : Cursor) : SamePlace cur (Reading.left (peek cur)) := by
  unfold peek
  split
  · exact .refl cur
  · exact samePlace_askPeek cur

theorem eq_head?_of_peek {cur cur' : Cursor} {found : Option Char} (h : peek cur = .ok found cur') :
    found = cur.rest.head? := by
  unfold peek at h
  split at h
  · rename_i same
    cases h
    simp [rest, same]
  · rename_i same
    unfold ask at h
    cases asked : Source.peek cur.source with
    | error f source => rw [asked] at h; cases h
    | ok c source =>
      rw [asked] at h
      cases h
      simp [rest, same, Source.eq_head?_of_peek asked]

theorem samePlace_fetch {cur : Cursor} (empty : cur.pending = []) :
    SamePlace cur (Reading.left (fetch cur)) := by
  unfold fetch
  split
  · rename_i found source asked
    refine ⟨?_, rfl, rfl, rfl, rfl⟩
    simp only [Reading.left, rest, empty, Source.eq_head?_of_read asked, Source.chars_of_read asked]
    cases cur.source.chars <;> rfl
  · rename_i f source asked
    refine ⟨?_, rfl, rfl, rfl, rfl⟩
    simp [rest, Source.chars_of_read_error asked]

/-- Looking two characters ahead moves nothing. -/
theorem samePlace_peekSecond (cur : Cursor) : SamePlace cur (Reading.left (peekSecond cur)) := by
  unfold peekSecond
  split
  · exact .refl cur
  · exact samePlace_askPeek cur
  · rename_i empty
    have fetched := samePlace_fetch empty
    split <;> rename_i h <;> rw [h] at fetched
    · exact fetched.trans (samePlace_askPeek _)
    · exact fetched

theorem samePlace_endsLine (c : Char) (cur : Cursor) :
    SamePlace cur (Reading.left (endsLine c cur)) := by
  unfold endsLine
  split
  · exact .refl cur
  · split
    · have seen := samePlace_peekSecond cur
      split <;> rename_i h <;> rw [h] at seen <;> exact seen
    · exact .refl cur

theorem rest_of_drop {cur cur' : Cursor} (h : drop cur = .ok () cur') :
    cur'.rest = cur.rest.tail := by
  unfold drop at h
  split at h
  · rename_i same
    cases h
    simp [rest, same]
  · rename_i same
    split at h <;> cases h
    rename_i asked
    simp [rest, same, Source.chars_of_read asked]

@[simp] theorem rest_advance (c : Char) (breaksLine : Bool) (cur : Cursor) :
    (cur.advance c breaksLine).rest = cur.rest := rfl

/-- A character that is read was the first of those left. -/
theorem rest_of_read {cur cur' : Cursor} {c : Char} (h : read cur = .ok (some c) cur') :
    cur.rest = c :: cur'.rest := by
  unfold read at h
  have seen := samePlace_peek cur
  cases peeked : peek cur with
  | error f cur₁ => rw [peeked] at h; cases h
  | ok found cur₁ =>
    rw [peeked] at h seen
    have first := eq_head?_of_peek peeked
    cases found with
    | none => cases h
    | some d =>
      have known := samePlace_endsLine d cur₁
      cases ended : endsLine d cur₁ with
      | error f cur₂ => simp only [ended] at h; cases h
      | ok breaksLine cur₂ =>
        simp only [ended] at h known
        cases dropped : drop cur₂ with
        | error f cur₃ => simp only [dropped] at h; cases h
        | ok _ cur₃ =>
          simp only [dropped] at h
          cases h
          have same : cur₂.rest = cur.rest := known.rest.trans seen.rest
          rw [rest_advance, rest_of_drop dropped, same]
          cases whole : cur.rest with
          | nil => rw [whole] at first; cases first
          | cons e tail => rw [whole] at first; cases first; rfl

/-- Looking ahead leaves as many characters as before. -/
theorem size_of_peek {cur cur' : Cursor} {found : Option Char} (h : peek cur = .ok found cur') :
    cur'.size = cur.size := by
  have same := samePlace_peek cur
  rw [h] at same
  exact congrArg List.length same.rest

/-- Reading a character leaves fewer. -/
theorem size_of_read {cur cur' : Cursor} {c : Char} (h : read cur = .ok (some c) cur') :
    cur'.size < cur.size := by
  simp [size, rest_of_read h]

end Cursor

end TextGrammar
