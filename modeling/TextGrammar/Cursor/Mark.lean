import TextGrammar.Cursor.Basic

set_option autoImplicit false

/-! # Marks

A mark saves a position, and marks nest. The characters read since the outermost one are kept, so an
inner mark owns the latest of them. -/

namespace TextGrammar.Cursor

/-- Saves the position. -/
def mark (cur : Cursor) : Cursor :=
  { cur with marks := cur.position :: cur.marks }

/-- Forgets the innermost mark, and with the last one all characters that were kept. -/
def unmark (cur : Cursor) : Cursor :=
  match cur.marks with
  | [] => cur
  | [_] => { cur with marks := [], backup := [] }
  | _ :: marks => { cur with marks }

/-- The number of characters read since a saved position. -/
def readSince (cur : Cursor) (saved : Position) : Nat :=
  cur.position.index - saved.index

/-- Goes back to a saved position: the characters read since then are handed back. -/
def handBack (cur : Cursor) (saved : Position) : Cursor :=
  let n := cur.readSince saved
  { cur with
    position := saved
    pending := (cur.backup.take n).reverse ++ cur.pending
    backup := cur.backup.drop n }

/-- Goes back to the innermost mark, and may forget it. Without a mark nothing changes. -/
def reset (alsoUnmark : Bool) (cur : Cursor) : Cursor :=
  match cur.marks with
  | [] => cur
  | saved :: _ =>
    let cur := cur.handBack saved
    if alsoUnmark then cur.unmark else cur

/-- The text read since the innermost mark; there is none without a mark. -/
def captured (cur : Cursor) : Option String :=
  match cur.marks with
  | [] => none
  | saved :: _ => some (String.ofList (cur.backup.take (cur.readSince saved)).reverse)

/-- The text read since the innermost mark. The mark may be forgotten. -/
def capture (alsoUnmark : Bool) (cur : Cursor) : Option String × Cursor :=
  (cur.captured, if alsoUnmark then cur.unmark else cur)

end TextGrammar.Cursor
