import TextGrammar.Cursor.Basic

set_option autoImplicit false

/-! # Releasing the source

A cursor releases its source once, however often it is asked to, and whether or not the source could
be released. Characters that wait in the cursor can still be read. -/

namespace TextGrammar.Cursor

/-- Releases the source. Only the first time counts. -/
def close : Reading Cursor Unit := fun cur =>
  if cur.closed then .ok () cur
  else ask Source.close { cur with closed := true }

/-- The cursor when it is given up: the source is released, and nobody hears of a fault. -/
def dispose (cur : Cursor) : Cursor :=
  Reading.left (close cur)

end TextGrammar.Cursor
