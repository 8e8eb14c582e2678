import TextGrammar.Cursor.Basic

set_option autoImplicit false

/-! # Printed form of a cursor

The state of a cursor in one line: how much it keeps and how much waits in it, and not the
characters. -/

namespace TextGrammar.Cursor

/-- The description of the state of a cursor. -/
def fields (cur : Cursor) : String :=
  "Cursor \x7b position: " ++ cur.position.fields
    ++ ", marks: [" ++ ", ".intercalate (cur.marks.reverse.map Position.fields)
    ++ "], backup: " ++ toString cur.backup.length
    ++ ", pending: " ++ toString cur.pending.length
    ++ ", closed: " ++ toString cur.closed ++ ", .. \x7d"

end TextGrammar.Cursor
