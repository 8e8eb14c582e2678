import TextGrammar.Cursor.Basic

set_option autoImplicit false

/-! # Reading many characters

A run of characters, a line, or all that is left. Each character that is read leaves fewer, which is
why the loops end. A fault ends them at once; what was read before it stays read. -/

namespace TextGrammar.Cursor

/-- Reads on as long as the next character is accepted. -/
def readWhile (accept : Char → Bool) : Reading Cursor (List Char) := fun cur =>
  match seen : peek cur with
  | .error f next => .error f next
  | .ok none next => .ok [] next
  | .ok (some c) next =>
    if accept c then
      match taken : read next with
      | .error f after => .error f after
      | .ok none after => .ok [] after
      | .ok (some c) after =>
        have : after.size < cur.size := size_of_peek seen ▸ size_of_read taken
        match readWhile accept after with
        | .error f last => .error f last
        | .ok cs last => .ok (c :: cs) last
    else .ok [] next
termination_by cur => cur.size

/-- All that is left; nothing at the end. -/
def readToEnd : Reading Cursor (Option (List Char)) := fun cur =>
  match isEof cur with
  | .error f cur => .error f cur
  | .ok true cur => .ok none cur
  | .ok false cur =>
    match readWhile (fun _ => true) cur with
    | .error f cur => .error f cur
    | .ok cs cur => .ok (some cs) cur

/-- Reads a line feed, if it is next. -/
def readLineFeed : Reading Cursor Unit := fun cur =>
  match peek cur with
  | .error f cur => .error f cur
  | .ok (some '\n') cur =>
    match read cur with
    | .error f cur => .error f cur
    | .ok _ cur => .ok () cur
  | .ok _ cur => .ok () cur

/-- The rest of the line, whose terminator is read too. -/
def restOfLine : Reading Cursor (List Char) := fun cur =>
  match taken : read cur with
  | .error f after => .error f after
  | .ok none after => .ok [] after
  | .ok (some c) after =>
    if c = '\n' then .ok [] after
    else if c = '\r' then
      match readLineFeed after with
      | .error f last => .error f last
      | .ok _ last => .ok [] last
    else
      have : after.size < cur.size := size_of_read taken
      match restOfLine after with
      | .error f last => .error f last
      | .ok cs last => .ok (c :: cs) last
termination_by cur => cur.size

/-- The next line without its terminator; nothing at the end. -/
def readLine : Reading Cursor (Option (List Char)) := fun cur =>
  match isEof cur with
  | .error f cur => .error f cur
  | .ok true cur => .ok none cur
  | .ok false cur =>
    match restOfLine cur with
    | .error f cur => .error f cur
    | .ok cs cur => .ok (some cs) cur

/-- Up to `n` characters, fewer at the end. -/
def readUpTo : Nat → Reading Cursor (List Char)
  | 0 => fun cur => .ok [] cur
  | n + 1 => fun cur =>
    match read cur with
    | .error f cur => .error f cur
    | .ok none cur => .ok [] cur
    | .ok (some c) cur =>
      match readUpTo n cur with
      | .error f cur => .error f cur
      | .ok cs cur => .ok (c :: cs) cur

end TextGrammar.Cursor
