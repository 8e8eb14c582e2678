import TextGrammar.Text.Hidden

set_option autoImplicit false

/-! # Quoted text

Messages show a text between double quotes. Inside, the quote, the backslash and the common
controls have escapes of two characters, and a character that would not be visible is written by
its code. -/

namespace TextGrammar.Text

/-- The code of a character in lower-case hexadecimal digits, without leading zeros. -/
def hexCode (c : Char) : String :=
  String.ofList (Nat.toDigits 16 c.toNat)

/-- The escape that gives a character by its code. -/
def codeEscape (c : Char) : String :=
  "\\u\x7b" ++ hexCode c ++ "\x7d"

/-- One character between quotes of the kind `quote`. -/
def quotedChar (quote : Char) (c : Char) : String :=
  if c = '\x00' then "\\0"
  else if c = '\t' then "\\t"
  else if c = '\n' then "\\n"
  else if c = '\r' then "\\r"
  else if c = '\\' || c = quote then "\\" ++ c.toString
  else if isHidden c then codeEscape c
  else c.toString

/-- A text between double quotes. -/
def quoted (s : String) : String :=
  "\"" ++ String.join (s.toList.map (quotedChar '\"')) ++ "\""

/-- A character between single quotes. -/
def quotedLetter (c : Char) : String :=
  "'" ++ quotedChar '\'' c ++ "'"

end TextGrammar.Text
