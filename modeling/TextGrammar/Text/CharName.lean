set_option autoImplicit false

/-! # How messages name a character

A message that says what was found, or what was expected, names a control character by its
mnemonic, any other character by itself and its code, and the end of the input by `EOF`. -/

namespace TextGrammar.Text

/-- The mnemonics of the thirty-two C0 control characters, by code. -/
def controlNames : List String := [
  "NUL", "SOH", "STX", "ETX", "EOT", "ENQ", "ACK", "BEL", "BS", "HT", "LF", "VT", "FF", "CR",
  "SO", "SI", "DLE", "DC1", "DC2", "DC3", "DC4", "NAK", "SYN", "ETB", "CAN", "EM", "SUB", "ESC",
  "FS", "GS", "RS", "US"]

/-- The mnemonic of a C0 control character. -/
def controlName? (c : Char) : Option String :=
  controlNames[c.toNat]?

/-- The name of a character in a message. -/
def charName (c : Char) : String :=
  match controlName? c with
  | some name => name
  | none => "'" ++ c.toString ++ "'(" ++ toString c.toNat ++ ")"

/-- The name of what stands at a place: a character, or the end of the input. -/
def foundName : Option Char → String
  | some c => charName c
  | none => "EOF"

end TextGrammar.Text
