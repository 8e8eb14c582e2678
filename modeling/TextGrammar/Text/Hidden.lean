import TextGrammar.Text.Extending
import TextGrammar.Text.Glyphless

set_option autoImplicit false

/-! # Characters that are not shown as they are

A quoted text shows most characters as they are. The others would not be seen, or would be drawn
upon the character before them, be it the quote. -/

namespace TextGrammar.Text

/-- The halfwidth voiced and semi-voiced sound marks. They extend the character before them and yet
have a place of their own. -/
def isSpacingSoundMark (c : Char) : Bool :=
  c == '\uff9e' || c == '\uff9f'

/-- The fillers of Hangul: letters of which nothing is drawn. -/
def isFiller (c : Char) : Bool :=
  c == '\u115f' || c == '\u1160' || c == '\u3164' || c == '\uffa0'

/-- The character is not shown as it is. -/
def isHidden (c : Char) : Bool :=
  isGlyphless c || (isExtending c && !isSpacingSoundMark c) || isFiller c

end TextGrammar.Text
