import TextGrammar.CharClass.Basic

set_option autoImplicit false

/-! # Printed forms of a character class

Failure messages show a class by its `text`. The description of a reader's state shows how the class
is put together. -/

namespace TextGrammar

/-- The printed form of a set of ranges: the ranges one after another between brackets. -/
def RangeSet.text (members : RangeSet) : String :=
  "[" ++ String.join (members.ranges.map CharRange.text) ++ "]"

/-- The form in which the description of a reader's state shows a set of ranges. -/
def RangeSet.fields (members : RangeSet) : String :=
  "Ranges([" ++ ", ".intercalate (members.ranges.map CharRange.fields) ++ "])"

namespace CharClass

mutual

/-- The printed form of a class. -/
def text : CharClass → String
  | .exact c => "'" ++ CharRange.letterText c ++ "'"
  | .ranges members => members.text
  | .oneOf members => " or ".intercalate (texts members)
  | .outside inner => "not " ++ text inner

/-- The printed forms of some classes. -/
def texts : List CharClass → List String
  | [] => []
  | k :: ks => text k :: texts ks

end

mutual

/-- The form in which the description of a reader's state shows a class. -/
def fields : CharClass → String
  | .exact c => "CharClass(Exact(" ++ Text.quotedLetter c ++ "))"
  | .ranges members => "CharClass(" ++ members.fields ++ ")"
  | .oneOf members => "CharClass(Union([" ++ ", ".intercalate (eachFields members) ++ "]))"
  | .outside inner => "CharClass(Complement(" ++ fields inner ++ "))"

/-- The same for some classes. -/
def eachFields : List CharClass → List String
  | [] => []
  | k :: ks => fields k :: eachFields ks

end

end CharClass

end TextGrammar
