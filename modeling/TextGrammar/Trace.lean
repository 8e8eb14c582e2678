import TextGrammar.Error
import TextGrammar.Position

set_option autoImplicit false

/-! # Traces

A run can leave a trace: one line where a parser is entered, one where it is left, and free lines
between them. The lines are indented by how deeply the parsers are nested. -/

namespace TextGrammar

/-- One line of a trace. -/
inductive TraceLine where
  /-- A parser is entered. -/
  | enter (depth : Nat) (name : String) (start : Position)
  /-- A parser is left with an outcome, which is a success if there is no message. -/
  | leave (depth : Nat) (name : String) (stop : Position) (message? : Option String)
      (backtrack : Bool)
  /-- A parser is left with an error. -/
  | abort (depth : Nat) (name : String) (stop : Position) (error : ParseError)
  /-- A remark. -/
  | note (depth : Nat) (remark : String)

namespace TraceLine

/-- The spaces before a line at a depth. -/
def indent (depth : Nat) : String :=
  String.ofList (List.replicate (2 * depth) ' ')

/-- How a trace shows an outcome. -/
def outcomeText : Option String → Bool → String
  | none, true => "Success()"
  | none, false => "Success(cut)"
  | some message, true => "Failure(" ++ message ++ ")"
  | some message, false => "Failure(" ++ message ++ ", cut)"

def text : TraceLine → String
  | .enter depth name start => indent depth ++ "+ " ++ name ++ " " ++ start.text
  | .leave depth name stop message? backtrack =>
    indent depth ++ "- " ++ name ++ " " ++ stop.text ++ " " ++ outcomeText message? backtrack
  | .abort depth name stop error =>
    indent depth ++ "- " ++ name ++ " " ++ stop.text ++ " Error(" ++ error.message ++ ")"
  | .note depth remark => indent depth ++ remark

end TraceLine

end TextGrammar
