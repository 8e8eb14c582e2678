import TextGrammar.CharClass.Basic
import TextGrammar.CharClass.CharRange
import TextGrammar.CharClass.Printed
import TextGrammar.CharClass.RangeSet
import TextGrammar.Context
import TextGrammar.Cursor.Basic
import TextGrammar.Cursor.Close
import TextGrammar.Cursor.Lines
import TextGrammar.Cursor.Mark
import TextGrammar.Cursor.Printed
import TextGrammar.Error
import TextGrammar.Keyword
import TextGrammar.Literal.Binary64
import TextGrammar.Literal.Escape
import TextGrammar.Literal.Floating
import TextGrammar.Literal.Integer
import TextGrammar.Meaning.Basic
import TextGrammar.Meaning.Choice
import TextGrammar.Meaning.Grammar
import TextGrammar.Meaning.Primitive
import TextGrammar.Meaning.Repeat
import TextGrammar.Outcome
import TextGrammar.Parser.Basic
import TextGrammar.Parser.Forms
import TextGrammar.Parser.Run
import TextGrammar.Position
import TextGrammar.Proofs.CharClass.Canonical
import TextGrammar.Proofs.CharClass.Members
import TextGrammar.Proofs.CharClass.NormalForm
import TextGrammar.Proofs.CharClass.PrintedForm
import TextGrammar.Proofs.Commitment.CommittedChoice
import TextGrammar.Proofs.Commitment.Conclusion
import TextGrammar.Proofs.Commitment.Confined
import TextGrammar.Proofs.Commitment.NeverCommits
import TextGrammar.Proofs.Commitment.Regrouping
import TextGrammar.Proofs.Cursor.Again
import TextGrammar.Proofs.Cursor.Delivery
import TextGrammar.Proofs.Cursor.Follows
import TextGrammar.Proofs.Cursor.Lines
import TextGrammar.Proofs.Cursor.Pulled
import TextGrammar.Proofs.Cursor.Reading
import TextGrammar.Proofs.Cursor.Session
import TextGrammar.Proofs.Cursor.Tracking
import TextGrammar.Proofs.Depth.Bound
import TextGrammar.Proofs.Depth.Upheld
import TextGrammar.Proofs.Erasure.Basic
import TextGrammar.Proofs.Erasure.Parse
import TextGrammar.Proofs.Erasure.Repeat
import TextGrammar.Proofs.Erasure.Setting
import TextGrammar.Proofs.Finality.Faultless
import TextGrammar.Proofs.Finality.GoingOn
import TextGrammar.Proofs.Finality.Parse
import TextGrammar.Proofs.Forms.FlatMap
import TextGrammar.Proofs.Forms.Fused
import TextGrammar.Proofs.Forms.Repetition
import TextGrammar.Proofs.Forms.Sequence
import TextGrammar.Proofs.Keyword.CommonLength
import TextGrammar.Proofs.Keyword.Composed
import TextGrammar.Proofs.Keyword.Construction
import TextGrammar.Proofs.Keyword.Matching
import TextGrammar.Proofs.Lines.Partition
import TextGrammar.Proofs.Literal.Decode
import TextGrammar.Proofs.Literal.Escapes
import TextGrammar.Proofs.Literal.Numeral
import TextGrammar.Proofs.Parallel.Basic
import TextGrammar.Proofs.Parallel.Choice
import TextGrammar.Proofs.Parallel.Framed
import TextGrammar.Proofs.Parallel.Parser
import TextGrammar.Proofs.Parallel.Repeat
import TextGrammar.Proofs.Position
import TextGrammar.Proofs.Refinement.Basic
import TextGrammar.Proofs.Refinement.Choice
import TextGrammar.Proofs.Refinement.Frame
import TextGrammar.Proofs.Refinement.Grammar
import TextGrammar.Proofs.Refinement.Parse
import TextGrammar.Proofs.Refinement.Primitive
import TextGrammar.Proofs.Refinement.Repeat
import TextGrammar.Proofs.Refinement.Report
import TextGrammar.Proofs.Refinement.Sequence
import TextGrammar.Proofs.Repetition.Repeated
import TextGrammar.Proofs.Repetition.Rounds
import TextGrammar.Proofs.Run.Captured
import TextGrammar.Proofs.Run.Parts
import TextGrammar.Proofs.Run.Passage
import TextGrammar.Proofs.Run.Report
import TextGrammar.Proofs.Search.Leftmost
import TextGrammar.Proofs.Source.Calls
import TextGrammar.Proofs.Source.Faults
import TextGrammar.Proofs.Termination.Loops
import TextGrammar.Proofs.Termination.Parse
import TextGrammar.Proofs.Trace.Nesting
import TextGrammar.Reader
import TextGrammar.Source.Basic
import TextGrammar.Source.Fault
import TextGrammar.Source.ItemSource
import TextGrammar.Source.TextSource
import TextGrammar.Step.Basic
import TextGrammar.Step.Choice
import TextGrammar.Step.Primitive
import TextGrammar.Step.Repeat
import TextGrammar.Text.CharName
import TextGrammar.Text.CodeRanges
import TextGrammar.Text.Digit
import TextGrammar.Text.Extending
import TextGrammar.Text.Glyphless
import TextGrammar.Text.Hidden
import TextGrammar.Text.Quoted
import TextGrammar.Trace
import TextGrammar.Value.Action
import TextGrammar.Value.Basic
import TextGrammar.Value.Clause
import TextGrammar.Value.Rules
