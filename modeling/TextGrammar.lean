import TextGrammar.Action
import TextGrammar.Action.Tokenize
import TextGrammar.Cursor
import TextGrammar.Dictionary
import TextGrammar.Escape.Codec
import TextGrammar.Escape.Engine
import TextGrammar.Escape.Format
import TextGrammar.Escape.Scan
import TextGrammar.Fuel
import TextGrammar.Matcher
import TextGrammar.Matcher.Fuel
import TextGrammar.Proofs.Action.Choice
import TextGrammar.Proofs.Action.Coverage
import TextGrammar.Proofs.Action.Emission
import TextGrammar.Proofs.Action.Erasure
import TextGrammar.Proofs.Action.Invariant
import TextGrammar.Proofs.Action.Parts
import TextGrammar.Proofs.Action.Position
import TextGrammar.Proofs.Action.Simulation
import TextGrammar.Proofs.Cursor.Accumulation
import TextGrammar.Proofs.Cursor.Consumption
import TextGrammar.Proofs.Cursor.Delimiter
import TextGrammar.Proofs.Cursor.Exhaustion
import TextGrammar.Proofs.Cursor.Resumption
import TextGrammar.Proofs.Cursor.Splitting
import TextGrammar.Proofs.Cursor.Stopping
import TextGrammar.Proofs.Cursor.Transparency
import TextGrammar.Proofs.Escape.Bounds
import TextGrammar.Proofs.Escape.Consideration
import TextGrammar.Proofs.Escape.Decoding
import TextGrammar.Proofs.Escape.Passage
import TextGrammar.Proofs.Escape.Reachability
import TextGrammar.Proofs.Escape.Resolution
import TextGrammar.Proofs.Escape.RoundTrip
import TextGrammar.Proofs.Escape.Significance
import TextGrammar.Proofs.Escape.Stopping
import TextGrammar.Proofs.Matcher.Choice
import TextGrammar.Proofs.Matcher.Invariant
import TextGrammar.Proofs.Matcher.Passage
import TextGrammar.Proofs.Matcher.Simulation
import TextGrammar.Proofs.Matcher.Stepwise
import TextGrammar.Proofs.Matcher.Termination
import TextGrammar.Proofs.Regex.Anchor
import TextGrammar.Proofs.Regex.Assembly
import TextGrammar.Proofs.Regex.Classes
import TextGrammar.Proofs.Regex.Grouping
import TextGrammar.Proofs.Regex.Guard
import TextGrammar.Proofs.Regex.Reading
import TextGrammar.Proofs.Regex.Search
import TextGrammar.Proofs.Rule.Anchor
import TextGrammar.Proofs.Rule.Brackets
import TextGrammar.Proofs.Rule.Capture
import TextGrammar.Proofs.Rule.Choice
import TextGrammar.Proofs.Rule.Closed
import TextGrammar.Proofs.Rule.Concatenation
import TextGrammar.Proofs.Rule.Frame
import TextGrammar.Proofs.Rule.Heredity
import TextGrammar.Proofs.Rule.History
import TextGrammar.Proofs.Rule.Influence
import TextGrammar.Proofs.Rule.Invariant
import TextGrammar.Proofs.Rule.List
import TextGrammar.Proofs.Rule.Order
import TextGrammar.Proofs.Rule.Parts
import TextGrammar.Proofs.Rule.Position
import TextGrammar.Proofs.Rule.Scope
import TextGrammar.Proofs.Rule.Search
import TextGrammar.Proofs.Rule.Simulation
import TextGrammar.Proofs.Rule.Stepwise
import TextGrammar.Proofs.Rule.Termination
import TextGrammar.Proofs.Rule.Trial
import TextGrammar.Proofs.Text.Position
import TextGrammar.Proofs.Text.Trimming
import TextGrammar.Proofs.Token.Blocks
import TextGrammar.Proofs.Token.Grammar
import TextGrammar.Proofs.Token.Reading
import TextGrammar.Proofs.Token.RoundTrip
import TextGrammar.Proofs.Token.Sequence
import TextGrammar.Proofs.Token.Totality
import TextGrammar.Proofs.Verdict.Causes
import TextGrammar.Proofs.Verdict.Rendering
import TextGrammar.Proofs.Verdict.Tree
import TextGrammar.Regex
import TextGrammar.Regex.Assertion
import TextGrammar.Regex.CharSet
import TextGrammar.Regex.Expression
import TextGrammar.Regex.Pattern
import TextGrammar.Regex.Program
import TextGrammar.Regex.Threads
import TextGrammar.Rule
import TextGrammar.Rule.Context
import TextGrammar.Rule.Evaluate
import TextGrammar.Rule.Pattern
import TextGrammar.Shape
import TextGrammar.Shape.Grammar
import TextGrammar.Shape.Result
import TextGrammar.Text.CaseFolding
import TextGrammar.Text.Character
import TextGrammar.Text.Display
import TextGrammar.Text.Letters
import TextGrammar.Text.Offset
import TextGrammar.Token
import TextGrammar.Token.Name
import TextGrammar.Token.Reader
import TextGrammar.Token.Writer
import TextGrammar.Verdict
import TextGrammar.Verdict.Message
