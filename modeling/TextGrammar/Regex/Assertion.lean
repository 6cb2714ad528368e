import TextGrammar.Regex.CharSet

/-!
# Assertions

Conditions on a place in a text, which depend on the characters on its two sides alone.  There is
no character in front of the start and none behind the end.
-/

namespace TextGrammar.Regex

/-- The edges of words.  The half edges ask about one side only. -/
inductive WordEdge where
  | boundary
  | noBoundary
  | start
  | stop
  | halfStart
  | halfStop
  deriving DecidableEq, Repr

inductive Assertion where
  | textStart
  | textEnd
  | lineStart (crlf : Bool)
  | lineEnd (crlf : Bool)
  | word (edge : WordEdge) (unicode : Bool)
  deriving DecidableEq, Repr

def WordEdge.holds (before after : Bool) : WordEdge → Bool
  | .boundary => before != after
  | .noBoundary => before == after
  | .start => !before && after
  | .stop => before && !after
  | .halfStart => !before
  | .halfStop => !after

/-- Between a carriage return and a line feed no line starts or ends. -/
def Assertion.holds (before after : Option Char) : Assertion → Bool
  | .textStart => before.isNone
  | .textEnd => after.isNone
  | .lineStart false => before.all (· = '\n')
  | .lineStart true => before.all fun c => c = '\n' || (c = '\r' && after != some '\n')
  | .lineEnd false => after.all (· = '\n')
  | .lineEnd true => after.all fun c => c = '\r' || (c = '\n' && before != some '\r')
  | .word edge unicode =>
      let set := if unicode then CharSet.word else CharSet.asciiWord
      edge.holds (before.any set.contains) (after.any set.contains)

end TextGrammar.Regex
