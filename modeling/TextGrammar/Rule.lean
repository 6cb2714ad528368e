import TextGrammar.Regex
import TextGrammar.Text.Display
import TextGrammar.Verdict

/-!
# Rules

A rule decides whether a text matches at a byte offset, and how far the match extends.  Rules are
trees; they refer to themselves through names that are bound while matching.
-/

namespace TextGrammar

inductive Rule where
  | literal (text : String)
  | length (n : Nat)
  | regex (r : Regex)
  /-- The check is given the whole text and the offset up to which the base matched, and has the
  last word. -/
  | refined (base : Rule) (check : List Char → Nat → Verdict)
  | sequence (rules : List Rule)
  | and (rules : List Rule)
  /-- The first of the rules that matches, or the one that matches most. -/
  | or (longest : Bool) (alternatives : List Rule)
  | not (rule : Rule)
  | optional (rule : Rule)
  | repeating (rule : Rule) (atLeastOne : Bool)
  | nonGreedy (rule stop : Rule) (atLeastOne : Bool)
  /-- Bound to a name once it matched. -/
  | set (name : String) (rule : Rule)
  /-- Bound to a name before it is tried. -/
  | setAndUse (name : String) (rule : Rule)
  | lazy (name : String)
  | completed (rule : Rule)

namespace Rule

def anyChar : Rule := .length 1

def oneOf (literals : List String) : Rule := .or true (literals.map .literal)

def list (element separator : Rule) : Rule :=
  .sequence [element, .repeating (.sequence [separator, element]) false]

end Rule

inductive GrammarError where
  | invalidRegex (pattern : String)
  | unbound (name : String)
  | invalidName (name : String)
  deriving DecidableEq, Repr

def GrammarError.message : GrammarError → String
  | .invalidRegex pattern => "invalid regex " ++ Text.quoted pattern.toList
  | .unbound name => "nothing is bound to \"" ++ name ++ "\""
  | .invalidName name => "invalid token name: " ++ Text.quoted name.toList

end TextGrammar
