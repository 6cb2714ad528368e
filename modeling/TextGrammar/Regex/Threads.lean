import TextGrammar.Regex
import TextGrammar.Regex.Pattern
import TextGrammar.Regex.Program

/-!
# An engine that follows threads

Patterns are compiled to programs, unless these are too long, and programs search for matches.
-/

namespace TextGrammar.Regex

/-- How many instructions a program may have. -/
def sizeLimit : Nat := 327680

def Program.ofPattern? (pattern : List Char) : Option Program := do
  let e ← Expression.ofPattern? pattern
  if e.weight < sizeLimit then some (.ofExpression e) else none

def ofProgram (source : List Char) (p : Program) : Regex where
  source
  findEnd? text := (p.search text).map text.take
  within h := by
    obtain ⟨n, -, rfl⟩ := Option.map_eq_some_iff.1 h
    exact List.take_prefix n _

def Engine.threads : Engine where
  compile? pattern := (Program.ofPattern? pattern).map (ofProgram pattern)

end TextGrammar.Regex
