/-!
# Regexes

An engine compiles patterns to regexes, which search a text for the leftmost match.  Which texts
are patterns and what they match is up to the engine; it is known by its laws alone.

A pattern is to match at one place only, so it is put behind an anchor.  The anchor is put there as
text: it belongs to the pattern's first alternative alone when the pattern closes the group that is
opened for it.
-/

namespace TextGrammar

structure Regex where
  source : List Char
  /-- The text in front of the end of the leftmost match. -/
  findEnd? : List Char → Option (List Char)
  within {text found : List Char} : findEnd? text = some found → found <+: text

namespace Regex

structure Engine where
  compile? : (pattern : List Char) → Option Regex

def grouped (pattern : List Char) : List Char := ['(', '?', ':'] ++ pattern ++ [')']

def anchored (pattern : List Char) : List Char := '^' :: grouped pattern

/-- What is taken by the match that is preferred among those that begin between two texts. -/
abbrev Meaning := (before ahead : List Char) → Option (List Char)

/-- The text in front of the end of the first match that begins in `ahead`. -/
def Meaning.leftmostEnd? (m : Meaning) (before : List Char) : List Char → Option (List Char)
  | [] => (m before []).map (before ++ ·)
  | c :: cs =>
      ((m before (c :: cs)).map (before ++ ·)).or (m.leftmostEnd? (before ++ [c]) cs)

namespace Engine

def Accepts (engine : Engine) (pattern : List Char) : Prop :=
  ∃ r, engine.compile? pattern = some r

/-- The engine's patterns mean what `meaning` says. -/
structure Lawful (engine : Engine) (meaning : (pattern : List Char) → Meaning) : Prop where
  source_eq {pattern : List Char} {r : Regex} :
    engine.compile? pattern = some r → r.source = pattern
  /-- A search finds the leftmost match. -/
  leftmost {pattern : List Char} {r : Regex} :
    engine.compile? pattern = some r →
      ∀ text, r.findEnd? text = (meaning pattern).leftmostEnd? [] text
  /-- A group matches what stands in it. -/
  group {pattern : List Char} :
    engine.Accepts pattern → engine.Accepts (grouped pattern) →
      meaning (grouped pattern) = meaning pattern
  /-- A group behind a caret matches what it matches at the start of the text. -/
  caret {pattern : List Char} :
    engine.Accepts pattern → engine.Accepts (anchored pattern) →
      engine.Accepts (grouped pattern) ∧ ∀ before ahead,
        meaning (anchored pattern) before ahead =
          if before = [] then meaning (grouped pattern) before ahead else none

end Engine

end Regex

end TextGrammar
