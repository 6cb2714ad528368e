import TextGrammar.Text.Character
import TextGrammar.Text.CaseFolding
import TextGrammar.Text.Letters

/-!
# Character sets

The sets that patterns describe, built from ranges and properties by the operations of bracketed
classes.
-/

namespace TextGrammar.Regex

inductive CharSet where
  | empty
  | range (low high : Char)
  | decimal
  | blank
  | word
  | union (a b : CharSet)
  | inter (a b : CharSet)
  | diff (a b : CharSet)
  | symmDiff (a b : CharSet)
  | compl (a : CharSet)
  /-- With each character all those that differ from it in case only. -/
  | caseClosure (a : CharSet)
  | asciiCaseClosure (a : CharSet)
  deriving DecidableEq, Repr

namespace CharSet

def asciiCaseVariants (c : Char) : List Char :=
  if c.isAlpha then [c.toLower, c.toUpper] else [c]

def contains : CharSet → Char → Bool
  | .empty, _ => false
  | .range low high, c => low ≤ c && c ≤ high
  | .decimal, c => Text.isDecimal c
  | .blank, c => Text.isBlank c
  | .word, c => Text.isWord c
  | .union a b, c => a.contains c || b.contains c
  | .inter a b, c => a.contains c && b.contains c
  | .diff a b, c => a.contains c && !b.contains c
  | .symmDiff a b, c => a.contains c != b.contains c
  | .compl a, c => !a.contains c
  | .caseClosure a, c => (Text.caseVariants c).any a.contains
  | .asciiCaseClosure a, c => (asciiCaseVariants c).any a.contains

def single (c : Char) : CharSet := .range c c

def single? : CharSet → Option Char
  | .range low high => if low = high then some low else none
  | .union .empty a => a.single?
  | .union a .empty => a.single?
  | .caseClosure a => a.single?.filter fun c => (Text.caseVariants c).length = 1
  | .asciiCaseClosure a => a.single?.filter fun c => (asciiCaseVariants c).length = 1
  | _ => none

def ofRanges : List (Char × Char) → CharSet
  | [] => .empty
  | [(low, high)] => .range low high
  | (low, high) :: rest => .union (.range low high) (ofRanges rest)

def asciiDigit : CharSet := .range '0' '9'

def asciiBlank : CharSet := ofRanges [('\t', '\r'), (' ', ' ')]

def asciiWord : CharSet := ofRanges [('0', '9'), ('A', 'Z'), ('_', '_'), ('a', 'z')]

def named? (name : String) : Option CharSet :=
  match name with
  | "alnum" => some (ofRanges [('0', '9'), ('A', 'Z'), ('a', 'z')])
  | "alpha" => some (ofRanges [('A', 'Z'), ('a', 'z')])
  | "ascii" => some (.range '\x00' '\x7f')
  | "blank" => some (ofRanges [('\t', '\t'), (' ', ' ')])
  | "cntrl" => some (ofRanges [('\x00', '\x1f'), ('\x7f', '\x7f')])
  | "digit" => some asciiDigit
  | "graph" => some (.range '!' '~')
  | "lower" => some (.range 'a' 'z')
  | "print" => some (.range ' ' '~')
  | "punct" => some (ofRanges [('!', '/'), (':', '@'), ('[', '\x60'), ('\x7b', '~')])
  | "space" => some asciiBlank
  | "upper" => some (.range 'A' 'Z')
  | "word" => some asciiWord
  | "xdigit" => some (ofRanges [('0', '9'), ('A', 'F'), ('a', 'f')])
  | _ => none

end CharSet

end TextGrammar.Regex
