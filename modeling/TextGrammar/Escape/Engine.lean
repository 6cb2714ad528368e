import TextGrammar.Escape.Format
import TextGrammar.Text.Character

/-!
# The escape engine

The engine reads a text one character at a time.  Each character is answered by the text it stands
for: an escape collapses into its literal, and the characters in the middle of an escape stand for
nothing.  Along the way the engine follows quotes and brackets, so that a scan can tell a delimiter
from a character that is escaped, quoted or inside brackets.
-/

namespace TextGrammar.Escape

inductive Phase where
  | plain
  | escaped
  | unicode
  deriving DecidableEq, Repr

structure Engine where
  format : Format := {}
  phase : Phase := .plain
  prevEscaped : Bool := false
  /-- The digits of an unfinished escape by code point. -/
  pending : List Char := []
  openQuotes : List Bool := []
  counts : List (Nat × Nat) := []

namespace Engine

def start (f : Format) : Engine where
  format := f
  openQuotes := List.replicate f.quotes.length false
  counts := List.replicate f.brackets.length (0, 0)

def reset (e : Engine) : Engine := start e.format

/-- Settings can be added at any time; a new quote is closed and a new pair of brackets is
balanced. -/
def configure (e : Engine) (s : Setting) : Engine :=
  let e := { e with format := e.format.configure s }
  match s with
  | .quote _ => { e with openQuotes := e.openQuotes ++ [false] }
  | .brackets _ _ => { e with counts := e.counts ++ [(0, 0)] }
  | _ => e

def inQuotes (e : Engine) : Bool := e.openQuotes.any id

def inBrackets (e : Engine) : Bool := e.counts.any fun count => count.1 ≠ count.2

def inEscape (e : Engine) : Bool := e.phase ≠ .plain

def shouldConsider (e : Engine) : Bool :=
  e.phase = .plain && !e.prevEscaped && !e.inQuotes && !e.inBrackets

/-- Whether the engine has a meaning for `c` beyond the character itself. -/
def isSignificant (e : Engine) (c : Char) : Bool :=
  e.inEscape || e.format.trigger = some c || e.format.quotes.contains c ||
    e.format.brackets.any fun pair => pair.1 = c || pair.2 = c

def trailing (e : Engine) : List Char :=
  match e.phase with
  | .plain => []
  | .escaped => e.format.trigger.toList
  | .unicode => e.format.unicodeStart ++ e.pending

/-- Outside quotes a character counts for the first pair it opens, else for the first pair it
closes, else it opens the first quote it equals. -/
def trackOutside (e : Engine) (c : Char) : Engine :=
  match e.format.brackets.findIdx? (·.1 = c) with
  | some i => { e with counts := e.counts.modify i fun count => (count.1 + 1, count.2) }
  | none =>
      match e.format.brackets.findIdx? (·.2 = c) with
      | some i => { e with counts := e.counts.modify i fun count => (count.1, count.2 + 1) }
      | none =>
          match e.format.quotes.findIdx? (· = c) with
          | some i => { e with openQuotes := e.openQuotes.set i true }
          | none => e

/-- Inside a quote only its own character has an effect: it closes the quote. -/
def track (e : Engine) (c : Char) : Engine :=
  match e.openQuotes.findIdx? id with
  | none => e.trackOutside c
  | some i =>
      if e.format.quotes[i]? = some c then { e with openQuotes := e.openQuotes.set i false } else e

/-- What four digits behind the code of an escape by code point stand for: the character they
name, or themselves when they name none. -/
def decodeDigits (f : Format) (digits : List Char) : List Char :=
  match Text.hexChar? digits with
  | some c => [c]
  | none => f.unicodeStart ++ digits

def decodeCode (f : Format) (code : Char) : List Char :=
  (f.table.find? code).getD (f.trigger.toList ++ [code])

/-- Reads one character: the text it stands for, and the engine behind it. -/
def consider (e : Engine) (c : Char) : List Char × Engine :=
  match e.phase with
  | .unicode =>
      let digits := e.pending ++ [c]
      if digits.length < 4 then ([], { e with pending := digits })
      else (decodeDigits e.format digits, { e with phase := .plain, pending := [] })
  | .escaped =>
      if c = e.format.unicodeCode then ([], { e with phase := .unicode, prevEscaped := true })
      else (decodeCode e.format c, { e with phase := .plain, prevEscaped := true })
  | .plain =>
      if e.format.trigger = some c then ([], { e with phase := .escaped, prevEscaped := false })
      else ([c], { e with prevEscaped := false }.track c)

def feed (e : Engine) : List Char → List Char × Engine
  | [] => ([], e)
  | c :: cs =>
      let (emitted, e) := e.consider c
      let (more, e) := e.feed cs
      (emitted ++ more, e)

end Engine

end TextGrammar.Escape
