import TextGrammar.Escape.Scan
import TextGrammar.Rule.Evaluate

/-!
# Cursors

A cursor stands between two characters of a text; the character behind it is the current one.
Moving past an end of the text stops there.  Scans return what they read and leave the cursor
behind it; those under an engine stop only at a character that the engine considers.
-/

namespace TextGrammar

open Escape

structure Cursor where
  content : List Char
  index : Nat := 0
  context : Context := {}

namespace Cursor

def ahead (c : Cursor) : List Char := c.content.drop c.index

def length (c : Cursor) : Nat := c.content.length

def byteOffset (c : Cursor) : Nat := Text.byteLength (c.content.take c.index)

def hasNext (c : Cursor) : Bool := c.index < c.length

def hasPrevious (c : Cursor) : Bool := 0 < c.index

def peek (c : Cursor) : Option Char := c.content[c.index]?

def peekPrevious (c : Cursor) : Option Char :=
  if c.hasPrevious then c.content[c.index - 1]? else none

def advance (c : Cursor) (n : Nat) : Cursor := { c with index := c.index + n }

/-- An index outside the text leaves the cursor where it is. -/
def jumpTo (c : Cursor) (i : Nat) : Cursor :=
  if i ≤ c.length then { c with index := i } else c

def next (c : Cursor) : Option Char × Cursor :=
  match c.peek with
  | some x => (some x, c.advance 1)
  | none => (none, c)

def backBy (c : Cursor) (n : Nat) : Cursor := { c with index := c.index - n }

def back (c : Cursor) : Cursor := c.backBy 1

def previous (c : Cursor) : Option Char × Cursor :=
  match c.peekPrevious with
  | some x => (some x, c.back)
  | none => (none, c)

def reading (c : Cursor) (taken : List Char) : List Char × Cursor := (taken, c.advance taken.length)

def nextN (c : Cursor) (n : Nat) : List Char × Cursor := c.reading (c.ahead.take n)

/-- The characters up to the `n`-th one that is not ignored. -/
def takeCounting (ignored : Char → Bool) : List Char → Nat → List Char
  | [], _ => []
  | x :: xs, n =>
      if n = 0 then [] else x :: takeCounting ignored xs (if ignored x then n else n - 1)

def nextNIgnoring (c : Cursor) (n : Nat) (ignored : Char → Bool) : List Char × Cursor :=
  c.reading (takeCounting ignored c.ahead n)

def isNext (c : Cursor) (p : Char → Bool) : Bool := c.peek.any p

def consumeIf (c : Cursor) (p : Char → Bool) : Bool × Cursor :=
  if c.isNext p then (true, c.advance 1) else (false, c)

def consumeAll (c : Cursor) (p : Char → Bool) : Nat × Cursor :=
  let n := (c.ahead.takeWhile p).length
  (n, c.advance n)

def backWhile (c : Cursor) (p : Char → Bool) : Cursor :=
  c.backBy ((c.content.take c.index).reverse.takeWhile p).length

def readUntil (c : Cursor) (p : Char → Bool) : List Char × Cursor :=
  c.reading (c.ahead.takeWhile fun x => !p x)

def readUntilAny (c : Cursor) (stops : List Char) : List Char × Cursor :=
  c.readUntil stops.contains

def readWhile (c : Cursor) (p : Char → Bool) : List Char × Cursor := c.readUntil fun x => !p x

def remaining (c : Cursor) : List Char × Cursor := c.readUntil fun _ => false

def accumulate (p : List Char → Bool) (sofar : List Char) : List Char → List Char
  | [] => sofar
  | x :: xs => if p (sofar ++ [x]) then accumulate p (sofar ++ [x]) xs else sofar

def readWhileAccumulated (c : Cursor) (p : List Char → Bool) : List Char × Cursor :=
  c.reading (accumulate p [] c.ahead)

def accumulate? (p : List Char → Option Bool) (sofar : List Char) : List Char → Option (List Char)
  | [] => some sofar
  | x :: xs => do
      if ← p (sofar ++ [x]) then accumulate? p (sofar ++ [x]) xs else some sofar

def isCompleteMatch (fuel : Nat) (rule : Rule) (text : List Char) : Option Bool :=
  ((Rule.completed rule).matchText fuel text).map Verdict.isSuccessful

def readWhileRule (fuel : Nat) (c : Cursor) (rule : Rule) : Option (List Char × Cursor) :=
  (accumulate? (isCompleteMatch fuel rule) [] c.ahead).map c.reading

def scanned {σ : Type} (c : Cursor) (scan : Scan σ) : List Char × Engine × Cursor :=
  (scan.text, scan.engine, c.advance scan.length)

def readUntilConsidering (c : Cursor) (e : Engine) (p : Char → Bool) :
    List Char × Engine × Cursor :=
  c.scanned (e.scanResolved (Engine.stopAt p) () c.ahead)

def readRawUntilConsidering (c : Cursor) (e : Engine) (p : Char → Bool) :
    List Char × Engine × Cursor :=
  c.scanned (e.scanRaw (Engine.stopAt p) () c.ahead)

def remainingConsidering (c : Cursor) (e : Engine) : List Char × Engine × Cursor :=
  c.readUntilConsidering e fun _ => false

def readUntilAccumulatedConsidering (c : Cursor) (e : Engine) (p : List Char → Bool) :
    List Char × Engine × Cursor :=
  c.scanned (e.scanResolved (Engine.stopWhen p) () c.ahead)

def readBalanced (c : Cursor) (e : Engine) : List Char × Engine × Cursor :=
  let (taken, e) := e.balanced c.ahead
  (taken, e, c.advance taken.length)

/-- Stops where a rule matches.  The state is the context of the attempts so far, or nothing once
the fuel ran out. -/
def stopAtRule (fuel : Nat) (rule : Rule) (content : List Char) : StopCondition (Option Context) :=
  fun _ ahead state =>
    let start := Text.byteLength content - Text.byteLength ahead
    match state.bind (rule.matchAt fuel content start) with
    | some (v, context) => (v.isSuccessful, some context)
    | none => (true, none)

def readUntilRule (fuel : Nat) (c : Cursor) (e : Engine) (rule : Rule) :
    Option (List Char × Engine × Cursor) :=
  let scan := e.scanResolved (stopAtRule fuel rule c.content) (some c.context) c.ahead
  scan.state.map fun context => { c with context }.scanned scan

def stopWhenMatched (fuel : Nat) (rule : Rule) : StopCondition (Option Unit) :=
  fun sofar ahead state =>
    match state.bind fun _ => isCompleteMatch fuel rule (sofar ++ ahead.take 1) with
    | some stopped => (stopped, some ())
    | none => (true, none)

def readUntilAccumulatedRule (fuel : Nat) (c : Cursor) (e : Engine) (rule : Rule) :
    Option (List Char × Engine × Cursor) :=
  let scan := e.scanResolved (stopWhenMatched fuel rule) (some ()) c.ahead
  scan.state.map fun _ => c.scanned scan

end Cursor

end TextGrammar
