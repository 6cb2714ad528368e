import TextGrammar.Regex.Expression
import TextGrammar.Text.Character

/-!
# Reading patterns

The written form of regular expressions.  Reading follows the text from left to right and yields
the expression directly: flags set in the middle of a group hold for the rest of it, so they travel
with the reader.  Whatever does not fit makes the whole pattern invalid.

Sets of characters named by a property and references to groups are not part of the language.
-/

namespace TextGrammar.Regex

open Text

structure Flags where
  ignoreCase : Bool := false
  multiLine : Bool := false
  dotAll : Bool := false
  swapGreed : Bool := false
  unicode : Bool := true
  crlf : Bool := false
  extended : Bool := false
  deriving DecidableEq, Repr

def Flags.set? (flags : Flags) (letter : Char) (value : Bool) : Option Flags :=
  match letter with
  | 'i' => some { flags with ignoreCase := value }
  | 'm' => some { flags with multiLine := value }
  | 's' => some { flags with dotAll := value }
  | 'U' => some { flags with swapGreed := value }
  | 'u' => some { flags with unicode := value }
  | 'R' => some { flags with crlf := value }
  | 'x' => some { flags with extended := value }
  | _ => none

/-- Reads the letters up to a colon or a parenthesis.  Letters behind a hyphen are switched off;
neither a letter nor the hyphen may come twice, and the hyphen may not come last. -/
def readFlags (flags : Flags) (seen : List Char) : List Char → Option (Flags × List Char)
  | [] => none
  | c :: cs =>
      if c = ':' ∨ c = ')' then
        if seen.head? = some '-' then none else some (flags, c :: cs)
      else if seen.contains c then none
      else if c = '-' then readFlags flags (c :: seen) cs
      else (flags.set? c (!seen.contains '-')).bind fun flags => readFlags flags (c :: seen) cs

def skipComments (inComment : Bool) : List Char → List Char
  | [] => []
  | c :: cs =>
      if inComment then skipComments (c ≠ '\n') cs
      else if isBlank c then skipComments false cs
      else if c = '#' then skipComments true cs
      else c :: cs

def skip (flags : Flags) (text : List Char) : List Char :=
  if flags.extended then skipComments false text else text

def readDigits (flags : Flags) (value : Option Nat) : Nat → List Char → Option Nat × List Char
  | 0, text => (value, text)
  | _ + 1, [] => (value, [])
  | fuel + 1, c :: cs =>
      if c.isDigit then
        readDigits flags (some (10 * value.getD 0 + (c.toNat - '0'.toNat))) fuel (skip flags cs)
      else (value, c :: cs)

def readCount (flags : Flags) (text : List Char) : Option (Nat × List Char) :=
  match readDigits flags none text.length (trimStart text) with
  | (some n, rest) => if n < 0x100000000 then some (n, skip flags (trimStart rest)) else none
  | (none, _) => none

def readBounds (flags : Flags) (text : List Char) : Option (Nat × Option Nat × List Char) := do
  let (min, rest) ← readCount flags (skip flags text)
  match rest with
  | '\x7d' :: rest => some (min, some min, rest)
  | ',' :: rest =>
      match skip flags rest with
      | '\x7d' :: rest => some (min, none, rest)
      | rest => do
          let (max, rest) ← readCount flags rest
          match rest with
          | '\x7d' :: rest => if min ≤ max then some (min, some max, rest) else none
          | _ => none
  | _ => none

def readHexDigits (flags : Flags) (digits : List Char) : Nat → List Char → Option (Char × List Char)
  | 0, text => (hexChar? digits).map (·, text)
  | _ + 1, [] => none
  | n + 1, c :: cs =>
      if (hexDigit? c).isSome then readHexDigits flags (digits ++ [c]) n (skip flags cs) else none

def readHexBraced (flags : Flags) (digits : List Char) : Nat → List Char → Option (Char × List Char)
  | 0, _ => none
  | fuel + 1, text =>
      match skip flags text with
      | [] => none
      | '\x7d' :: rest =>
          if digits = [] then none else (hexChar? digits).map (·, skip flags rest)
      | c :: cs =>
          if (hexDigit? c).isSome then readHexBraced flags (digits ++ [c]) fuel cs else none

/-- A code point behind `x`, `u` or `U`.  Without the Unicode flag two digits name a byte, which is
a character only when it belongs to ASCII. -/
def readCodePoint (flags : Flags) (digits : Nat) (text : List Char) : Option (Char × List Char) :=
  match skip flags text with
  | '\x7b' :: rest => readHexBraced flags [] (rest.length + 1) rest
  | rest => do
      let (c, rest) ← readHexDigits flags [] digits rest
      if !flags.unicode && digits = 2 && 0x7f < c.toNat then none else some (c, rest)

/-! ## Escapes -/

inductive Primitive where
  | char (c : Char)
  | set (s : CharSet)
  | look (a : Assertion)
  deriving DecidableEq, Repr

/-- The complement of a set.  Without the Unicode flag it would hold bytes that are no
characters. -/
def complement? (flags : Flags) (s : CharSet) : Option CharSet :=
  if flags.unicode then some (.compl s) else none

def propertySet? (flags : Flags) : Char → Option CharSet
  | 'd' => some (if flags.unicode then .decimal else .asciiDigit)
  | 's' => some (if flags.unicode then .blank else .asciiBlank)
  | 'w' => some (if flags.unicode then .word else .asciiWord)
  | 'D' => complement? flags .decimal
  | 'S' => complement? flags .blank
  | 'W' => complement? flags .word
  | _ => none

def controlChar? : Char → Option Char
  | 'a' => some '\x07'
  | 'f' => some '\x0c'
  | 't' => some '\t'
  | 'n' => some '\n'
  | 'r' => some '\r'
  | 'v' => some '\x0b'
  | _ => none

def standsForItself (c : Char) : Bool := c.toNat < 0x80 && !c.isAlphanum && c ≠ '<' && c ≠ '>'

def wordEdge? (name : List Char) : Option WordEdge :=
  match String.ofList name with
  | "start" => some .start
  | "end" => some .stop
  | "start-half" => some .halfStart
  | "end-half" => some .halfStop
  | _ => none

def readEdgeName (flags : Flags) (name : List Char) : Nat → List Char → List Char × List Char
  | 0, text => (name, text)
  | _ + 1, [] => (name, [])
  | fuel + 1, c :: cs =>
      if c.isAlpha || c = '-' then readEdgeName flags (name ++ [c]) fuel (skip flags cs)
      else (name, c :: cs)

/-- What may follow the letter of a word boundary: the name of an edge in braces.  Braces around
anything but a name are left to be read as a repetition. -/
def readWordEdge (flags : Flags) (text : List Char) : Option (WordEdge × List Char) :=
  match text with
  | '\x7b' :: rest =>
      match skip flags rest with
      | [] => none
      | inside =>
          match readEdgeName flags [] inside.length inside with
          | ([], _) => some (.boundary, text)
          | (name, '\x7d' :: rest) => (wordEdge? name).map (·, rest)
          | _ => none
  | _ => some (.boundary, text)

def readEscape (flags : Flags) : List Char → Option (Primitive × List Char)
  | [] => none
  | c :: cs =>
      let edge (e : WordEdge) : Primitive := .look (.word e flags.unicode)
      if standsForItself c then some (.char c, cs)
      else
        match c with
        | 'x' => (readCodePoint flags 2 cs).map fun (c, rest) => (.char c, rest)
        | 'u' => (readCodePoint flags 4 cs).map fun (c, rest) => (.char c, rest)
        | 'U' => (readCodePoint flags 8 cs).map fun (c, rest) => (.char c, rest)
        | 'A' => some (.look .textStart, cs)
        | 'z' => some (.look .textEnd, cs)
        | 'b' => (readWordEdge flags cs).map fun (e, rest) => (edge e, rest)
        | 'B' => some (edge .noBoundary, cs)
        | '<' => some (edge .start, cs)
        | '>' => some (edge .stop, cs)
        | _ =>
            match controlChar? c with
            | some control => some (.char control, cs)
            | none => (propertySet? flags c).map fun s => (.set s, cs)

/-! ## Bracketed classes -/

inductive SetOperation where
  | inter
  | diff
  | symmDiff
  deriving DecidableEq, Repr

def SetOperation.apply : SetOperation → CharSet → CharSet → CharSet
  | .inter => .inter
  | .diff => .diff
  | .symmDiff => .symmDiff

def closeCase (flags : Flags) (s : CharSet) : CharSet :=
  if !flags.ignoreCase then s
  else if flags.unicode then .caseClosure s
  else .asciiCaseClosure s

def closeSet? (flags : Flags) (negated : Bool) (s : CharSet) : Option CharSet :=
  if negated then complement? flags (closeCase flags s) else some (closeCase flags s)

def combine (flags : Flags) : Option (SetOperation × CharSet) → CharSet → CharSet
  | none, s => s
  | some (operation, left), s => operation.apply (closeCase flags left) (closeCase flags s)

def readClassPrimitive (flags : Flags) : List Char → Option (Primitive × List Char)
  | [] => none
  | '\\' :: cs => readEscape flags cs
  | c :: cs => some (.char c, cs)

def classChar? (flags : Flags) : Primitive → Option Char
  | .char c => if flags.unicode || c.toNat < 0x80 then some c else none
  | _ => none

def primitiveSet? (flags : Flags) : Primitive → Option CharSet
  | .set s => some s
  | p => (classChar? flags p).map CharSet.single

/-- A single member of a class or a range.  A hyphen in front of a bracket or another hyphen does
not make a range. -/
def readRange (flags : Flags) (text : List Char) : Option (CharSet × List Char) := do
  let (first, rest) ← readClassPrimitive flags text
  match skip flags rest with
  | [] => none
  | '-' :: behind =>
      let behind := skip flags behind
      if behind.head? = some ']' ∨ behind.head? = some '-' then
        (primitiveSet? flags first).map (·, skip flags rest)
      else do
        let (second, rest) ← readClassPrimitive flags behind
        let low ← classChar? flags first
        let high ← classChar? flags second
        if low ≤ high then some (.range low high, rest) else none
  | rest => (primitiveSet? flags first).map (·, rest)

def readNamedSet (text : List Char) : Option (Bool × CharSet × List Char) :=
  match text with
  | ':' :: rest =>
      let negated := rest.head? = some '^'
      let rest := if negated then rest.tail else rest
      match rest.dropWhile (· ≠ ':') with
      | ':' :: ']' :: behind =>
          (CharSet.named? (String.ofList (rest.takeWhile (· ≠ ':')))).map (negated, ·, behind)
      | _ => none
  | _ => none

def readHyphens (flags : Flags) (s : CharSet) : Nat → List Char → CharSet × List Char
  | 0, text => (s, text)
  | fuel + 1, text =>
      match text with
      | '-' :: cs => readHyphens flags (s.union (.single '-')) fuel (skip flags cs)
      | text => (s, text)

/-- The start of a class, from behind the bracket: whether it is negated, and the characters that
stand for themselves because they come first. -/
def readClassStart (flags : Flags) (text : List Char) : Bool × CharSet × List Char :=
  let text := skip flags text
  let negated := text.head? = some '^'
  let text := if negated then skip flags text.tail else text
  let (s, rest) := readHyphens flags .empty text.length text
  if rest.head? = some ']' ∧ s = .empty then (negated, .single ']', skip flags rest.tail)
  else (negated, s, rest)

def readClass (flags : Flags) :
    Nat → Option (SetOperation × CharSet) → CharSet → List Char → Option (CharSet × Nat × List Char)
  | 0, _, _, _ => none
  | fuel + 1, left, s, text =>
      match skip flags text with
      | [] => none
      | ']' :: rest => some (combine flags left s, 1, rest)
      | '&' :: '&' :: rest =>
          readClass flags fuel (some (.inter, combine flags left s)) .empty rest
      | '-' :: '-' :: rest =>
          readClass flags fuel (some (.diff, combine flags left s)) .empty rest
      | '~' :: '~' :: rest =>
          readClass flags fuel (some (.symmDiff, combine flags left s)) .empty rest
      | '[' :: rest =>
          match readNamedSet rest with
          | some (negated, named, rest) => do
              let named ← closeSet? flags negated named
              readClass flags fuel left (s.union named) rest
          | none => do
              let (negated, start, rest) := readClassStart flags rest
              let (inner, depth, rest) ← readClass flags fuel none start rest
              let inner ← closeSet? flags negated inner
              let (s, more, rest) ← readClass flags fuel left (s.union inner) rest
              some (s, Nat.max (depth + 1) more, rest)
      | text => do
          let (member, rest) ← readRange flags text
          readClass flags fuel left (s.union member) rest

/-! ## Expressions -/

structure Part where
  expression : Expression
  depth : Nat := 0
  repeatable : Bool := true

def nest : List Nat → Nat
  | [] => 0
  | [depth] => depth
  | depths => depths.foldl Nat.max 0 + 1

def Part.sequence (parts : List Part) : Part :=
  { expression := .sequence (parts.map (·.expression)), depth := nest (parts.map (·.depth)) }

def Part.choice : List Part → Part
  | [part] => part
  | parts =>
    { expression := .choice (parts.map (·.expression)), depth := nest (parts.map (·.depth)) }

/-- Where a reader of a pattern stands: the text ahead, how many groups it met, and their names. -/
structure Reader where
  ahead : List Char
  groups : Nat := 0
  names : List (List Char) := []

def charExpression (flags : Flags) (c : Char) : Expression := .ofSet (closeCase flags (.single c))

def dotExpression? (flags : Flags) : Option Expression :=
  if !flags.unicode then none
  else if flags.dotAll then some (.set (.compl .empty))
  else if flags.crlf then some (.set (.compl (.union (.single '\r') (.single '\n'))))
  else some (.set (.compl (.single '\n')))

def primitiveExpression (flags : Flags) : Primitive → Expression
  | .char c => charExpression flags c
  | .set s => .ofSet s
  | .look a => .look a

def lineStart (flags : Flags) : Assertion :=
  if flags.multiLine then .lineStart flags.crlf else .textStart

def lineEnd (flags : Flags) : Assertion :=
  if flags.multiLine then .lineEnd flags.crlf else .textEnd

def readGreed (flags : Flags) : List Char → Bool × List Char
  | '?' :: rest => (flags.swapGreed, rest)
  | rest => (!flags.swapGreed, rest)

inductive Opening where
  | directive (flags : Flags)
  | group (flags : Flags) (number : Option Nat)

def isNameChar (c : Char) : Bool :=
  c = '_' || c = '.' || c = '[' || c = ']' || isAlphanumeric c

def readName (r : Reader) (text : List Char) : Option Reader :=
  let name := text.takeWhile (· ≠ '>')
  match name, text.dropWhile (· ≠ '>') with
  | c :: cs, '>' :: rest =>
      if (c = '_' || isAlphabetic c) && cs.all isNameChar && !r.names.contains name then
        some { ahead := rest, groups := r.groups + 1, names := name :: r.names }
      else none
  | _, _ => none

def isLookaround : List Char → Bool
  | '?' :: '=' :: _ | '?' :: '!' :: _ | '?' :: '<' :: '=' :: _ | '?' :: '<' :: '!' :: _ => true
  | _ => false

def readOpening (flags : Flags) (r : Reader) : Option (Opening × Reader) :=
  let text := skip flags r.ahead
  if isLookaround text then none
  else
    match text with
    | '?' :: 'P' :: '<' :: rest | '?' :: '<' :: rest =>
        (readName r rest).map fun after => (.group flags (some r.groups), after)
    | '?' :: rest => do
        let (inner, behind) ← readFlags flags [] rest
        match behind with
        | ':' :: behind => some (.group inner none, { r with ahead := behind })
        | _ =>
            if behind.length = rest.length then none
            else some (.directive inner, { r with ahead := behind.tail })
    | _ => some (.group flags (some r.groups), { r with ahead := text, groups := r.groups + 1 })

def numbered (e : Expression) : Option Nat → Expression
  | some number => .group number e
  | none => e

def repeatLast? (min : Nat) (max : Option Nat) (greedy : Bool) : List Part → Option (List Part)
  | [] => none
  | part :: parts =>
      if part.repeatable then
        some ({ expression := .repetition min max greedy part.expression,
                depth := part.depth + 1 } :: parts)
      else none

/-- Reads alternatives up to the end of the group or of the pattern.  `branches` and `parts` hold,
last first, the alternatives before the present one and its parts so far. -/
def readAlternatives :
    Nat → Flags → List Part → List Part → Reader → Option (Part × Reader)
  | 0, _, _, _, _ => none
  | fuel + 1, flags, branches, parts, r =>
      let finish (ahead : List Char) : Option (Part × Reader) :=
        some (.choice (.sequence parts.reverse :: branches).reverse, { r with ahead := ahead })
      let continueWith (expression : Expression) (depth : Nat) (ahead : List Char) :=
        readAlternatives fuel flags branches ({ expression, depth } :: parts)
          { r with ahead := ahead }
      let repeatWith (min : Nat) (max : Option Nat) (ahead : List Char) := do
        let (greedy, ahead) := readGreed flags ahead
        let parts ← repeatLast? min max greedy parts
        readAlternatives fuel flags branches parts { r with ahead := ahead }
      match skip flags r.ahead with
      | [] => finish []
      | ')' :: rest => finish (')' :: rest)
      | '|' :: rest =>
          readAlternatives fuel flags (.sequence parts.reverse :: branches) []
            { r with ahead := rest }
      | '(' :: rest => do
          let (opening, r) ← readOpening flags { r with ahead := rest }
          match opening with
          | .directive flags =>
              let part : Part := { expression := .empty, repeatable := false }
              readAlternatives fuel flags branches (part :: parts) r
          | .group inner number => do
              let (body, r) ← readAlternatives fuel inner [] [] r
              match r.ahead with
              | ')' :: rest =>
                  let part : Part :=
                    { expression := numbered body.expression number, depth := body.depth + 1 }
                  readAlternatives fuel flags branches (part :: parts) { r with ahead := rest }
              | _ => none
      | '[' :: rest => do
          let (negated, start, rest) := readClassStart flags rest
          let (s, depth, rest) ← readClass flags (rest.length + 1) none start rest
          let s ← closeSet? flags negated s
          continueWith (.ofSet s) depth rest
      | '?' :: rest => repeatWith 0 (some 1) rest
      | '*' :: rest => repeatWith 0 none rest
      | '+' :: rest => repeatWith 1 none rest
      | '\x7b' :: rest => do
          let (min, max, rest) ← readBounds flags rest
          repeatWith min max (skip flags rest)
      | '\\' :: rest => do
          let (primitive, rest) ← readEscape flags rest
          continueWith (primitiveExpression flags primitive) 0 rest
      | '.' :: rest => do
          let any ← dotExpression? flags
          continueWith any 0 rest
      | '^' :: rest => continueWith (.look (lineStart flags)) 0 rest
      | '$' :: rest => continueWith (.look (lineEnd flags)) 0 rest
      | c :: rest => continueWith (charExpression flags c) 0 rest

def nestLimit : Nat := 250

def Expression.ofPattern? (pattern : List Char) : Option Expression := do
  let (part, r) ← readAlternatives (pattern.length + 1) {} [] [] { ahead := pattern }
  if r.ahead = [] ∧ part.depth ≤ nestLimit then some part.expression else none

end TextGrammar.Regex
