import TextGrammar.Escape.Codec

/-!
# Scanning under an engine

A scan reads characters until its stop condition holds at a character that the engine considers.
The condition may look at what was read so far and at the text ahead, and may keep a state of its
own between the places where it is asked.
-/

namespace TextGrammar.Escape

/-- Where a scan ended.  `length` counts the characters in front of the place where it stopped;
the engine has read the character at that place. -/
structure Scan (σ : Type) where
  text : List Char
  length : Nat
  engine : Engine
  state : σ

abbrev StopCondition (σ : Type) := List Char → List Char → σ → Bool × σ

namespace Engine

variable {σ : Type}

/-- Scans on from what was read before.  A resolved scan collects what the engine answers, a raw one
the characters themselves. -/
def scanFrom (resolved : Bool) (stop : StopCondition σ) (sofar : List Char) (length : Nat)
    (e : Engine) (state : σ) : List Char → Scan σ
  | [] => ⟨sofar, length, e, state⟩
  | c :: cs =>
      let (emitted, e) := e.consider c
      let piece := if resolved then emitted else [c]
      if e.shouldConsider then
        match stop sofar (c :: cs) state with
        | (true, state) => ⟨sofar, length, e, state⟩
        | (false, state) => scanFrom resolved stop (sofar ++ piece) (length + 1) e state cs
      else scanFrom resolved stop (sofar ++ piece) (length + 1) e state cs

def scanResolved (e : Engine) (stop : StopCondition σ) (state : σ) (text : List Char) : Scan σ :=
  let scan := e.scanFrom true stop [] 0 state text
  { scan with text := scan.text ++ scan.engine.trailing }

def scanRaw (e : Engine) (stop : StopCondition σ) (state : σ) (text : List Char) : Scan σ :=
  e.scanFrom false stop [] 0 state text

def stopAt (p : Char → Bool) : StopCondition Unit
  | _, [], state => (false, state)
  | _, c :: _, state => (p c, state)

def stopWhen (p : List Char → Bool) : StopCondition Unit
  | _, [], state => (false, state)
  | sofar, c :: _, state => (p (sofar ++ [c]), state)

/-- The text up to and including the first character that the engine considers, and the engine
behind it. -/
def balanced (e : Engine) : List Char → List Char × Engine
  | [] => ([], e)
  | c :: cs =>
      let e := (e.consider c).2
      if e.shouldConsider then ([c], e)
      else
        let (taken, e) := e.balanced cs
        (c :: taken, e)

/-- The pieces between separators; behind each separator a fresh engine starts. -/
def splitFrom (separator : Char) (e : Engine) : List Char → List (List Char)
  | [] => [[]]
  | c :: cs =>
      let e := (e.consider c).2
      if e.shouldConsider && c = separator then [] :: splitFrom separator e.reset cs
      else
        match splitFrom separator e cs with
        | [] => [[c]]
        | piece :: pieces => (c :: piece) :: pieces

end Engine

def split (f : Format) (separator : Char) (text : List Char) : List (List Char) :=
  (Engine.start f).splitFrom separator text

end TextGrammar.Escape
