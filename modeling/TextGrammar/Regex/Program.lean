import TextGrammar.Regex.Expression

/-!
# Programs

An expression is matched by a program of instructions.  A thread of the program stands at an
instruction and at a place in the text; a branching instruction splits it in two, the first of
which is preferred.  The search follows the threads in order of preference and meets every pair of
an instruction and a place at most once, so it ends.
-/

namespace TextGrammar.Regex

inductive Instruction where
  | consume (s : CharSet)
  | require (a : Assertion)
  | jump (target : Nat)
  | split (preferred other : Nat)
  | accept
  deriving DecidableEq, Repr

namespace Instruction

def branch (greedy : Bool) (enter leave : Nat) : Instruction :=
  if greedy then .split enter leave else .split leave enter

end Instruction

/-- The code of an expression depends on the address at which it is placed. -/
abbrev Code := Nat → List Instruction

namespace Code

def copies (code : Code) : Nat → Code
  | 0, _ => []
  | n + 1, here =>
      let first := code here
      first ++ copies code n (here + first.length)

def rounds (code : Code) (greedy : Bool) : Code := fun here =>
  let body := code here
  body ++ [.branch greedy here (here + body.length + 1)]

def loop (code : Code) (greedy : Bool) : Code := fun here =>
  let body := code (here + 1)
  .branch greedy (here + 1) (here + body.length + 2) :: body ++ [.jump here]

/-- Up to `n` rounds.  Leaving any of them ends all. -/
def upTo (code : Code) (greedy : Bool) (stop : Nat) : Nat → Code
  | 0, _ => []
  | n + 1, here =>
      let body := code (here + 1)
      .branch greedy (here + 1) stop :: body ++ upTo code greedy stop n (here + 1 + body.length)

def atMost (code : Code) (greedy : Bool) (n : Nat) : Code := fun here =>
  upTo code greedy (here + n * ((code here).length + 1)) n here

def anyRounds (code : Code) (greedy : Bool) : Code := atMost (rounds code greedy) greedy 1

def append (a b : Code) : Code := fun here =>
  let first := a here
  first ++ b (here + first.length)

end Code

namespace Expression

def assemble : Expression → Code
  | .empty => fun _ => []
  | .literal text => fun _ => text.map fun c => .consume (.single c)
  | .set s => fun _ => [.consume s]
  | .look a => fun _ => [.require a]
  | .group _ e => e.assemble
  | .seq a b => a.assemble.append b.assemble
  | .alt a b => fun here =>
      let first := a.assemble (here + 1)
      let second := b.assemble (here + first.length + 2)
      .split (here + 1) (here + first.length + 2) :: first ++
        .jump (here + first.length + 2 + second.length) :: second
  | .repeated min none greedy e =>
      if 0 < min then (e.assemble.copies (min - 1)).append (e.assemble.rounds greedy)
      else if e.nullable then e.assemble.anyRounds greedy
      else e.assemble.loop greedy
  | .repeated min (some max) greedy e =>
      (e.assemble.copies min).append (e.assemble.atMost greedy (max - min))

def weight : Expression → Nat
  | .empty => 0
  | .literal text => text.length
  | .set _ | .look _ => 1
  | .group _ e => e.weight
  | .seq a b => a.weight + b.weight
  | .alt a b => a.weight + b.weight + 2
  | .repeated min none _ e => Nat.max min 1 * e.weight + 2
  | .repeated min (some max) _ e => Nat.max min max * e.weight + (max - min)

end Expression

structure Program where
  code : Array Instruction
  deriving DecidableEq, Repr

def Program.ofExpression (e : Expression) : Program :=
  ⟨(e.assemble 0 ++ [Instruction.accept]).toArray⟩

/-- A place in a text: how many characters are in front of it, the last of them, and the text
behind it. -/
structure Place where
  index : Nat
  before : Option Char
  ahead : List Char
  deriving DecidableEq, Repr

namespace Program

/-- Follows the threads, the most preferred first, until one accepts.  `seen` marks the pairs of an
instruction and a place that were met. -/
def follow (p : Program) : Nat → List (Nat × Place) → Array Bool → Option Nat × Array Bool
  | 0, _, seen => (none, seen)
  | _ + 1, [], seen => (none, seen)
  | fuel + 1, (address, place) :: threads, seen =>
      let mark := place.index * p.code.size + address
      if seen.getD mark true then follow p fuel threads seen
      else
        let seen := seen.setIfInBounds mark true
        match p.code[address]? with
        | none => follow p fuel threads seen
        | some .accept => (some place.index, seen)
        | some (.jump target) => follow p fuel ((target, place) :: threads) seen
        | some (.split preferred other) =>
            follow p fuel ((preferred, place) :: (other, place) :: threads) seen
        | some (.require a) =>
            if a.holds place.before place.ahead.head? then
              follow p fuel ((address + 1, place) :: threads) seen
            else follow p fuel threads seen
        | some (.consume s) =>
            match place.ahead with
            | [] => follow p fuel threads seen
            | c :: cs =>
                if s.contains c then
                  let next := ⟨place.index + 1, some c, cs⟩
                  follow p fuel ((address + 1, next) :: threads) seen
                else follow p fuel threads seen

/-- Every pair is met once and starts at most two threads. -/
def followFuel (p : Program) (length : Nat) : Nat := 2 * (p.code.size * (length + 1)) + 2

def searchFrom (p : Program) (fuel : Nat) (seen : Array Bool) (before : Option Char) (index : Nat) :
    List Char → Option Nat
  | [] => (p.follow fuel [(0, ⟨index, before, []⟩)] seen).1
  | c :: cs =>
      match p.follow fuel [(0, ⟨index, before, c :: cs⟩)] seen with
      | (some stop, _) => some stop
      | (none, seen) => searchFrom p fuel seen (some c) (index + 1) cs

def search (p : Program) (text : List Char) : Option Nat :=
  p.searchFrom (p.followFuel text.length)
    (Array.replicate (p.code.size * (text.length + 1)) false) none 0 text

end Program

end TextGrammar.Regex
