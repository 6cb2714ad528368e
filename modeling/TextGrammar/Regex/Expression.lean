import TextGrammar.Regex.Assertion

/-!
# Regular expressions

What a pattern means, in a normal form: sequences and alternatives are flat, neighbouring literals
are joined, alternatives of single characters are one set, and alternatives that begin alike share
their beginning.
-/

namespace TextGrammar.Regex

/-- Sequences and alternatives lean to the right. -/
inductive Expression where
  | empty
  | literal (text : List Char)
  | set (s : CharSet)
  | look (a : Assertion)
  | group (number : Nat) (e : Expression)
  | seq (a b : Expression)
  | alt (a b : Expression)
  | repeated (min : Nat) (max : Option Nat) (greedy : Bool) (e : Expression)
  deriving DecidableEq, Repr

namespace Expression

def nullable : Expression → Bool
  | .empty | .look _ => true
  | .literal text => text.isEmpty
  | .set _ => false
  | .group _ e => e.nullable
  | .seq a b => a.nullable && b.nullable
  | .alt a b => a.nullable || b.nullable
  | .repeated min _ _ e => min = 0 || e.nullable

def vacuous : Expression → Bool
  | .empty | .look _ => true
  | .literal text => text.isEmpty
  | .set _ => false
  | .group _ e => e.vacuous
  | .seq a b => a.vacuous && b.vacuous
  | .alt a b => a.vacuous && b.vacuous
  | .repeated _ _ _ e => e.vacuous

def items : Expression → List Expression
  | .empty => []
  | .seq a b => a :: b.items
  | e => [e]

def ofItems : List Expression → Expression
  | [] => .empty
  | [e] => e
  | e :: es => .seq e (ofItems es)

def joinLiterals : List Expression → List Expression
  | [] => []
  | .literal text :: es =>
      match joinLiterals es with
      | .literal more :: es => .literal (text ++ more) :: es
      | es => .literal text :: es
  | e :: es => e :: joinLiterals es

def sequence (es : List Expression) : Expression :=
  ofItems (joinLiterals (es.flatMap items))

def ofSet (s : CharSet) : Expression :=
  match s.single? with
  | some c => .literal [c]
  | none => .set s

def asSet? : Expression → Option CharSet
  | .literal [c] => some (.single c)
  | .set s => some s
  | _ => none

def branches : Expression → List Expression
  | .alt a b => a :: b.branches
  | e => [e]

def ofBranches : List Expression → Expression
  | [] => .set .empty
  | [e] => e
  | e :: es => .alt e (ofBranches es)

def commonPrefix : List Expression → List Expression → List Expression
  | a :: as, b :: bs => if a = b then a :: commonPrefix as bs else []
  | _, _ => []

def sharedItems (es : List Expression) : List Expression :=
  match es.map items with
  | [] => []
  | first :: rest =>
      if es.all fun e => 2 ≤ e.items.length then rest.foldl commonPrefix first else []

/-- Alternatives that are flat, and of which no two begin alike. -/
def alternatives (es : List Expression) : Expression :=
  match es.mapM asSet? with
  | some (s :: t :: sets) => ofSet ((t :: sets).foldl .union s)
  | _ => ofBranches es

def choice (es : List Expression) : Expression :=
  let es := es.flatMap branches
  let shared := sharedItems es
  if shared = [] ∨ es.length < 2 then alternatives es
  else
    let ends := es.map fun e => ofItems (e.items.drop shared.length)
    sequence (shared ++ [alternatives (ends.flatMap branches)])

/-- What reads no character is repeated at most once. -/
def repetition (min : Nat) (max : Option Nat) (greedy : Bool) (e : Expression) : Expression :=
  let min := if e.vacuous then Nat.min min 1 else min
  let max := if e.vacuous then some (max.elim 1 fun n => Nat.min n 1) else max
  if min = 0 ∧ max = some 0 then .empty
  else if min = 1 ∧ max = some 1 then e
  else .repeated min max greedy e

end Expression

end TextGrammar.Regex
