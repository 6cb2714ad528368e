import TextGrammar.Regex.Threads
import TextGrammar.Rule

/-!
# Rules made of patterns

A pattern is compiled behind an anchor, because a rule matches where it is tried and nowhere else.
Any engine can compile it; the one that follows threads does if no other is named.
-/

namespace TextGrammar.Rule

open Regex (Engine anchored)

/-- Compiles the anchored pattern, with any engine. -/
def regex? (pattern : String) (engine : Engine := .threads) : Except GrammarError Rule :=
  match engine.compile? (anchored pattern.toList) with
  | some r => .ok (.regex r)
  | none => .error (.invalidRegex pattern)

variable {pattern : String} {engine : Engine}

theorem regex?_eq_ok_iff {rule : Rule} :
    regex? pattern engine = .ok rule ↔
      ∃ r, engine.compile? (anchored pattern.toList) = some r ∧ .regex r = rule := by
  unfold regex?
  cases engine.compile? (anchored pattern.toList) <;> simp

theorem regex?_eq_error (h : ¬engine.Accepts (anchored pattern.toList)) :
    regex? pattern engine = .error (.invalidRegex pattern) := by
  unfold regex?
  cases hr : engine.compile? (anchored pattern.toList) with
  | none => rfl
  | some r => exact absurd ⟨r, hr⟩ h

end TextGrammar.Rule
