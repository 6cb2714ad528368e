import TextGrammar.Proofs.Matcher.Simulation
import TextGrammar.Proofs.Rule.Parts
import TextGrammar.Rule.Evaluate

/-!
# The same rule in two contexts

A rule gives the same verdict in two contexts that hold the same rules under the names it uses.
Which names these are, and what else the contexts have in common, is left open: a relation of
contexts will do when binding, recording and looking up keep it.
-/

namespace TextGrammar.Rule

/-- Evaluating rules with the property `Q` keeps the contexts related by `R`. -/
structure Respects (Q : Rule → Prop) (R : Context → Context → Prop) : Prop where
  part : ∀ {rule part : Rule}, Q rule → part ∈ rule.parts → Q part
  bind : ∀ {rule bound : Rule} {name : String} {s t : Context}, Q rule →
    rule.binding? = some (name, bound) → R s t → R (s.bind name bound) (t.bind name bound)
  record : ∀ {name text : String} {s t : Context}, R s t →
    R (s.record name text) (t.record name text)
  lookup : ∀ {name : String} {s t : Context}, Q (.lazy name) → R s t →
    s.rule? name = t.rule? name ∧ ∀ rule, s.rule? name = .ok rule → Q rule

theorem Respects.symm {Q : Rule → Prop} {R : Context → Context → Prop} (h : Respects Q R) :
    Respects Q fun t s => R s t where
  part := h.part
  bind := h.bind
  record := h.record
  lookup := by
    intro name t s hlazy hr
    obtain ⟨heq, hbound⟩ := h.lookup hlazy hr
    exact ⟨heq.symm, fun rule hrule => hbound rule (heq.trans hrule)⟩

section Combinators

variable {R : Context → Context → Prop}

private theorem leaf_simulated (verdict : Nat → Verdict) :
    (leaf verdict).SimulatedBy R (leaf verdict) :=
  fun _ _ _ hr => .answer rfl hr

private theorem judged_simulated {m n : Matching} (h : m.SimulatedBy R n)
    (judge : Nat → Verdict → Verdict) : (judged m judge).SimulatedBy R (judged n judge) := by
  intro pos s t hr
  refine (h pos s t hr).bind ?_
  intro a b s' t' hab hr'
  exact .answer (congrArg (judge pos) hab) hr'

theorem holds_simulated {m n : Matching} (h : m.SimulatedBy R n) (pos : Nat) {s t : Context}
    (hr : R s t) : Follows Eq R (holds m pos s) (holds n pos t) := by
  unfold holds
  rw [Option.map_eq_bind, Option.map_eq_bind]
  refine (h pos s t hr).bind ?_
  intro a b s' t' hab hr'
  exact .answer hab.isSuccessful hr'

end Combinators

section Evaluation

variable {Q : Rule → Prop} {R : Context → Context → Prop} (h : Respects Q R)

include h

private theorem capture_respects {input : List Char} {name : String} {start : Nat}
    {a b : Attempt Empty} {s t : Context} (hab : a.Agrees b) (hr : R s t) :
    R (capture input name start a s) (capture input name start b t) := by
  unfold capture
  rw [hab.stop]
  exact h.record hr

theorem eval_simulated (input : List Char) {fuel fuel' : Nat} (hfuel : fuel ≤ fuel') :
    ∀ rule, Q rule → (eval input fuel rule).SimulatedBy R (eval input fuel' rule) := by
  -- By induction on the fuel, which may differ.
  induction fuel generalizing fuel' with
  | zero =>
      intro rule _ pos s t _
      simp only [eval]
      exact .nothing _
  | succ fuel ih =>
      obtain ⟨more, rfl⟩ : ∃ more, fuel' = more + 1 := ⟨fuel' - 1, by omega⟩
      have hle : fuel ≤ more := by omega
      intro rule hrule
      have hpart : ∀ part ∈ rule.parts,
          (eval input fuel part).SimulatedBy R (eval input more part) :=
        fun part hmem => ih hle part (h.part hrule hmem)
      cases rule with
      | literal text => exact leaf_simulated _
      | length n => exact leaf_simulated _
      | regex r => exact leaf_simulated _
      | refined base check => exact judged_simulated (hpart base (by simp [parts])) _
      | sequence rules => exact Matcher.sequence_simulated hpart
      | and rules => exact Matcher.conjunction_simulated hpart
      | or longest alternatives => exact Matcher.choice_simulated hpart longest
      | not rule => exact judged_simulated (hpart rule (by simp [parts])) _
      | optional rule => exact Matcher.optional_simulated (hpart rule (by simp [parts]))
      | repeating rule atLeastOne =>
          exact Matcher.repeating_simulated (hpart rule (by simp [parts])) hle atLeastOne
      | nonGreedy rule stop atLeastOne =>
          have hstop := hpart stop (by simp [parts])
          exact Matcher.nonGreedy_simulated (hpart rule (by simp [parts]))
            (fun pos s t hr => holds_simulated hstop pos hr) hle atLeastOne
      | set name rule =>
          apply Matcher.onSuccess_simulated (hpart rule (by simp [parts]))
          intro pos a b s t hab hr
          exact capture_respects h hab (h.bind hrule rfl hr)
      | setAndUse name rule =>
          refine Matcher.before_simulated (Matcher.onSuccess_simulated
            (hpart rule (by simp [parts])) ?_) ?_
          · intro pos a b s t hab hr
            exact capture_respects h hab hr
          · intro s t hr
            exact h.bind hrule rfl hr
      | lazy name =>
          refine Matcher.resolved_simulated fun s t hr => ?_
          obtain ⟨heq, hbound⟩ := h.lookup hrule hr
          rw [← heq]
          cases hfound : s.rule? name with
          | error e => exact .inl ⟨e.message, rfl, rfl⟩
          | ok rule => exact .inr ⟨_, _, rfl, rfl, ih hle rule (hbound rule hfound)⟩
      | completed rule => exact judged_simulated (hpart rule (by simp [parts])) _

end Evaluation

end TextGrammar.Rule
