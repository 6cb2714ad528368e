import TextGrammar.Action.Tokenize
import TextGrammar.Proofs.Action.Parts
import TextGrammar.Proofs.Rule.Invariant

/-!
# What holds of every attempt of an action

A property of attempts holds of whatever an action answers when it goes over from the parts to the
whole, from the verdicts on rules to the texts emitted for them, and on to what is emitted instead.
As with rules, actions and contexts only have to keep each other while they are evaluated.
-/

namespace TextGrammar

namespace TokenizingContext

private theorem action?_eq_ok_iff {c : TokenizingContext} {name : String} {action : Action} :
    c.action? name = .ok action ↔ c.actions.find? name = some action := by
  unfold action?
  cases c.actions.find? name <;> simp

structure Binds (A : String → Action → Prop) (B : String → Rule → Prop)
    (c : TokenizingContext) : Prop where
  actions : ∀ name action, c.action? name = .ok action → A name action
  matching : c.matching.Binds B

namespace Binds

variable {A : String → Action → Prop} {B : String → Rule → Prop} {c : TokenizingContext}

theorem empty : Binds A B {} where
  actions := by
    intro name action h
    exact absurd (action?_eq_ok_iff.1 h) nofun
  matching := .empty

theorem bind (h : c.Binds A B) {name : String} {bound : Action} (hbound : A name bound) :
    (c.bind name bound).Binds A B where
  actions := by
    intro other action haction
    rw [action?_eq_ok_iff] at haction
    by_cases hne : other = name
    · subst hne
      simp only [TokenizingContext.bind, Dictionary.find?_insert_self, Option.some.injEq] at haction
      exact haction ▸ hbound
    · simp only [TokenizingContext.bind, Dictionary.find?_insert_of_ne _ _ hne] at haction
      exact h.actions other action (action?_eq_ok_iff.2 haction)
  matching := h.matching

end Binds

end TokenizingContext

namespace Action

/-- Actions as `A` says, rules as `Q` says and contexts as `I` says keep each other while they are
evaluated. -/
structure Keeps (A : Action → Prop) (Q : Rule → Prop) (I : TokenizingContext → Prop) : Prop where
  part : ∀ {action part : Action}, A action → part ∈ action.parts → A part
  rule : ∀ {action : Action} {rule : Rule}, A action → rule ∈ action.rules → Q rule
  bind : ∀ {action bound : Action} {name : String} {c : TokenizingContext}, A action →
    action.binding? = some (name, bound) → I c → I (c.bind name bound)
  record : ∀ {name text : String} {c : TokenizingContext}, I c →
    I { c with matching := c.matching.record name text }
  lookup : ∀ {name : String} {action : Action} {c : TokenizingContext}, A (.lazy name) → I c →
    c.action? name = .ok action → A action
  matching : ∀ c : TokenizingContext, Rule.Keeps Q fun s => I { c with matching := s }

theorem Keeps.ofBinds {A : Action → Prop} {Q : Rule → Prop} {boundAction : String → Action → Prop}
    {boundRule : String → Rule → Prop}
    (part : ∀ {action part : Action}, A action → part ∈ action.parts → A part)
    (rule : ∀ {action : Action} {rule : Rule}, A action → rule ∈ action.rules → Q rule)
    (bind : ∀ {action bound : Action} {name : String}, A action →
      action.binding? = some (name, bound) → boundAction name bound)
    (lookup : ∀ {name : String} {action : Action}, A (.lazy name) → boundAction name action →
      A action)
    (matching : Rule.Keeps Q (Context.Binds boundRule)) :
    Keeps A Q (TokenizingContext.Binds boundAction boundRule) where
  part := part
  rule := rule
  bind haction hbinding hc := hc.bind (bind haction hbinding)
  record hc := ⟨hc.actions, hc.matching.record _ _⟩
  lookup hlazy hc haction := lookup hlazy (hc.actions _ _ haction)
  matching _ :=
    { part := matching.part
      bind := fun hrule hbinding hc => ⟨hc.actions, matching.bind hrule hbinding hc.matching⟩
      record := fun hc => ⟨hc.actions, matching.record hc.matching⟩
      lookup := fun hlazy hc hrule => matching.lookup hlazy hc.matching hrule }

theorem unrefined_keeps : Keeps Unrefined Rule.Unrefined
    (TokenizingContext.Binds (fun _ action => action.Unrefined) fun _ rule => rule.Unrefined) :=
  .ofBinds Unrefined.part Unrefined.rule
    (fun haction hbinding => haction.part (mem_parts_of_binding? hbinding))
    (fun _ haction => haction)
    Rule.unrefined_keeps

/-- Attempts of actions as `A` says are as `P` says when the verdicts on the rules in them are as
`V` says. -/
structure Emits (input : List Char) (A : Action → Prop) (V : Nat → Verdict → Prop)
    (P : Nat → Attempt Element → Prop) : Prop where
  compositional : Matcher.Compositional P
  literal : ∀ {pos : Nat} {v : Verdict}, V pos v →
    P pos ⟨if v.isSuccessful then emit (textBetween input pos v.stop) else [], v⟩
  wrap : ∀ {name : TokenName} {pos : Nat} {a : Attempt Element}, P pos a →
    P pos ⟨if a.isSuccessful then [.node name a.emitted] else [], a.verdict⟩
  consume : ∀ {action : Action} {pos : Nat} {a : Attempt Element}, A (.consume action) → P pos a →
    P pos ⟨if a.isSuccessful then [] else [], a.verdict⟩

section Combinators

variable {I : TokenizingContext → Prop} {V : Nat → Verdict → Prop}
  {P : Nat → Attempt Element → Prop} {input : List Char}

private theorem embedded_ensures {m : Rule.Matching}
    (h : ∀ c : TokenizingContext,
      m.Ensures (fun s => I { c with matching := s }) fun pos a => V pos a.verdict)
    (hemit : ∀ {pos : Nat} {v : Verdict}, V pos v →
      P pos ⟨if v.isSuccessful then emit (textBetween input pos v.stop) else [], v⟩) :
    (embedded input m).Ensures I P := by
  intro pos c hc
  refine (h c pos c.matching hc).bind ?_
  intro a s ha hs
  exact .answer (hemit ha) hs

private theorem holds_answers {m : Rule.Matching}
    (h : ∀ c : TokenizingContext,
      m.Ensures (fun s => I { c with matching := s }) fun pos a => V pos a.verdict)
    (pos : Nat) {c : TokenizingContext} (hc : I c) :
    Answers (fun _ => True) I (holds m pos c) := by
  unfold holds
  rw [Option.map_eq_bind]
  refine (Rule.holds_answers (h c) pos hc).bind ?_
  intro stopped s _ hs
  exact .answer trivial hs

private theorem emitting_ensures {m : Tokenizing} (h : m.Ensures I P)
    {change : List Element → List Element}
    (hchange : ∀ {pos : Nat} {a : Attempt Element}, P pos a →
      P pos ⟨if a.isSuccessful then change a.emitted else [], a.verdict⟩) :
    (emitting m change).Ensures I P := by
  intro pos c hc
  refine (h pos c hc).bind ?_
  intro a c' ha hc'
  exact .answer (hchange ha) hc'

end Combinators

section Evaluation

variable {A : Action → Prop} {Q : Rule → Prop} {I : TokenizingContext → Prop}
  {V : Nat → Verdict → Prop} {P : Nat → Attempt Element → Prop} {input : List Char}
  (hkeeps : Keeps A Q I) (hjudges : Rule.Judges input Q V) (hemits : Emits input A V P)

include hkeeps hjudges hemits

private theorem eval_ensures (fuel : Nat) :
    ∀ action, A action → (eval input fuel action).Ensures I P := by
  induction fuel with
  | zero =>
      intro action _ pos c _
      simp only [eval]
      exact .nothing
  | succ fuel ih =>
      intro action haction
      have hpart : ∀ part ∈ action.parts, (eval input fuel part).Ensures I P :=
        fun part hmem => ih part (hkeeps.part haction hmem)
      have hrule : ∀ rule ∈ action.rules, ∀ c : TokenizingContext,
          (rule.eval input fuel).Ensures (fun s => I { c with matching := s })
            fun pos a => V pos a.verdict :=
        fun rule hmem c =>
          Rule.eval_ensures (hkeeps.matching c) hjudges fuel rule (hkeeps.rule haction hmem)
      have hwhole := hemits.compositional.toCompositionalBound
      cases action with
      | literal rule => exact embedded_ensures (hrule rule (by simp [rules])) hemits.literal
      | wrap name action => exact emitting_ensures (hpart action (by simp [parts])) hemits.wrap
      | consume action =>
          exact emitting_ensures (hpart action (by simp [parts])) (hemits.consume haction)
      | sequence actions => exact Matcher.sequence_ensures hpart hwhole
      | or longest alternatives => exact Matcher.choice_ensures hpart hwhole longest
      | optional action => exact Matcher.optional_ensures (hpart action (by simp [parts])) hwhole
      | repeating action atLeastOne =>
          exact Matcher.repeating_ensures (hpart action (by simp [parts])) hwhole fuel atLeastOne
      | nonGreedy action stop atLeastOne =>
          have hstop := hrule stop (by simp [rules])
          exact Matcher.nonGreedy_ensures (hpart action (by simp [parts])) hwhole
            (fun pos c hc => holds_answers hstop pos hc) fuel atLeastOne
      | set name action =>
          apply Matcher.onSuccess_ensures (hpart action (by simp [parts]))
          intro pos a c _ hc
          exact hkeeps.record (hkeeps.bind haction rfl hc)
      | setAndUse name action =>
          refine Matcher.before_ensures (Matcher.onSuccess_ensures
            (hpart action (by simp [parts])) ?_) ?_
          · intro pos a c _ hc
            exact hkeeps.record hc
          · intro c hc
            exact hkeeps.bind haction rfl hc
      | lazy name =>
          refine Matcher.resolved_ensures hemits.compositional fun c m hc hm => ?_
          cases hfound : c.action? name with
          | error e =>
              rw [hfound] at hm
              cases hm
          | ok action =>
              rw [hfound] at hm
              obtain rfl : eval input fuel action = m := Except.ok.inj hm
              exact ih action (hkeeps.lookup haction hc hfound)

theorem tokenizeAt_answers {action : Action} (haction : A action) {c c' : TokenizingContext}
    (hc : I c) {fuel start : Nat} {elements : List Element} {v : Verdict}
    (h : action.tokenizeAt fuel input start c = some (elements, v, c')) :
    P start ⟨elements, v⟩ ∧ I c' := by
  obtain ⟨⟨a, _⟩, ha, hv⟩ := Option.map_eq_some_iff.1 h
  cases hv
  exact eval_ensures hkeeps hjudges hemits fuel action haction start c hc a c' ha

end Evaluation

end Action

end TextGrammar
