import TextGrammar.Proofs.Matcher.Invariant
import TextGrammar.Proofs.Rule.Parts
import TextGrammar.Rule.Evaluate

/-!
# What holds of every verdict on a rule

A property of verdicts holds of whatever a rule answers when it holds at the leaves and goes over to
the whole.  Which rules are evaluated and what the context binds meanwhile is left open: a property
of rules and one of contexts will do that keep each other.
-/

namespace TextGrammar

namespace Context

theorem rule?_eq_ok_iff {c : Context} {name : String} {rule : Rule} :
    c.rule? name = .ok rule ↔ c.rules.find? name = some rule := by
  unfold rule?
  cases c.rules.find? name <;> simp

@[simp] theorem rule?_bind_self (c : Context) (name : String) (rule : Rule) :
    (c.bind name rule).rule? name = .ok rule := by
  simp [rule?, bind]

theorem rule?_bind_of_ne (c : Context) {name other : String} (rule : Rule) (h : other ≠ name) :
    (c.bind name rule).rule? other = c.rule? other := by
  simp [rule?, bind, Dictionary.find?_insert_of_ne _ _ h]

@[simp] theorem rule?_record (c : Context) (name text other : String) :
    (c.record name text).rule? other = c.rule? other := rfl

def Binds (B : String → Rule → Prop) (c : Context) : Prop :=
  ∀ name rule, c.rule? name = .ok rule → B name rule

namespace Binds

variable {B : String → Rule → Prop} {c : Context}

theorem empty : Binds B {} := by
  intro name rule h
  exact absurd (rule?_eq_ok_iff.1 h) nofun

theorem bind (h : c.Binds B) {name : String} {bound : Rule} (hbound : B name bound) :
    (c.bind name bound).Binds B := by
  intro other rule hrule
  by_cases hne : other = name
  · subst hne
    rw [rule?_bind_self] at hrule
    exact Except.ok.inj hrule ▸ hbound
  · rw [rule?_bind_of_ne c bound hne] at hrule
    exact h other rule hrule

theorem record (h : c.Binds B) (name text : String) : (c.record name text).Binds B := h

end Binds

end Context

namespace Rule

/-- Rules as `Q` says and contexts as `I` says keep each other while they are evaluated. -/
structure Keeps (Q : Rule → Prop) (I : Context → Prop) : Prop where
  part : ∀ {rule part : Rule}, Q rule → part ∈ rule.parts → Q part
  bind : ∀ {rule bound : Rule} {name : String} {c : Context}, Q rule →
    rule.binding? = some (name, bound) → I c → I (c.bind name bound)
  record : ∀ {name text : String} {c : Context}, I c → I (c.record name text)
  lookup : ∀ {name : String} {rule : Rule} {c : Context}, Q (.lazy name) → I c →
    c.rule? name = .ok rule → Q rule

theorem Keeps.ofBinds {Q : Rule → Prop} {B : String → Rule → Prop}
    (part : ∀ {rule part : Rule}, Q rule → part ∈ rule.parts → Q part)
    (bind : ∀ {rule bound : Rule} {name : String}, Q rule →
      rule.binding? = some (name, bound) → B name bound)
    (lookup : ∀ {name : String} {rule : Rule}, Q (.lazy name) → B name rule → Q rule) :
    Keeps Q (Context.Binds B) where
  part := part
  bind hrule hbinding hc := hc.bind (bind hrule hbinding)
  record hc := hc.record _ _
  lookup hlazy hc hrule := lookup hlazy (hc _ _ hrule)

theorem unrefined_keeps : Keeps Unrefined (Context.Binds fun _ rule => rule.Unrefined) :=
  .ofBinds Unrefined.part
    (fun hrule hbinding => hrule.part (binding?_eq_some hbinding).2)
    (fun _ hrule => hrule)

/-! ## What evaluation does to a context -/

def entering : Rule → Context → Context
  | .setAndUse name rule, c => c.bind name rule
  | _, c => c

theorem entering_eq (rule : Rule) (c : Context) : rule.entering c = c ∨
    ∃ name bound, rule.binding? = some (name, bound) ∧ rule.entering c = c.bind name bound := by
  cases rule with
  | setAndUse name rule => exact .inr ⟨name, rule, rfl, rfl⟩
  | _ => exact .inl rfl

/-- Rules are tried in contexts as `Q` says, and `F` says what becomes of a context meanwhile. -/
structure Governs (Q : Context → Rule → Prop) (F : Context → Context → Prop) : Prop where
  refl : ∀ c, F c c
  trans : ∀ {c d e : Context}, F c d → F d e → F c e
  later : ∀ {rule : Rule} {c d : Context}, Q c rule → F c d → Q d rule
  part : ∀ {rule part : Rule} {c : Context}, Q c rule → part ∈ rule.parts →
    Q (rule.entering c) part
  bind : ∀ {rule bound : Rule} {name : String} {c : Context}, Q c rule →
    rule.binding? = some (name, bound) → F c (c.bind name bound)
  record : ∀ {rule bound : Rule} {name text : String} {c : Context}, Q c rule →
    rule.binding? = some (name, bound) → F c (c.record name text)
  lookup : ∀ {name : String} {rule : Rule} {c : Context}, Q c (.lazy name) →
    c.rule? name = .ok rule → Q c rule

theorem Keeps.governs {Q : Rule → Prop} {I : Context → Prop} (h : Keeps Q I) :
    Governs (fun c rule => Q rule ∧ I c) fun c d => I c → I d where
  refl _ := id
  trans hcd hde := hde ∘ hcd
  later := fun ⟨hrule, hc⟩ hcd => ⟨hrule, hcd hc⟩
  part {rule} {part} {c} := by
    rintro ⟨hrule, hc⟩ hpart
    refine ⟨h.part hrule hpart, ?_⟩
    rcases rule.entering_eq c with heq | ⟨name, bound, hbinding, heq⟩
    · rwa [heq]
    · rw [heq]
      exact h.bind hrule hbinding hc
  bind hrule hbinding := h.bind hrule.1 hbinding
  record _ _ := h.record
  lookup := fun ⟨hlazy, hc⟩ hrule => ⟨h.lookup hlazy hc hrule, hc⟩

/-! ## Verdicts at an offset -/

structure JudgesBound (input : List Char) (Q : Rule → Prop) (V : Nat → Verdict → Prop) :
    Prop where
  compositional : Matcher.CompositionalBound (fun pos (a : Attempt Empty) => V pos a.verdict)
    fun pos a => V pos a.verdict
  literal : ∀ text pos, V pos (literalVerdict text input pos)
  length : ∀ n pos, V pos (lengthVerdict n input pos)
  regex : ∀ r pos, V pos (regexVerdict r input pos)
  refinement : ∀ {base : Rule} {check : List Char → Nat → Verdict} {pos : Nat} {v : Verdict},
    Q (.refined base check) → V pos v → V pos (refinement check input v)
  agreement : ∀ {pos : Nat} {vs : List Verdict}, (∀ v ∈ vs, V pos v) →
    V pos (Matcher.agreement pos vs)
  negation : ∀ {pos : Nat} {v : Verdict}, V pos v → V pos (negation input pos v)
  completion : ∀ {pos : Nat} {v : Verdict}, V pos v → V pos (completion input v)

/-- Verdicts on rules as `Q` says are as `V` says, at the offset at which the rule is tried. -/
structure Judges (input : List Char) (Q : Rule → Prop) (V : Nat → Verdict → Prop) : Prop
    extends JudgesBound input Q V where
  unknown : ∀ pos message, V pos (.unknownError message pos)

theorem anything_judges (input : List Char) (Q : Rule → Prop) : Judges input Q fun _ _ => True where
  compositional := ⟨fun _ => trivial, fun _ _ _ => trivial, fun _ _ _ _ => trivial,
    fun _ => trivial, fun _ _ _ => trivial, fun _ _ => trivial⟩
  literal _ _ := trivial
  length _ _ := trivial
  regex _ _ := trivial
  refinement _ _ := trivial
  agreement _ := trivial
  negation _ := trivial
  completion _ := trivial
  unknown _ _ := trivial

section Combinators

variable {I : Context → Prop} {V W : Nat → Verdict → Prop}

private theorem leaf_ensures {verdict : Nat → Verdict} (h : ∀ pos, V pos (verdict pos)) :
    (leaf verdict).Ensures I fun pos a => V pos a.verdict :=
  fun pos _ hs => .answer (h pos) hs

private theorem judged_ensures {m : Matching} (h : m.Ensures I fun pos a => V pos a.verdict)
    {judge : Nat → Verdict → Verdict} (hjudge : ∀ pos v, V pos v → V pos (judge pos v)) :
    (judged m judge).Ensures I fun pos a => V pos a.verdict := by
  intro pos s hs
  refine (h pos s hs).bind ?_
  intro a s' ha hs'
  exact .answer (hjudge pos a.verdict ha) hs'

theorem holds_answers {m : Matching} {P : Nat → Attempt Empty → Prop} (h : m.Ensures I P)
    (pos : Nat) {s : Context} (hs : I s) : Answers (fun _ => True) I (holds m pos s) := by
  unfold holds
  rw [Option.map_eq_bind]
  refine (h pos s hs).bind ?_
  intro a s' _ hs'
  exact .answer trivial hs'

theorem conjunction_ensures {f : Rule → Matching} {rules : List Rule}
    (h : ∀ rule ∈ rules, (f rule).Ensures I fun pos a => V pos a.verdict)
    (hagreement : ∀ {pos : Nat} {vs : List Verdict}, (∀ v ∈ vs, V pos v) →
      W pos (Matcher.agreement pos vs)) :
    (Matcher.conjunction (rules.map f)).Ensures I fun pos a => W pos a.verdict := by
  intro pos s hs
  refine (Matcher.attempts_ensures h false pos s hs).bind ?_
  intro as s' has hs'
  exact .answer (hagreement (List.forall_mem_map.2 has)) hs'

end Combinators

section Evaluation

variable {Q : Context → Rule → Prop} {F : Context → Context → Prop} {V : Nat → Verdict → Prop}
  {input : List Char} (hgoverns : Governs Q F)
  (hjudges : JudgesBound input (fun rule => ∃ c, Q c rule) V)
  (hunbound : ∀ {c name e} pos, Q c (.lazy name) → c.rule? name = .error e →
    V pos (.unknownError e.message pos))

include hgoverns hjudges hunbound

theorem eval_answers (fuel : Nat) : ∀ rule pos c, Q c rule →
    Answers (fun a => V pos a.verdict) (F c) (eval input fuel rule pos c) := by
  -- Not by induction on the rule: a look-up goes on with a rule that is no part of it.
  induction fuel with
  | zero =>
      intro rule pos c _
      simp only [eval]
      exact .nothing
  | succ fuel ih =>
      intro rule pos c hrule
      have hpart : ∀ part ∈ rule.parts,
          (eval input fuel part).Ensures (F (rule.entering c)) fun pos a => V pos a.verdict := by
        intro part hmem pos s hs
        have hanswers := ih part pos s (hgoverns.later (hgoverns.part hrule hmem) hs)
        exact hanswers.mono fun _ => hgoverns.trans hs
      have hwhole := hjudges.compositional
      have hrefl : F c c := hgoverns.refl c
      cases rule with
      | literal text => exact leaf_ensures (hjudges.literal text) pos c hrefl
      | length n => exact leaf_ensures (hjudges.length n) pos c hrefl
      | regex r => exact leaf_ensures (hjudges.regex r) pos c hrefl
      | refined base check =>
          exact judged_ensures (hpart base (by simp [parts]))
            (fun _ _ => hjudges.refinement ⟨c, hrule⟩) pos c hrefl
      | sequence rules => exact Matcher.sequence_ensures hpart hwhole pos c hrefl
      | and rules => exact conjunction_ensures hpart hjudges.agreement pos c hrefl
      | or longest alternatives => exact Matcher.choice_ensures hpart hwhole longest pos c hrefl
      | not rule =>
          exact judged_ensures (hpart rule (by simp [parts])) (fun _ _ => hjudges.negation)
            pos c hrefl
      | optional rule =>
          exact Matcher.optional_ensures (hpart rule (by simp [parts])) hwhole pos c hrefl
      | repeating rule atLeastOne =>
          exact Matcher.repeating_ensures (hpart rule (by simp [parts])) hwhole fuel atLeastOne
            pos c hrefl
      | nonGreedy rule stop atLeastOne =>
          have hstop := hpart stop (by simp [parts])
          exact Matcher.nonGreedy_ensures (hpart rule (by simp [parts])) hwhole
            (fun pos s hs => holds_answers hstop pos hs) fuel atLeastOne pos c hrefl
      | set name rule =>
          refine Matcher.onSuccess_ensures (hpart rule (by simp [parts])) ?_ pos c hrefl
          intro pos a s _ hs
          have hbound : F s (s.bind name rule) := hgoverns.bind (hgoverns.later hrule hs) rfl
          have hlater := hgoverns.trans hs hbound
          exact hgoverns.trans hlater (hgoverns.record (hgoverns.later hrule hlater) rfl)
      | setAndUse name rule =>
          have hbound : F c (c.bind name rule) := hgoverns.bind hrule rfl
          have htried : ((eval input fuel rule).onSuccess (capture input name)).Ensures
              (F (c.bind name rule)) fun pos a => V pos a.verdict := by
            refine Matcher.onSuccess_ensures (hpart rule (by simp [parts])) ?_
            intro pos a s _ hs
            have hlater := hgoverns.later hrule (hgoverns.trans hbound hs)
            exact hgoverns.trans hs (hgoverns.record hlater rfl)
          exact (htried pos _ (hgoverns.refl _)).mono fun _ => hgoverns.trans hbound
      | lazy name =>
          simp only [eval, Matcher.resolved]
          cases hfound : c.rule? name with
          | error e => exact .answer (hunbound pos hrule hfound) hrefl
          | ok rule => exact ih rule pos c (hgoverns.lookup hrule hfound)
      | completed rule =>
          exact judged_ensures (hpart rule (by simp [parts])) (fun _ _ => hjudges.completion)
            pos c hrefl

theorem matchAt_governed {rule : Rule} {c c' : Context} (hrule : Q c rule) {fuel start : Nat}
    {v : Verdict} (h : rule.matchAt fuel input start c = some (v, c')) : V start v ∧ F c c' := by
  obtain ⟨⟨a, _⟩, ha, hv⟩ := Option.map_eq_some_iff.1 h
  cases hv
  exact eval_answers hgoverns hjudges hunbound fuel rule start c hrule a c' ha

end Evaluation

section Evaluation

variable {Q : Rule → Prop} {I : Context → Prop} {V : Nat → Verdict → Prop} {input : List Char}
  (hkeeps : Keeps Q I) (hjudges : Judges input Q V)

include hkeeps hjudges

theorem eval_ensures (fuel : Nat) :
    ∀ rule, Q rule → (eval input fuel rule).Ensures I fun pos a => V pos a.verdict := by
  intro rule hrule pos c hc
  have hbound : JudgesBound input (fun rule => ∃ c, Q rule ∧ I c) V :=
    { hjudges with refinement := fun ⟨_, hrefined, _⟩ => hjudges.refinement hrefined }
  have hanswers := eval_answers hkeeps.governs hbound (fun pos _ _ => hjudges.unknown pos _) fuel
    rule pos c ⟨hrule, hc⟩
  exact hanswers.mono fun _ hkept => hkept hc

theorem matchAt_answers {rule : Rule} (hrule : Q rule) {c c' : Context} (hc : I c)
    {fuel start : Nat} {v : Verdict} (h : rule.matchAt fuel input start c = some (v, c')) :
    V start v ∧ I c' := by
  obtain ⟨⟨a, _⟩, ha, hv⟩ := Option.map_eq_some_iff.1 h
  cases hv
  exact eval_ensures hkeeps hjudges fuel rule hrule start c hc a c' ha

end Evaluation

end Rule

end TextGrammar
