import TextGrammar.Action
import TextGrammar.Rule.Evaluate

/-!
# Tokenizing

An action is a matcher that emits elements.  Its names are apart from those of the rules in it,
which are matched in a context of their own; the texts matched under the names of actions are
recorded there too.
-/

namespace TextGrammar

structure TokenizingContext where
  actions : Dictionary String Action := {}
  matching : Context := {}

namespace TokenizingContext

def bind (c : TokenizingContext) (name : String) (action : Action) : TokenizingContext :=
  { c with actions := c.actions.insert name action }

def action? (c : TokenizingContext) (name : String) : Except GrammarError Action :=
  match c.actions.find? name with
  | some action => .ok action
  | none => .error (.unbound name)

end TokenizingContext

namespace Action

abbrev Tokenizing := Matcher TokenizingContext Element

def emit (text : List Char) : List Element :=
  if text = [] then [] else [.text (String.ofList text)]

def embedded (input : List Char) (m : Rule.Matching) : Tokenizing := fun start c => do
  let (a, matching) ← m start c.matching
  let elements := if a.isSuccessful then emit (textBetween input start a.stop) else []
  some (⟨elements, a.verdict⟩, { c with matching })

def holds (m : Rule.Matching) (pos : Nat) (c : TokenizingContext) :
    Option (Bool × TokenizingContext) :=
  (Rule.holds m pos c.matching).map fun (stopped, matching) => (stopped, { c with matching })

def emitting (m : Tokenizing) (change : List Element → List Element) : Tokenizing :=
  fun start c => do
    let (a, c) ← m start c
    some (⟨if a.isSuccessful then change a.emitted else [], a.verdict⟩, c)

def capture (input : List Char) (name : String) (start : Nat) (a : Attempt Element)
    (c : TokenizingContext) : TokenizingContext :=
  { c with matching := c.matching.record name (String.ofList (textBetween input start a.stop)) }

def eval (input : List Char) : Nat → Action → Tokenizing
  | 0, _ => fun _ _ => none
  | fuel + 1, .literal rule => embedded input (rule.eval input fuel)
  | fuel + 1, .wrap name action => emitting (eval input fuel action) fun es => [.node name es]
  | fuel + 1, .consume action => emitting (eval input fuel action) fun _ => []
  | fuel + 1, .sequence actions => .sequence (actions.map (eval input fuel))
  | fuel + 1, .or longest alternatives => .choice longest (alternatives.map (eval input fuel))
  | fuel + 1, .optional action => .optional (eval input fuel action)
  | fuel + 1, .repeating action atLeastOne => .repeating fuel atLeastOne (eval input fuel action)
  | fuel + 1, .nonGreedy action stop atLeastOne =>
      .nonGreedy fuel atLeastOne (holds (stop.eval input fuel)) (eval input fuel action)
  | fuel + 1, .set name action =>
      (eval input fuel action).onSuccess fun start a c =>
        capture input name start a (c.bind name action)
  | fuel + 1, .setAndUse name action =>
      .before (·.bind name action) ((eval input fuel action).onSuccess (capture input name))
  | fuel + 1, .lazy name =>
      .resolved fun c => ((c.action? name).map (eval input fuel)).mapError GrammarError.message

private theorem embedded_extends (input : List Char) {m n : Rule.Matching} (h : m.Extends n) :
    (embedded input m).Extends (embedded input n) := by
  intro pos c r hr
  simp only [embedded, Option.bind_eq_bind, Option.bind_eq_some_iff] at hr ⊢
  obtain ⟨x, hx, hr⟩ := hr
  exact ⟨x, h pos c.matching x hx, hr⟩

private theorem holds_extends {m n : Rule.Matching} (h : m.Extends n) :
    ∀ pos c r, holds m pos c = some r → holds n pos c = some r := by
  intro pos c r hr
  simp only [holds, Option.map_eq_some_iff] at hr ⊢
  obtain ⟨x, hx, hr⟩ := hr
  exact ⟨x, Rule.holds_extends h pos c.matching x hx, hr⟩

private theorem emitting_extends {m n : Tokenizing} (h : m.Extends n)
    (change : List Element → List Element) :
    (emitting m change).Extends (emitting n change) := by
  intro pos c r hr
  simp only [emitting, Option.bind_eq_bind, Option.bind_eq_some_iff] at hr ⊢
  obtain ⟨x, hx, hr⟩ := hr
  exact ⟨x, h pos c x hx, hr⟩

theorem eval_extends (input : List Char) {fuel fuel' : Nat} (hf : fuel ≤ fuel') :
    ∀ action : Action, (eval input fuel action).Extends (eval input fuel' action) := by
  induction fuel generalizing fuel' with
  | zero => intro action pos c r hr; simp [eval] at hr
  | succ fuel ih =>
      obtain ⟨more, rfl⟩ : ∃ more, fuel' = more + 1 := ⟨fuel' - 1, by omega⟩
      have hle : fuel ≤ more := by omega
      intro action
      cases action with
      | literal rule => exact embedded_extends input (Rule.eval_extends input hle rule)
      | wrap name action => exact emitting_extends (ih hle action) _
      | consume action => exact emitting_extends (ih hle action) _
      | sequence actions => exact Matcher.sequence_extends (ih hle) actions
      | or longest alternatives => exact Matcher.choice_extends (ih hle) longest alternatives
      | optional action => exact Matcher.optional_extends (ih hle action)
      | repeating action atLeastOne =>
          exact Matcher.repeating_extends (ih hle action) hle atLeastOne
      | nonGreedy action stop atLeastOne =>
          exact Matcher.nonGreedy_extends (ih hle action)
            (holds_extends (Rule.eval_extends input hle stop)) hle atLeastOne
      | set name action => exact Matcher.onSuccess_extends (ih hle action) _
      | setAndUse name action =>
          exact Matcher.before_extends (Matcher.onSuccess_extends (ih hle action) _) _
      | lazy name =>
          refine Matcher.resolved_extends fun c => ?_
          cases haction : c.action? name with
          | error e => exact .inl ⟨e.message, rfl, rfl⟩
          | ok action => exact .inr ⟨_, _, rfl, rfl, ih hle action⟩

/-- Tokenizes a text at an offset: the elements emitted, the verdict, and the context behind. -/
def tokenizeAt (fuel : Nat) (action : Action) (input : List Char) (start : Nat)
    (c : TokenizingContext) : Option (List Element × Verdict × TokenizingContext) :=
  (action.eval input fuel start c).map fun (a, c) => (a.emitted, a.verdict, c)

/-- Tokenizes a text from its start and wraps what is emitted.  There is no token when the action
did not match. -/
def tokenize (fuel : Nat) (action : Action) (input : List Char) (name : TokenName) :
    Option (Option Token × Verdict) :=
  ((Action.wrap name action).tokenizeAt fuel input 0 {}).map fun (elements, v, _) =>
    (elements.head?.bind Element.token?, v)

end Action

end TextGrammar
