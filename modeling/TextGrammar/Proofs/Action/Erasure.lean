import TextGrammar.Action.Tokenize
import TextGrammar.Proofs.Action.Parts
import TextGrammar.Proofs.Rule.Simulation

/-!
# Actions as rules

Without what it emits, an action is a rule.  The two keep their names in different ways: a rule has
one context for all of them, an action binds its own names apart from those of its rules.  As long
as no name is used in both ways, the one context is the union of the two.
-/

namespace TextGrammar.Action

mutual

/-- The rule that matches as the action does. -/
def erase : Action → Rule
  | .literal rule => rule
  | .wrap _ action | .consume action => erase action
  | .sequence actions => .sequence (eraseAll actions)
  | .or longest alternatives => .or longest (eraseAll alternatives)
  | .optional action => .optional (erase action)
  | .repeating action atLeastOne => .repeating (erase action) atLeastOne
  | .nonGreedy action stop atLeastOne => .nonGreedy (erase action) stop atLeastOne
  | .set name action => .set name (erase action)
  | .setAndUse name action => .setAndUse name (erase action)
  | .lazy name => .lazy name

def eraseAll : List Action → List Rule
  | [] => []
  | action :: actions => erase action :: eraseAll actions

end

theorem eraseAll_eq (actions : List Action) : eraseAll actions = actions.map erase := by
  induction actions with
  | nil => simp [eraseAll]
  | cons action actions ih => simp [eraseAll, ih]

/-- No name is used both by an action and by a rule embedded in it. -/
def NamesApart (root : Action) : Prop := ∀ name ∈ root.names, name ∉ root.ruleNames

instance (root : Action) : Decidable root.NamesApart :=
  inferInstanceAs (Decidable (∀ name ∈ root.names, name ∉ root.ruleNames))

structure Mirrors (root : Action) (c : TokenizingContext) (t : Context) : Prop where
  texts : c.matching.texts = t.texts
  rules : ∀ name ∈ root.ruleNames, c.matching.rules.find? name = t.rules.find? name
  actions : ∀ name ∈ root.names, (c.actions.find? name).map erase = t.rules.find? name
  boundRules : ∀ name rule, c.matching.rules.find? name = some rule →
    ∀ used ∈ rule.names, used ∈ root.ruleNames
  boundActions : ∀ name action, c.actions.find? name = some action → action ∈ root.subactions

namespace Mirrors

variable {root : Action} {c : TokenizingContext} {t : Context}

theorem empty (root : Action) : Mirrors root {} {} where
  texts := rfl
  rules := fun _ _ => rfl
  actions := fun _ _ => rfl
  boundRules := fun _ _ h => nomatch h
  boundActions := fun _ _ h => nomatch h

private theorem record (h : Mirrors root c t) (name text : String) :
    Mirrors root { c with matching := c.matching.record name text } (t.record name text) where
  texts := by simp only [Context.record, h.texts]
  rules := h.rules
  actions := h.actions
  boundRules := h.boundRules
  boundActions := h.boundActions

theorem capture (h : Mirrors root c t) {input : List Char} {name : String} {start : Nat}
    {a : Attempt Element} {b : Attempt Empty} (hstop : a.stop = b.stop) :
    Mirrors root (Action.capture input name start a c) (Rule.capture input name start b t) := by
  unfold Action.capture Rule.capture
  rw [hstop]
  exact h.record name _

variable (hapart : root.NamesApart)

include hapart

theorem bind (h : Mirrors root c t) {action bound : Action} {name : String}
    (haction : action ∈ root.subactions) (hname : action.uses? = some name)
    (hbound : bound ∈ action.parts) :
    Mirrors root (c.bind name bound) (t.bind name bound.erase) where
  texts := h.texts
  rules := by
    intro other hother
    have hne : other ≠ name := by
      rintro rfl
      exact hapart other (mem_names haction hname) hother
    simp only [Context.bind, Dictionary.find?_insert_of_ne _ _ hne]
    exact h.rules other hother
  actions := by
    intro other hother
    by_cases hne : other = name
    · subst hne
      simp [TokenizingContext.bind, Context.bind]
    · simp only [TokenizingContext.bind, Context.bind, Dictionary.find?_insert_of_ne _ _ hne]
      exact h.actions other hother
  boundRules := h.boundRules
  boundActions := by
    intro other found hfound
    by_cases hne : other = name
    · subst hne
      simp only [TokenizingContext.bind, Dictionary.find?_insert_self, Option.some.injEq] at hfound
      exact hfound ▸ mem_subactions_of_part haction hbound
    · simp only [TokenizingContext.bind, Dictionary.find?_insert_of_ne _ _ hne] at hfound
      exact h.boundActions other found hfound

private theorem bindRule (h : Mirrors root c t) {rule : Rule} {name : String}
    (hname : name ∈ root.ruleNames) (hrule : ∀ used ∈ rule.names, used ∈ root.ruleNames) :
    Mirrors root { c with matching := c.matching.bind name rule } (t.bind name rule) where
  texts := h.texts
  rules := by
    intro other hother
    by_cases hne : other = name
    · subst hne
      simp [Context.bind]
    · simp only [Context.bind, Dictionary.find?_insert_of_ne _ _ hne]
      exact h.rules other hother
  actions := by
    intro other hother
    have hne : other ≠ name := by
      rintro rfl
      exact hapart other hother hname
    simp only [Context.bind, Dictionary.find?_insert_of_ne _ _ hne]
    exact h.actions other hother
  boundRules := by
    intro other found hfound
    by_cases hne : other = name
    · subst hne
      simp only [Context.bind, Dictionary.find?_insert_self, Option.some.injEq] at hfound
      exact hfound ▸ hrule
    · simp only [Context.bind, Dictionary.find?_insert_of_ne _ _ hne] at hfound
      exact h.boundRules other found hfound
  boundActions := h.boundActions

omit hapart in
theorem lookup (h : Mirrors root c t) {name : String} (hname : name ∈ root.names) :
    (∃ e, c.action? name = .error e ∧ t.rule? name = .error e) ∨
      ∃ action ∈ root.subactions, c.action? name = .ok action ∧
        t.rule? name = .ok action.erase := by
  have hfind := h.actions name hname
  unfold TokenizingContext.action? Context.rule?
  cases haction : c.actions.find? name with
  | none =>
      rw [haction] at hfind
      rw [← hfind]
      exact .inl ⟨.unbound name, rfl, rfl⟩
  | some action =>
      rw [haction] at hfind
      rw [← hfind]
      exact .inr ⟨action, h.boundActions name action haction, rfl, rfl⟩

theorem respects (c : TokenizingContext) :
    Rule.Respects (fun rule => ∀ used ∈ rule.names, used ∈ root.ruleNames)
      fun s t => Mirrors root { c with matching := s } t where
  part := fun hrule hpart used hused => hrule used (Rule.mem_names_of_part hpart hused)
  bind := by
    intro rule bound name s t hrule hbinding h
    obtain ⟨hname, hpart⟩ := Rule.binding?_eq_some hbinding
    exact h.bindRule hapart (hrule name (Rule.mem_names_of_uses? hname))
      fun used hused => hrule used (Rule.mem_names_of_part hpart hused)
  record := fun h => h.record _ _
  lookup := by
    intro name s t hlazy h
    have hfind := h.rules name (hlazy name (Rule.mem_names_of_uses? rfl))
    refine ⟨by simp only [Context.rule?, ← hfind], fun rule hrule => ?_⟩
    apply h.boundRules name rule
    unfold Context.rule? at hrule
    split at hrule
    · cases hrule
      assumption
    · exact absurd hrule nofun

end Mirrors

end TextGrammar.Action
