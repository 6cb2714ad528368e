import TextGrammar.Rule

/-!
# The parts of a rule

What a rule is put together from, at any depth, and the names that are used anywhere in it.
-/

namespace TextGrammar.Rule

def parts : Rule → List Rule
  | .literal _ | .length _ | .regex _ | .lazy _ => []
  | .sequence rules | .and rules | .or _ rules => rules
  | .refined rule _ | .not rule | .optional rule | .repeating rule _ | .set _ rule
  | .setAndUse _ rule | .completed rule => [rule]
  | .nonGreedy rule stop _ => [rule, stop]

mutual

def inner : Rule → List Rule
  | .literal _ | .length _ | .regex _ | .lazy _ => []
  | .sequence rules | .and rules | .or _ rules => innerAll rules
  | .refined rule _ | .not rule | .optional rule | .repeating rule _ | .set _ rule
  | .setAndUse _ rule | .completed rule => rule :: inner rule
  | .nonGreedy rule stop _ => rule :: inner rule ++ stop :: inner stop

def innerAll : List Rule → List Rule
  | [] => []
  | rule :: rules => rule :: inner rule ++ innerAll rules

end

def subrules (rule : Rule) : List Rule := rule :: rule.inner

private theorem innerAll_eq (rules : List Rule) : innerAll rules = rules.flatMap subrules := by
  induction rules with
  | nil => simp [innerAll]
  | cons rule rules ih => simp [innerAll, subrules, ih]

private theorem inner_eq (rule : Rule) : rule.inner = rule.parts.flatMap subrules := by
  cases rule <;> simp [inner, parts, innerAll_eq, subrules]

theorem mem_subrules_iff {rule other : Rule} :
    other ∈ rule.subrules ↔ other = rule ∨ ∃ part ∈ rule.parts, other ∈ part.subrules := by
  rw [subrules, List.mem_cons, inner_eq, List.mem_flatMap]

theorem mem_subrules_self (rule : Rule) : rule ∈ rule.subrules := List.mem_cons_self

theorem mem_subrules_of_part {rule part other : Rule} (hpart : part ∈ rule.parts)
    (h : other ∈ part.subrules) : other ∈ rule.subrules :=
  mem_subrules_iff.2 (.inr ⟨part, hpart, h⟩)

theorem mem_filterMap_subrules_of_part {β : Type} {f : Rule → Option β} {rule part : Rule}
    (hpart : part ∈ rule.parts) {b : β} (h : b ∈ part.subrules.filterMap f) :
    b ∈ rule.subrules.filterMap f := by
  obtain ⟨other, hother, hb⟩ := List.mem_filterMap.1 h
  exact List.mem_filterMap.2 ⟨other, mem_subrules_of_part hpart hother, hb⟩

theorem sizeOf_lt_of_mem_parts {rule part : Rule} (h : part ∈ rule.parts) :
    sizeOf part < sizeOf rule := by
  cases rule with
  | literal text => exact absurd h List.not_mem_nil
  | length n => exact absurd h List.not_mem_nil
  | regex r => exact absurd h List.not_mem_nil
  | lazy name => exact absurd h List.not_mem_nil
  | sequence rules | and rules | or longest rules =>
      have hlt := List.sizeOf_lt_of_mem (show part ∈ rules from h)
      simp only [sequence.sizeOf_spec, and.sizeOf_spec, or.sizeOf_spec]
      omega
  | refined rule check | not rule | optional rule | repeating rule atLeastOne | set name rule
  | setAndUse name rule | completed rule =>
      obtain rfl := List.mem_singleton.1 h
      simp only [refined.sizeOf_spec, not.sizeOf_spec, optional.sizeOf_spec,
        repeating.sizeOf_spec, set.sizeOf_spec, setAndUse.sizeOf_spec, completed.sizeOf_spec]
      omega
  | nonGreedy rule stop atLeastOne =>
      have hpart : part = rule ∨ part = stop := by simpa [parts] using h
      rw [nonGreedy.sizeOf_spec]
      rcases hpart with rfl | rfl <;> omega

@[elab_as_elim]
theorem inductionOnParts {motive : Rule → Prop}
    (step : ∀ rule, (∀ part ∈ rule.parts, motive part) → motive rule) (rule : Rule) :
    motive rule :=
  step rule fun part _ => inductionOnParts step part
termination_by sizeOf rule
decreasing_by exact sizeOf_lt_of_mem_parts ‹_›

theorem mem_subrules_of_mem_parts {rule other part : Rule} (h : other ∈ rule.subrules)
    (hpart : part ∈ other.parts) : part ∈ rule.subrules := by
  induction rule using inductionOnParts with
  | step rule ih =>
      rcases mem_subrules_iff.1 h with rfl | ⟨inside, hinside, hother⟩
      · exact mem_subrules_of_part hpart part.mem_subrules_self
      · exact mem_subrules_of_part hinside (ih inside hinside hother)

def uses? : Rule → Option String
  | .set name _ | .setAndUse name _ | .lazy name => some name
  | _ => none

def binding? : Rule → Option (String × Rule)
  | .set name rule | .setAndUse name rule => some (name, rule)
  | _ => none

def names (rule : Rule) : List String := rule.subrules.filterMap uses?

theorem mem_names_of_uses? {rule : Rule} {name : String} (h : rule.uses? = some name) :
    name ∈ rule.names :=
  List.mem_filterMap.2 ⟨rule, rule.mem_subrules_self, h⟩

theorem mem_names_of_part {rule part : Rule} (hpart : part ∈ rule.parts) {name : String}
    (h : name ∈ part.names) : name ∈ rule.names := mem_filterMap_subrules_of_part hpart h

theorem binding?_eq_some {rule bound : Rule} {name : String}
    (h : rule.binding? = some (name, bound)) : rule.uses? = some name ∧ bound ∈ rule.parts := by
  cases rule <;> simp_all [binding?, uses?, parts]

def isRefined : Rule → Bool
  | .refined _ _ => true
  | _ => false

/-- No rule in it has a check of its own. -/
def Unrefined (rule : Rule) : Prop := ∀ other ∈ rule.subrules, other.isRefined = false

instance (rule : Rule) : Decidable rule.Unrefined :=
  inferInstanceAs (Decidable (∀ other ∈ rule.subrules, other.isRefined = false))

theorem Unrefined.isRefined_eq_false {rule : Rule} (h : rule.Unrefined) : rule.isRefined = false :=
  h rule rule.mem_subrules_self

theorem Unrefined.part {rule part : Rule} (h : rule.Unrefined) (hpart : part ∈ rule.parts) :
    part.Unrefined := fun other hother => h other (mem_subrules_of_part hpart hother)

end TextGrammar.Rule
