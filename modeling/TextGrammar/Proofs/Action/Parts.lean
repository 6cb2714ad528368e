import TextGrammar.Action
import TextGrammar.Proofs.Rule.Parts

/-!
# The parts of an action

What an action is put together from, at any depth, and the names that are used in it: those of
actions apart from those of the rules embedded in them.
-/

namespace TextGrammar.Action

def parts : Action → List Action
  | .literal _ | .lazy _ => []
  | .sequence actions | .or _ actions => actions
  | .wrap _ action | .consume action | .optional action | .repeating action _
  | .nonGreedy action _ _ | .set _ action | .setAndUse _ action => [action]

def rules : Action → List Rule
  | .literal rule => [rule]
  | .nonGreedy _ stop _ => [stop]
  | _ => []

mutual

def inner : Action → List Action
  | .literal _ | .lazy _ => []
  | .sequence actions | .or _ actions => innerAll actions
  | .wrap _ action | .consume action | .optional action | .repeating action _
  | .nonGreedy action _ _ | .set _ action | .setAndUse _ action => action :: inner action

def innerAll : List Action → List Action
  | [] => []
  | action :: actions => action :: inner action ++ innerAll actions

end

def subactions (action : Action) : List Action := action :: action.inner

private theorem innerAll_eq (actions : List Action) :
    innerAll actions = actions.flatMap subactions := by
  induction actions with
  | nil => simp [innerAll]
  | cons action actions ih => simp [innerAll, subactions, ih]

private theorem inner_eq (action : Action) : action.inner = action.parts.flatMap subactions := by
  cases action <;> simp [inner, parts, innerAll_eq, subactions]

theorem mem_subactions_iff {action other : Action} : other ∈ action.subactions ↔
    other = action ∨ ∃ part ∈ action.parts, other ∈ part.subactions := by
  rw [subactions, List.mem_cons, inner_eq, List.mem_flatMap]

theorem mem_subactions_self (action : Action) : action ∈ action.subactions := List.mem_cons_self

theorem sizeOf_pos (action : Action) : 0 < sizeOf action := by
  cases action <;> simp only [literal.sizeOf_spec, wrap.sizeOf_spec, consume.sizeOf_spec,
    sequence.sizeOf_spec, or.sizeOf_spec, optional.sizeOf_spec, repeating.sizeOf_spec,
    nonGreedy.sizeOf_spec, set.sizeOf_spec, setAndUse.sizeOf_spec, lazy.sizeOf_spec] <;> omega

theorem sizeOf_lt_of_mem_parts {action part : Action} (h : part ∈ action.parts) :
    sizeOf part < sizeOf action := by
  cases action with
  | literal rule => exact absurd h List.not_mem_nil
  | lazy name => exact absurd h List.not_mem_nil
  | sequence actions | or longest actions =>
      have hlt := List.sizeOf_lt_of_mem (show part ∈ actions from h)
      simp only [sequence.sizeOf_spec, or.sizeOf_spec]
      omega
  | wrap name action | consume action | optional action | repeating action atLeastOne
  | nonGreedy action stop atLeastOne | set name action | setAndUse name action =>
      obtain rfl := List.mem_singleton.1 h
      simp only [wrap.sizeOf_spec, consume.sizeOf_spec, optional.sizeOf_spec,
        repeating.sizeOf_spec, nonGreedy.sizeOf_spec, set.sizeOf_spec, setAndUse.sizeOf_spec]
      omega

theorem sizeOf_le_of_mem_subactions {action other : Action} (h : other ∈ action.subactions) :
    sizeOf other ≤ sizeOf action := by
  rcases mem_subactions_iff.1 h with rfl | ⟨part, hpart, hother⟩
  · exact Nat.le_refl _
  · have hlt := sizeOf_lt_of_mem_parts hpart
    have hle := sizeOf_le_of_mem_subactions hother
    omega
termination_by sizeOf action
decreasing_by exact sizeOf_lt_of_mem_parts hpart

theorem mem_subactions_of_part {action other part : Action} (h : other ∈ action.subactions)
    (hpart : part ∈ other.parts) : part ∈ action.subactions := by
  rcases mem_subactions_iff.1 h with rfl | ⟨inside, hinside, hother⟩
  · exact mem_subactions_iff.2 (.inr ⟨part, hpart, part.mem_subactions_self⟩)
  · exact mem_subactions_iff.2 (.inr ⟨inside, hinside, mem_subactions_of_part hother hpart⟩)
termination_by sizeOf action
decreasing_by exact sizeOf_lt_of_mem_parts hinside

def uses? : Action → Option String
  | .set name _ | .setAndUse name _ | .lazy name => some name
  | _ => none

def binding? : Action → Option (String × Action)
  | .set name action | .setAndUse name action => some (name, action)
  | _ => none

theorem mem_parts_of_binding? {action bound : Action} {name : String}
    (h : action.binding? = some (name, bound)) : bound ∈ action.parts := by
  cases action <;> simp_all [binding?, parts]

def names (action : Action) : List String := action.subactions.filterMap uses?

def ruleNames (action : Action) : List String :=
  (action.subactions.flatMap rules).flatMap Rule.names

theorem mem_names {action other : Action} (h : other ∈ action.subactions) {name : String}
    (hname : other.uses? = some name) : name ∈ action.names :=
  List.mem_filterMap.2 ⟨other, h, hname⟩

theorem mem_ruleNames {action other : Action} (h : other ∈ action.subactions) {rule : Rule}
    (hrule : rule ∈ other.rules) {name : String} (hname : name ∈ rule.names) :
    name ∈ action.ruleNames :=
  List.mem_flatMap.2 ⟨rule, List.mem_flatMap.2 ⟨other, h, hrule⟩, hname⟩

/-- No rule embedded in it has a check of its own. -/
def Unrefined (action : Action) : Prop :=
  ∀ other ∈ action.subactions, ∀ rule ∈ other.rules, rule.Unrefined

instance (action : Action) : Decidable action.Unrefined :=
  inferInstanceAs (Decidable (∀ other ∈ action.subactions, ∀ rule ∈ other.rules, rule.Unrefined))

theorem Unrefined.rule {action : Action} {rule : Rule} (h : action.Unrefined)
    (hrule : rule ∈ action.rules) : rule.Unrefined := h action action.mem_subactions_self rule hrule

theorem Unrefined.part {action part : Action} (h : action.Unrefined)
    (hpart : part ∈ action.parts) : part.Unrefined := fun other hother =>
  h other (mem_subactions_iff.2 (.inr ⟨part, hpart, hother⟩))

end TextGrammar.Action
