import TextGrammar.Action
import TextGrammar.Rule.Pattern
import TextGrammar.Shape

/-!
# Shapes of grammars

The shapes of rules and actions.  The check of a refined rule is not shown, and a pattern is shown
with the anchor that it is compiled behind.
-/

namespace TextGrammar

open Shape (tuple record text truth number)

def Regex.shape (r : Regex) : Shape :=
  tuple "Regex" [text (String.ofList r.source)]

namespace Rule

mutual

def shape : Rule → Shape
  | .literal s => tuple "Literal" [text s]
  | .length n => tuple "Length" [number n]
  | .regex r => tuple "Regex" [r.shape]
  | .refined base _ => record "Predicate" [.labelled "base" base.shape]
  | .sequence rules => tuple "Sequence" [.list (shapes rules)]
  | .and rules => tuple "And" [.list (shapes rules)]
  | .or longest alternatives =>
      record "Or" [.labelled "longest" (truth longest),
        .labelled "alternatives" (.list (shapes alternatives))]
  | .not rule => tuple "Not" [rule.shape]
  | .optional rule => tuple "Optional" [rule.shape]
  | .repeating rule atLeastOne =>
      record "Repeating" [.labelled "rule" rule.shape,
        .labelled "at_least_one" (truth atLeastOne)]
  | .nonGreedy rule stop atLeastOne =>
      record "NonGreedy" [.labelled "rule" rule.shape, .labelled "stop" stop.shape,
        .labelled "at_least_one" (truth atLeastOne)]
  | .set name rule => tuple "Set" [text name, rule.shape]
  | .setAndUse name rule => tuple "SetAndUse" [text name, rule.shape]
  | .lazy name => tuple "Lazy" [text name]
  | .completed rule => tuple "Completed" [rule.shape]

def shapes : List Rule → List Shape
  | [] => []
  | rule :: rules => rule.shape :: shapes rules

end

theorem shape_of_pattern {engine : Regex.Engine} {meaning : List Char → Regex.Meaning}
    (h : engine.Lawful meaning) {pattern : String} {rule : Rule}
    (hrule : regex? pattern engine = .ok rule) :
    rule.shape =
      tuple "Regex" [tuple "Regex" [text (String.ofList (Regex.anchored pattern.toList))]] := by
  obtain ⟨r, hr, rfl⟩ := regex?_eq_ok_iff.1 hrule
  rw [shape, Regex.shape, h.source_eq hr]

end Rule

namespace Action

mutual

def shape (action : Action) : Shape :=
  tuple "Action"
    [match action with
      | .literal rule => tuple "Literal" [rule.shape]
      | .wrap name action => tuple "Wrap" [text name.text, action.shape]
      | .consume action => tuple "Consume" [action.shape]
      | .sequence actions => tuple "Sequence" [.list (shapes actions)]
      | .or longest alternatives =>
          record "Or" [.labelled "longest" (truth longest),
            .labelled "alternatives" (.list (shapes alternatives))]
      | .optional action => tuple "Optional" [action.shape]
      | .repeating action atLeastOne =>
          record "Repeating" [.labelled "action" action.shape,
            .labelled "at_least_one" (truth atLeastOne)]
      | .nonGreedy action stop atLeastOne =>
          record "NonGreedy" [.labelled "action" action.shape, .labelled "stop" stop.shape,
            .labelled "at_least_one" (truth atLeastOne)]
      | .set name action => tuple "Set" [text name, action.shape]
      | .setAndUse name action => tuple "SetAndUse" [text name, action.shape]
      | .lazy name => tuple "Lazy" [text name]]

def shapes : List Action → List Shape
  | [] => []
  | action :: actions => action.shape :: shapes actions

end

end Action

end TextGrammar
