import TextGrammar.Fuel
import TextGrammar.Matcher.Fuel
import TextGrammar.Rule.Context
import TextGrammar.Text.Offset

/-!
# Evaluating rules

A rule is a matcher that emits nothing and threads a context.  Evaluation goes down the tree of the
rule, and through names to other rules; `fuel` bounds how deep it goes and how many rounds a
repetition makes.  More fuel never changes an answer.
-/

namespace TextGrammar

open Text

/-- The text between two offsets, or nothing when they do not bound a text. -/
def textBetween (input : List Char) (start stop : Nat) : List Char :=
  (slice? input start stop).getD []

namespace Rule

def literalVerdict (text : String) (input : List Char) (start : Nat) : Verdict :=
  match dropBytes? input start with
  | some rest =>
      if text.toList.isPrefixOf rest then .success (start + byteLength text.toList)
      else .parseError ("Expected " ++ quoted text.toList) start
  | none => .parseError ("Expected " ++ quoted text.toList) start

def lengthVerdict (n : Nat) (input : List Char) (start : Nat) : Verdict :=
  match dropBytes? input start with
  | some rest =>
      if n ≤ rest.length then .success (start + byteLength (rest.take n))
      else .parseError ("Expected " ++ toString n ++ " more characters") start
  | none => .parseError ("Expected " ++ toString n ++ " more characters") start

def regexVerdict (r : Regex) (input : List Char) (start : Nat) : Verdict :=
  match (dropBytes? input start).bind r.findEnd? with
  | some found => .success (start + byteLength found)
  | none => .parseError ("Expected a match of /" ++ String.ofList r.source ++ "/") start

def negation (input : List Char) (start : Nat) (v : Verdict) : Verdict :=
  if v.isSuccessful then
    .parseError ("Disallowed input " ++ quoted (textBetween input start v.stop)) start
  else .success start

def completion (input : List Char) (v : Verdict) : Verdict :=
  if !v.isSuccessful then .syntaxError "Input did not match" v.stop [v]
  else if v.stop ≠ byteLength input then
    .parseError ("Unexpected input " ++ quoted ((dropBytes? input v.stop).getD [])) v.stop
  else v

def refinement (check : List Char → Nat → Verdict) (input : List Char) (v : Verdict) : Verdict :=
  if v.isSuccessful then check input v.stop else v

abbrev Matching := Matcher Context Empty

def leaf (verdict : Nat → Verdict) : Matching := fun start c => some (⟨[], verdict start⟩, c)

def judged (m : Matching) (judge : Nat → Verdict → Verdict) : Matching := fun start c => do
  let (a, c) ← m start c
  some (⟨[], judge start a.verdict⟩, c)

def capture (input : List Char) (name : String) (start : Nat) (a : Attempt Empty) (c : Context) :
    Context :=
  c.record name (String.ofList (textBetween input start a.stop))

def holds (m : Matching) (pos : Nat) (c : Context) : Option (Bool × Context) :=
  (m pos c).map fun (a, c) => (a.isSuccessful, c)

def eval (input : List Char) : Nat → Rule → Matching
  | 0, _ => fun _ _ => none
  | _ + 1, .literal text => leaf (literalVerdict text input)
  | _ + 1, .length n => leaf (lengthVerdict n input)
  | _ + 1, .regex r => leaf (regexVerdict r input)
  | fuel + 1, .refined base check =>
      judged (eval input fuel base) fun _ v => refinement check input v
  | fuel + 1, .sequence rules => .sequence (rules.map (eval input fuel))
  | fuel + 1, .and rules => .conjunction (rules.map (eval input fuel))
  | fuel + 1, .or longest alternatives => .choice longest (alternatives.map (eval input fuel))
  | fuel + 1, .not rule => judged (eval input fuel rule) (negation input)
  | fuel + 1, .optional rule => .optional (eval input fuel rule)
  | fuel + 1, .repeating rule atLeastOne => .repeating fuel atLeastOne (eval input fuel rule)
  | fuel + 1, .nonGreedy rule stop atLeastOne =>
      .nonGreedy fuel atLeastOne (holds (eval input fuel stop)) (eval input fuel rule)
  | fuel + 1, .set name rule =>
      (eval input fuel rule).onSuccess fun start a c =>
        capture input name start a (c.bind name rule)
  | fuel + 1, .setAndUse name rule =>
      .before (·.bind name rule) ((eval input fuel rule).onSuccess (capture input name))
  | fuel + 1, .lazy name =>
      .resolved fun c => ((c.rule? name).map (eval input fuel)).mapError GrammarError.message
  | fuel + 1, .completed rule => judged (eval input fuel rule) fun _ v => completion input v

private theorem judged_extends {m n : Matching} (h : m.Extends n)
    (judge : Nat → Verdict → Verdict) : (judged m judge).Extends (judged n judge) := by
  intro pos c r hr
  simp only [judged, Option.bind_eq_bind, Option.bind_eq_some_iff] at hr ⊢
  obtain ⟨x, hx, hr⟩ := hr
  exact ⟨x, h pos c x hx, hr⟩

theorem holds_extends {m n : Matching} (h : m.Extends n) :
    ∀ pos c r, holds m pos c = some r → holds n pos c = some r := by
  intro pos c r hr
  simp only [holds, Option.map_eq_some_iff] at hr ⊢
  obtain ⟨x, hx, hr⟩ := hr
  exact ⟨x, h pos c x hx, hr⟩

theorem eval_extends (input : List Char) {fuel fuel' : Nat} (hf : fuel ≤ fuel') :
    ∀ rule : Rule, (eval input fuel rule).Extends (eval input fuel' rule) := by
  induction fuel generalizing fuel' with
  | zero => intro rule pos c r hr; simp [eval] at hr
  | succ fuel ih =>
      obtain ⟨more, rfl⟩ : ∃ more, fuel' = more + 1 := ⟨fuel' - 1, by omega⟩
      have hle : fuel ≤ more := by omega
      intro rule
      cases rule with
      | literal text => exact .refl _
      | length n => exact .refl _
      | regex r => exact .refl _
      | refined base check => exact judged_extends (ih hle base) _
      | sequence rules => exact Matcher.sequence_extends (ih hle) rules
      | and rules => exact Matcher.conjunction_extends (ih hle) rules
      | or longest alternatives => exact Matcher.choice_extends (ih hle) longest alternatives
      | not rule => exact judged_extends (ih hle rule) _
      | optional rule => exact Matcher.optional_extends (ih hle rule)
      | repeating rule atLeastOne => exact Matcher.repeating_extends (ih hle rule) hle atLeastOne
      | nonGreedy rule stop atLeastOne =>
          exact Matcher.nonGreedy_extends (ih hle rule) (holds_extends (ih hle stop)) hle atLeastOne
      | set name rule => exact Matcher.onSuccess_extends (ih hle rule) _
      | setAndUse name rule =>
          exact Matcher.before_extends (Matcher.onSuccess_extends (ih hle rule) _) _
      | lazy name =>
          refine Matcher.resolved_extends fun c => ?_
          cases hrule : c.rule? name with
          | error e => exact .inl ⟨e.message, rfl, rfl⟩
          | ok rule => exact .inr ⟨_, _, rfl, rfl, ih hle rule⟩
      | completed rule => exact judged_extends (ih hle rule) _

theorem eval_steady (input : List Char) (rule : Rule) (pos : Nat) (c : Context) :
    Steady fun fuel => eval input fuel rule pos c :=
  fun _ _ hle => eval_extends input hle rule pos c

def matchAt (fuel : Nat) (rule : Rule) (input : List Char) (start : Nat) (c : Context) :
    Option (Verdict × Context) :=
  (rule.eval input fuel start c).map fun (a, c) => (a.verdict, c)

theorem matchAt_steady (rule : Rule) (input : List Char) (start : Nat) (c : Context) :
    Steady fun fuel => matchAt fuel rule input start c :=
  (eval_steady input rule start c).map _

def matchText (fuel : Nat) (rule : Rule) (input : List Char) : Option Verdict :=
  (rule.matchAt fuel input 0 {}).map Prod.fst

end Rule

end TextGrammar
