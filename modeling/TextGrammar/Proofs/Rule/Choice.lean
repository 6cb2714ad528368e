import TextGrammar.Proofs.Matcher.Choice
import TextGrammar.Proofs.Rule.Stepwise

/-!
# Rules side by side

Several rules are tried at one offset, each in the context that the one before it left: the
alternatives of a choice, and the rules of which all have to match.
-/

namespace TextGrammar.Rule

open Matcher (AcceptAlike FurthestOf FirstOf InTurn Presents agreement choices_acceptAlike
  conjunction_gives_iff first_shows_iff furthest_shows_iff)

variable {input : List Char} {rules : List Rule} {start : Nat} {c c' : Context} {v : Verdict}

private theorem or_gives_eq (input : List Char) (longest : Bool) (rules : List Rule) :
    Gives input (.or longest rules) =
      Matcher.Gives fun fuel => .choice longest (rules.map (eval input fuel)) :=
  gives_eq_of_eval_succ fun fuel => by rw [eval]

private theorem presents_verdict (start : Nat) :
    Presents (Attempt.verdict : Attempt Empty → Verdict) id start
      (.syntaxError "No alternative matched" start) where
  verdict_eq _ := rfl
  failure_eq _ := rfl
  failure_fails _ := rfl

theorem furthest_gives_iff :
    Gives input (.or true rules) start c v c' ↔
      FurthestOf id (fun rule => Gives input rule start)
        (.syntaxError "No alternative matched" start) rules c v c' := by
  rw [or_gives_eq]
  simp only [gives_eq_eval]
  exact furthest_shows_iff (presents_verdict start) (eval_steady input)

theorem first_gives_iff :
    Gives input (.or false rules) start c v c' ↔
      FirstOf id (fun rule => Gives input rule start)
        (.syntaxError "No alternative matched" start) rules c v c' := by
  rw [or_gives_eq]
  simp only [gives_eq_eval]
  exact first_shows_iff (presents_verdict start) (eval_steady input)

theorem not_or_gives {rule : Rule} (h : ∀ w d, ¬Gives input rule start c w d) :
    ¬Gives input (.or false (rule :: rules)) start c v c' := by
  intro hgives
  cases first_gives_iff.1 hgives with
  | @matched front _ _ _ _ _ _ has hfront _ ha _ =>
      cases front with
      | nil =>
          obtain ⟨rfl, -⟩ := List.cons.inj has
          cases hfront
          exact h _ _ ha
      | cons b front =>
          obtain ⟨rfl, -⟩ := List.cons.inj has
          cases hfront with
          | cons hb _ => exact h _ _ hb
  | failed hturn _ =>
      cases hturn with
      | cons hb _ => exact h _ _ hb

theorem or_acceptAlike (input : List Char) (rules : List Rule) (start : Nat) (c : Context) :
    AcceptAlike id (fun rule => Gives input rule start) (Gives input (.or false rules) start c)
      (Gives input (.or true rules) start c) rules c := by
  rw [or_gives_eq, or_gives_eq]
  simp only [gives_eq_eval]
  exact choices_acceptAlike (eval_steady input) (presents_verdict start) rules c

theorem and_gives_iff :
    Gives input (.and rules) start c v c' ↔
      ∃ vs, InTurn (fun rule => Gives input rule start) rules c vs c' ∧ v = agreement start vs := by
  rw [gives_eq_of_eval_succ fun fuel => by rw [eval]]
  simp only [gives_eq_eval]
  exact conjunction_gives_iff (eval_steady input)

end TextGrammar.Rule
