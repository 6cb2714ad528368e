import TextGrammar.Action.Tokenize
import TextGrammar.Proofs.Rule.Choice

/-!
# First and furthest alternatives

A choice of the first alternative that matches and one of the alternative that matches most accept
the same texts, be it of rules or of actions.  They fail alike; where they match, the second goes at
least as far as the first, and emits what the alternative emits that it takes.
-/

namespace TextGrammar

open Matcher (AcceptAlike Presents choices_acceptAlike)

namespace Action

def Gives (input : List Char) (action : Action) (pos : Nat) (c : TokenizingContext)
    (r : List Element × Verdict) (c' : TokenizingContext) : Prop :=
  ∃ fuel, action.tokenizeAt fuel input pos c = some (r.1, r.2, c')

def present (a : Attempt Element) : List Element × Verdict := (a.emitted, a.verdict)

variable {input : List Char} {action : Action}

private theorem gives_eq_eval (input : List Char) (action : Action) :
    Gives input action = Matcher.Shows present fun fuel => eval input fuel action := by
  funext pos c r c'
  simp only [Gives, Matcher.Shows, tokenizeAt, present, Option.map_eq_some_iff, Prod.exists,
    Prod.mk.injEq, eq_iff_iff]
  constructor
  · rintro ⟨fuel, a, _, ha, helements, hv, rfl⟩
    exact ⟨fuel, a, ha, Prod.ext helements hv⟩
  · rintro ⟨fuel, a, ha, rfl⟩
    exact ⟨fuel, a, c', ha, rfl, rfl, rfl⟩

private theorem or_gives_eq (input : List Char) (longest : Bool) (actions : List Action) :
    Gives input (.or longest actions) =
      Matcher.Shows present fun fuel => .choice longest (actions.map (eval input fuel)) := by
  rw [gives_eq_eval]
  funext pos c r c'
  rw [eq_iff_iff]
  constructor
  · rintro ⟨fuel, a, ha, hr⟩
    cases fuel with
    | zero => simp [eval] at ha
    | succ fuel => exact ⟨fuel, a, by simpa [eval] using ha, hr⟩
  · rintro ⟨fuel, a, ha, hr⟩
    exact ⟨fuel + 1, a, by simpa [eval] using ha, hr⟩

private theorem presents_present (start : Nat) :
    Presents present Prod.snd start
      fun rs => ([], .syntaxError "No alternative matched" start (rs.map Prod.snd)) where
  verdict_eq _ := rfl
  failure_eq bs := by
    rw [List.map_map]
    rfl
  failure_fails _ := rfl

private theorem eval_steady (input : List Char) (action : Action) (pos : Nat)
    (c : TokenizingContext) : Steady fun fuel => eval input fuel action pos c :=
  fun _ _ hle => eval_extends input hle action pos c

private theorem or_acceptAlike (input : List Char) (actions : List Action) (start : Nat)
    (c : TokenizingContext) :
    AcceptAlike Prod.snd (fun action => Gives input action start)
      (Gives input (.or false actions) start c) (Gives input (.or true actions) start c)
      actions c := by
  rw [or_gives_eq, or_gives_eq]
  simp only [gives_eq_eval]
  exact choices_acceptAlike (eval_steady input) (presents_present start) actions c

end Action

theorem choices_accept_alike :
    (∀ (input : List Char) (rules : List Rule) (start : Nat) (c : Context),
      AcceptAlike id (fun rule => Rule.Gives input rule start)
        (Rule.Gives input (.or false rules) start c) (Rule.Gives input (.or true rules) start c)
        rules c) ∧
    ∀ (input : List Char) (actions : List Action) (start : Nat) (c : TokenizingContext),
      AcceptAlike Prod.snd (fun action => Action.Gives input action start)
        (Action.Gives input (.or false actions) start c)
        (Action.Gives input (.or true actions) start c) actions c :=
  ⟨Rule.or_acceptAlike, Action.or_acceptAlike⟩

/-- The choice of the first leaves out an alternative behind its match that never comes to an end.
The choice of the furthest tries it. -/
theorem endless_alternative_parts_choices :
    let alternatives : List Rule := [.literal "a", .lazy "x"]
    let c := ({} : Context).bind "x" (.lazy "x")
    (∃ v, Rule.Gives ['a'] (.or false alternatives) 0 c v c ∧ v.isSuccessful = true) ∧
      ∀ v c', ¬Rule.Gives ['a'] (.or true alternatives) 0 c v c' := by
  intro alternatives c
  refine ⟨⟨.success 1, ⟨2, rfl⟩, rfl⟩, fun v c' h => ?_⟩
  obtain ⟨rs, hturn⟩ := (Rule.furthest_gives_iff.1 h).inTurn
  simp only [alternatives] at hturn
  cases hturn with
  | cons ha hrest =>
      obtain ⟨-, rfl⟩ := Rule.literal_gives_iff.1 ha
      cases hrest with
      | cons hx _ => exact Rule.not_lazy_gives rfl hx

end TextGrammar
