import TextGrammar.Proofs.Regex.Anchor
import TextGrammar.Proofs.Rule.Stepwise
import TextGrammar.Rule.Pattern

/-!
# Patterns as rules

A regular expression is tried on the text from an offset on, and its pattern is to match there and
not further behind.  Whatever engine compiles it, it does if the pattern is one by itself.  That the
anchored text is a pattern does not say so: a text that is none may close the group that was opened
for it, and a pattern may hide the end of the group.
-/

namespace TextGrammar.Rule

open Regex (Engine Meaning anchored)
open Text

variable {input : List Char} {start : Nat} {c c' : Context} {v : Verdict} {engine : Engine}

private theorem regex_gives_iff {r : Regex} :
    Gives input (.regex r) start c v c' ↔ v = regexVerdict r input start ∧ c' = c :=
  leaf_gives_iff fun _ => by rw [eval]

/-- The verdict on the text from an offset on, where a pattern matches as `meaning` says. -/
structure MatchesFrom (pattern : List Char) (meaning : Meaning) (input : List Char) (start : Nat)
    (v : Verdict) : Prop where
  success_iff : v.isSuccessful = true ↔
    ∃ text taken, dropBytes? input start = some text ∧ meaning [] text = some taken
  success_eq : ∀ text taken, dropBytes? input start = some text → meaning [] text = some taken →
    v = .success (start + byteLength taken)
  failure_eq : v.isSuccessful = false →
    v = .parseError ("Expected a match of /" ++ String.ofList (anchored pattern) ++ "/") start

private theorem regexVerdict_matchesFrom {r : Regex} {pattern : List Char} {meaning : Meaning}
    (hsource : r.source = anchored pattern) (hfind : ∀ text, r.findEnd? text = meaning [] text)
    (input : List Char) (start : Nat) :
    MatchesFrom pattern meaning input start (regexVerdict r input start) := by
  unfold regexVerdict
  rw [hsource]
  cases hfound : (dropBytes? input start).bind r.findEnd? with
  | none =>
      have hnot {text taken : List Char} (htext : dropBytes? input start = some text)
          (htaken : meaning [] text = some taken) : False := by
        rw [htext, Option.bind_some, hfind] at hfound
        exact absurd (hfound.symm.trans htaken) nofun
      refine ⟨iff_of_false Bool.false_ne_true ?_, fun _ _ htext htaken => (hnot htext htaken).elim,
        fun _ => rfl⟩
      rintro ⟨text, taken, htext, htaken⟩
      exact hnot htext htaken
  | some found =>
      obtain ⟨text, htext, hfound⟩ := Option.bind_eq_some_iff.1 hfound
      rw [hfind] at hfound
      refine ⟨iff_of_true rfl ⟨text, found, htext, hfound⟩, fun text' taken htext' htaken => ?_,
        fun hfail => absurd hfail nofun⟩
      obtain rfl := Option.some.inj (htext.symm.trans htext')
      obtain rfl := Option.some.inj (hfound.symm.trans htaken)
      rfl

/-- A rule is made of a pattern when the anchored text can be compiled.  If the pattern is one by
itself, the rule matches where a match of the pattern begins, up to the end of the preferred one. -/
theorem regex_matches_at_start {meaning : List Char → Meaning} (h : engine.Lawful meaning)
    (pattern : String) :
    ((∃ rule, regex? pattern engine = .ok rule) ↔ engine.Accepts (anchored pattern.toList)) ∧
    (¬engine.Accepts (anchored pattern.toList) →
      regex? pattern engine = .error (.invalidRegex pattern)) ∧
    ∀ rule, regex? pattern engine = .ok rule → engine.Accepts pattern.toList →
      ∀ (input : List Char) (start : Nat) (c : Context), ∃ v,
        (∀ w d, Gives input rule start c w d ↔ w = v ∧ d = c) ∧
          MatchesFrom pattern.toList (meaning pattern.toList) input start v := by
  refine ⟨?_, regex?_eq_error, fun rule hrule hpattern input start c => ?_⟩
  · simp only [regex?_eq_ok_iff, Engine.Accepts]
    constructor
    · rintro ⟨rule, r, hr, -⟩
      exact ⟨r, hr⟩
    · rintro ⟨r, hr⟩
      exact ⟨_, r, hr, rfl⟩
  · obtain ⟨r, hr, rfl⟩ := regex?_eq_ok_iff.1 hrule
    exact ⟨_, fun w d => regex_gives_iff, regexVerdict_matchesFrom (h.source_eq hr)
      (h.findEnd?_anchored hpattern hr) input start⟩

/-- Neither alternative looks for its match further behind. -/
theorem regex_matches_at_start_alternatives :
    Engine.threads.Lawful Engine.threadsMeaning ∧ Engine.threads.Accepts "x|[0-9]".toList ∧
      ∃ rule v w, regex? "x|[0-9]" = .ok rule ∧
        Gives ['a', '1'] rule 0 {} v {} ∧ v.isSuccessful = false ∧
        MatchesFrom "x|[0-9]".toList (Engine.threadsMeaning "x|[0-9]".toList) ['a', '1'] 0 v ∧
        Gives ['a', '1'] rule 1 {} w {} ∧ w = .success 2 ∧
        MatchesFrom "x|[0-9]".toList (Engine.threadsMeaning "x|[0-9]".toList) ['a', '1'] 1 w := by
  have hpattern : Engine.threads.Accepts "x|[0-9]".toList := ⟨_, rfl⟩
  obtain ⟨rule, hrule, hmatches, u, hfails, hfail⟩ : ∃ rule, regex? "x|[0-9]" = .ok rule ∧
      Gives ['a', '1'] rule 1 {} (.success 2) {} ∧
      ∃ u, Gives ['a', '1'] rule 0 {} u {} ∧ u.isSuccessful = false :=
    ⟨_, rfl, ⟨1, rfl⟩, _, ⟨1, rfl⟩, rfl⟩
  obtain ⟨-, -, hlaw⟩ := regex_matches_at_start Engine.threads_lawful "x|[0-9]"
  obtain ⟨v, hv, hfrom⟩ := hlaw rule hrule hpattern ['a', '1'] 0 {}
  obtain ⟨w, hw, hfrom'⟩ := hlaw rule hrule hpattern ['a', '1'] 1 {}
  obtain ⟨rfl, -⟩ := (hv u {}).1 hfails
  obtain ⟨rfl, -⟩ := (hw _ {}).1 hmatches
  exact ⟨Engine.threads_lawful, hpattern, rule, u, _, hrule, hfails, hfail, hfrom, hmatches, rfl,
    hfrom'⟩

/-- A text that is no pattern becomes one in the group that it closes, and then it matches further
behind; a pattern that ends in a comment hides the end of the group. -/
theorem patterns_reach_beyond_group :
    ¬Engine.threads.Accepts "a)|(?:b".toList ∧
    (∃ rule, regex? "a)|(?:b" = .ok rule ∧ Gives ['x', 'b'] rule 0 {} (.success 2) {}) ∧
    Engine.threads.Accepts "(?x)a#c".toList ∧
    regex? "(?x)a#c" = .error (.invalidRegex "(?x)a#c") :=
  ⟨nofun, ⟨_, rfl, ⟨1, rfl⟩⟩, ⟨_, rfl⟩, rfl⟩

end TextGrammar.Rule
