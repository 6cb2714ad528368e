import Mathlib.Combinatorics.Enumerative.DyckWord
import TextGrammar.Proofs.Rule.Order

/-!
# Groups in brackets

A group is a pair of parentheses around groups.  A rule that looks itself up by name recognises
them: it repeats itself between its parentheses, and the repetition goes on as long as another group
is there.  What stands between the parentheses is then a balanced text, and no longer one could
stand there, since a group is over when its first parenthesis is closed.
-/

namespace TextGrammar

open DyckStep

def parenthesis : DyckStep → Char
  | U => '('
  | D => ')'

def written (word : DyckWord) : List Char := word.toList.map parenthesis

/-- All parentheses that are opened are closed, and none before it is opened. -/
def IsBalanced (text : List Char) : Prop := ∃ word, written word = text

def IsGroup (text : List Char) : Prop := ∃ inside, IsBalanced inside ∧ text = '(' :: inside ++ [')']

@[simp] theorem written_zero : written 0 = [] := rfl

@[simp] theorem written_add (first second : DyckWord) :
    written (first + second) = written first ++ written second := List.map_append

@[simp] theorem written_nest (word : DyckWord) :
    written word.nest = '(' :: (written word ++ [')']) := by
  simp [written, DyckWord.nest, parenthesis]

private theorem isGroup_iff {text : List Char} : IsGroup text ↔ ∃ word :
    DyckWord, written word.nest = text := by
  simp [IsGroup, IsBalanced, eq_comm]

@[elab_as_elim]
private theorem dyckInduction {motive : DyckWord → Prop} (zero : motive 0)
    (group : ∀ inside behind, motive inside → motive behind → motive (inside.nest + behind))
    (word : DyckWord) : motive word := by
  by_cases hword : word = 0
  · exact hword ▸ zero
  · rw [← DyckWord.nest_insidePart_add_outsidePart hword]
    exact group _ _ (dyckInduction zero group _) (dyckInduction zero group _)
termination_by word.semilength
decreasing_by
  · exact DyckWord.semilength_insidePart_lt hword
  · exact DyckWord.semilength_outsidePart_lt hword

namespace Rule

open Matcher (Strides)
open Text

def parenthesized (name : String) : Rule :=
  .sequence [.literal "(", .repeating (.lazy name) false, .literal ")"]

def group (name : String) : Rule := .setAndUse name (parenthesized name)

private theorem group_wellGuarded (name : String) : (group name).WellGuarded := by
  have hguarded : (parenthesized name).Guarded := by
    simp [parenthesized, Guarded, lookups, lookupsBehind, isGuard]
  constructor
  · simp [group, parenthesized, Unrefined, subrules, inner, innerAll, isRefined]
  · simpa [group, Guarded, lookups] using hguarded
  · simpa [group, parenthesized, BindsGuarded, subrules, inner, innerAll, binding?] using hguarded

section Recursion

variable {input : List Char} {name : String} {c c' d : Context} {v : Verdict}

def Matches (input : List Char) (rule : Rule) (pos : Nat) (c : Context) (stop : Nat)
    (c' : Context) : Prop :=
  ∃ v, Gives input rule pos c v c' ∧ v.isSuccessful = true ∧ v.stop = stop

private theorem matches_sequence_nil {pos : Nat} : Matches input (.sequence []) pos c pos c := by
  refine ⟨.success pos, ?_, rfl, rfl⟩
  rw [sequence_gives_eq]
  exact Matcher.sequence_nil_gives_iff.2 ⟨rfl, rfl⟩

theorem Matches.sequence {rule : Rule} {rules : List Rule} {pos middle stop : Nat}
    (h : Matches input rule pos c middle d)
    (hrest : Matches input (.sequence rules) middle d stop c') :
    Matches input (.sequence (rule :: rules)) pos c stop c' := by
  obtain ⟨u, hu, hok, rfl⟩ := h
  obtain ⟨w, hw, hok', rfl⟩ := hrest
  exact ⟨_, sequence_cons_gives_iff.2 ⟨u, d, hu, .inr ⟨hok, w, hw, rfl⟩⟩, hok', rfl⟩

private theorem matches_literal {text : String} {front behind : List Char}
    (hinput : input = front ++ (text.toList ++ behind)) :
    Matches input (.literal text) (byteLength front) c (byteLength (front ++ text.toList)) c := by
  have hstands : StandsAt input (byteLength front) text :=
    hinput ▸ standsAt_append_iff.2 ⟨behind, rfl⟩
  refine ⟨_, literal_gives_iff.2 ⟨(literalVerdict_of_standsAt hstands).symm, rfl⟩, rfl, ?_⟩
  exact (byteLength_append _ _).symm

theorem Gives.of_literal {text : String} {front rest : List Char} (hinput : input = front ++ rest)
    (h : Gives input (.literal text) (byteLength front) c v c') :
    c' = c ∧ (v.isSuccessful = true →
      ∃ behind, rest = text.toList ++ behind ∧ v.stop = byteLength (front ++ text.toList)) := by
  obtain ⟨rfl, rfl⟩ := literal_gives_iff.1 h
  refine ⟨rfl, fun hok => ?_⟩
  have hstands := standsAt_of_isSuccessful hok
  obtain ⟨behind, rfl⟩ := standsAt_append_iff.1 (hinput ▸ hstands)
  rw [literalVerdict_of_standsAt hstands]
  exact ⟨behind, rfl, (byteLength_append _ _).symm⟩

private theorem matches_repeating {rule : Rule} {pos stop : Nat} {vs : List Verdict}
    (h : Strides (Gives input rule) pos c vs stop d) (hlast : Gives input rule stop d v c')
    (hfail : v.isSuccessful = false) : Matches input (.repeating rule false) pos c stop c' := by
  have hstay : v.isSuccessful = true → v.stop = stop :=
    fun hok => absurd (hfail.symm.trans hok) (by decide)
  exact ⟨_, repeating_gives_iff.2 ⟨vs, stop, d, v, h, hlast, hstay, rfl⟩,
    Matcher.repeated_isSuccessful .., Matcher.repeated_stop ..⟩

/-! ## What the rule gives -/

private theorem parenthesized_fails {front rest : List Char} (hinput : input = front ++ rest)
    (hrest : rest.head? ≠ some '(') :
    ∃ v, Gives input (parenthesized name) (byteLength front) c v c ∧ v.isSuccessful = false := by
  have hliteral : Gives input (.literal "(") (byteLength front) c _ c :=
    literal_gives_iff.2 ⟨rfl, rfl⟩
  have hfail : (literalVerdict "(" input (byteLength front)).isSuccessful = false := by
    rw [← Bool.not_eq_true]
    intro hok
    obtain ⟨behind, rfl, -⟩ := (hliteral.of_literal hinput).2 hok
    exact hrest rfl
  exact ⟨_, sequence_cons_gives_iff.2 ⟨_, c, hliteral, .inl ⟨hfail, rfl, rfl⟩⟩, rfl⟩

/-- What has been tried when a parenthesis was opened: groups one behind another, an attempt that
ends them, and the parenthesis that closes. -/
theorem Gives.of_parenthesized {front rest : List Char} (hinput : input = front ++ rest)
    (h : Gives input (parenthesized name) (byteLength front) c v c') :
    v.isSuccessful = false ∧ c' = c ∨
      ∃ inside vs stop d w e, rest = '(' :: inside ∧
        Strides (Gives input (.lazy name)) (byteLength (front ++ ['('])) c vs stop d ∧
        Gives input (.lazy name) stop d w e ∧
        ∃ u, Gives input (.literal ")") stop e u c' ∧
          (v.isSuccessful = true → u.isSuccessful = true ∧ u.stop = v.stop) := by
  obtain ⟨u, _, hu, ⟨-, rfl, rfl⟩ | ⟨hok, w, hw, rfl⟩⟩ := sequence_cons_gives_iff.1 h
  · obtain ⟨rfl, -⟩ := hu.of_literal hinput
    exact .inl ⟨rfl, rfl⟩
  obtain ⟨rfl, hopened⟩ := hu.of_literal hinput
  obtain ⟨inside, rfl, hstop⟩ := hopened hok
  rw [hstop] at hw
  obtain ⟨u', _, hu', hw⟩ := sequence_cons_gives_iff.1 hw
  obtain ⟨vs, stop, d, last, hstrides, hlast, -, rfl⟩ := repeating_gives_iff.1 hu'
  obtain ⟨hfail, -, -⟩ | ⟨-, w', hclose, rfl⟩ := hw
  · simp at hfail
  rw [Matcher.repeated_stop] at hclose
  obtain ⟨u'', hu'', hend⟩ := sequence_singleton_gives_iff.1 hclose
  refine .inr ⟨inside, vs, stop, d, last, _, rfl, hstrides, hlast, u'', hu'', fun hmatched => ?_⟩
  obtain ⟨-, rfl⟩ | ⟨hclosed, rfl⟩ := hend
  · cases hmatched
  · exact ⟨hclosed, rfl⟩

def EndsGroup (front rest : List Char) (v : Verdict) : Prop :=
  v.isSuccessful = true → ∃ word behind, rest = written (DyckWord.nest word) ++ behind ∧
    v.stop = byteLength (front ++ written word.nest)

private theorem word_of_strides {n pos stop : Nat} {vs : List Verdict} {e : Context}
    (hgroup : ∀ front rest v c', rest.length < n → input = front ++ rest →
      Gives input (.lazy name) (byteLength front) c v c' → c' = c ∧ EndsGroup front rest v)
    (h : Strides (Gives input (.lazy name)) pos e vs stop d) (he : e = c) {front rest : List Char}
    (hlength : rest.length < n) (hinput : input = front ++ rest) (hpos : byteLength front = pos) :
    d = c ∧ ∃ word behind, rest = written word ++ behind ∧
      stop = byteLength (front ++ written word) := by
  induction h generalizing front rest with
  | nil pos s => exact ⟨he, 0, rest, by simp, by simp [hpos]⟩
  | @cons pos stop s s' t v vs hstep hok hmove _ ih =>
      subst he hpos
      obtain ⟨rfl, hword⟩ := hgroup front rest v s' hlength hinput hstep
      obtain ⟨first, behind, rfl, hstop⟩ := hword hok
      have hshorter : behind.length < n := by
        rw [List.length_append] at hlength
        omega
      obtain ⟨rfl, word, left, rfl, rfl⟩ :=
        ih rfl hshorter (hinput.trans (List.append_assoc _ _ _).symm) hstop.symm
      exact ⟨rfl, first.nest + word, left, by simp, by simp⟩

variable (hbound : c.rule? name = .ok (parenthesized name))

include hbound

private theorem endsGroup_of_parenthesized (front rest : List Char) (hinput : input = front ++ rest)
    (h : Gives input (parenthesized name) (byteLength front) c v c') :
    c' = c ∧ EndsGroup front rest v := by
  -- By induction on how much text there is: each group inside has less of it.
  induction hn : rest.length using Nat.strongRecOn generalizing front rest v c' with
  | ind n ih =>
      obtain ⟨hfail, rfl⟩ | ⟨inside, vs, stop, d, w, e, rfl, hstrides, hlast, u, hu, hclosed⟩ :=
        h.of_parenthesized hinput
      · exact ⟨rfl, fun hok => absurd (hfail.symm.trans hok) (by decide)⟩
      have hgroup (front rest : List Char) (v : Verdict) (c' : Context) (hless : rest.length < n)
          (hinput : input = front ++ rest)
          (h : Gives input (.lazy name) (byteLength front) c v c') :
          c' = c ∧ EndsGroup front rest v :=
        ih rest.length hless front rest hinput ((lazy_gives_iff hbound).1 h) rfl
      have hlength : inside.length < n := by
        rw [← hn]
        exact Nat.lt_succ_self _
      have hinside : input = front ++ ['('] ++ inside := by simpa using hinput
      obtain ⟨rfl, word, behind, rfl, rfl⟩ :=
        word_of_strides hgroup hstrides rfl hlength hinside rfl
      have hbehind : input = front ++ ['('] ++ written word ++ behind := by simpa using hinside
      have hshorter : behind.length < n := by
        rw [List.length_append] at hlength
        omega
      obtain ⟨rfl, -⟩ := hgroup _ behind w e hshorter hbehind hlast
      obtain ⟨rfl, hclose⟩ := hu.of_literal hbehind
      refine ⟨rfl, fun hok => ?_⟩
      obtain ⟨hok', hstop⟩ := hclosed hok
      obtain ⟨left, rfl, hend⟩ := hclose hok'
      exact ⟨word, left, by simp, by simpa [hstop] using hend⟩

private theorem matches_parenthesized {front behind : List Char} {word : DyckWord}
    {vs : List Verdict} (hinput : input = front ++ (written word.nest ++ behind))
    (h : Strides (Gives input (.lazy name)) (byteLength (front ++ ['('])) c vs
      (byteLength (front ++ ['('] ++ written word)) c) :
    Matches input (parenthesized name) (byteLength front) c
      (byteLength (front ++ written word.nest)) c := by
  have hclose : input = front ++ ['('] ++ written word ++ (')' :: behind) := by simp [hinput]
  have hopen : input = front ++ (['('] ++ (written word ++ ')' :: behind)) := by simp [hinput]
  obtain ⟨w, hw, hfail⟩ : ∃ w, Gives input (parenthesized name)
      (byteLength (front ++ ['('] ++ written word)) c w c ∧ w.isSuccessful = false :=
    parenthesized_fails hclose (by simp)
  have hfirst : Matches input (.literal "(") (byteLength front) c (byteLength (front ++ ['('])) c :=
    matches_literal hopen
  have hgroups := matches_repeating h ((lazy_gives_iff hbound).2 hw) hfail
  have hlast : Matches input (.literal ")") (byteLength (front ++ ['('] ++ written word)) c
      (byteLength (front ++ ['('] ++ written word ++ [')'])) c := matches_literal hclose
  have hend : front ++ written word.nest = front ++ ['('] ++ written word ++ [')'] := by simp
  rw [hend]
  exact hfirst.sequence (hgroups.sequence (hlast.sequence matches_sequence_nil))

private theorem strides_of_word (word : DyckWord) (front behind : List Char)
    (hinput : input = front ++ (written word ++ behind)) :
    ∃ vs, Strides (Gives input (.lazy name)) (byteLength front) c vs
      (byteLength (front ++ written word)) c := by
  -- By induction on the word: each group in it is matched in turn.
  induction word using dyckInduction generalizing front behind with
  | zero => exact ⟨[], by simpa using .nil (byteLength front) c⟩
  | group inside word ihInside ihWord =>
      have hinside :
          input = front ++ ['('] ++ (written inside ++ (')' :: written word ++ behind)) := by
        simp [hinput]
      obtain ⟨us, hus⟩ := ihInside (front ++ ['(']) _ hinside
      have hgroup : input = front ++ (written inside.nest ++ (written word ++ behind)) := by
        simp [hinput]
      obtain ⟨v, hv, hok, hstop⟩ := matches_parenthesized hbound hgroup hus
      obtain ⟨vs, hvs⟩ := ihWord (front ++ written inside.nest) behind (by simp [hinput])
      refine ⟨v :: vs, .cons ((lazy_gives_iff hbound).2 hv) hok ?_ ?_⟩
      · have hpos : 0 < byteLength (written inside.nest) := byteLength_pos (by simp)
        rw [hstop, byteLength_append]
        omega
      · rwa [hstop, written_add, ← List.append_assoc]

end Recursion

/-! ## Groups at the start of a text -/

variable {input : List Char} {name : String} {v : Verdict} {d : Context}

private theorem group_gives_iff (h : Gives input (group name) 0 {} v d) (stop : Nat) :
    v.isSuccessful = true ∧ v.stop = stop ↔
      ∃ front, IsGroup front ∧ front <+: input ∧ byteLength front = stop := by
  obtain ⟨d', hv⟩ := setAndUse_gives_iff.1 ⟨d, h⟩
  have hbound := Context.rule?_bind_self {} name (parenthesized name)
  constructor
  · rintro ⟨hok, rfl⟩
    obtain ⟨-, hgroup⟩ := endsGroup_of_parenthesized hbound [] input rfl hv
    obtain ⟨word, behind, hinput, hstop⟩ := hgroup hok
    exact ⟨written word.nest, isGroup_iff.2 ⟨word, rfl⟩, ⟨behind, hinput.symm⟩, hstop.symm⟩
  · rintro ⟨front, hfront, ⟨behind, rfl⟩, rfl⟩
    obtain ⟨word, rfl⟩ := isGroup_iff.1 hfront
    have hinside : written word.nest ++ behind = ['('] ++ (written word ++ ')' :: behind) := by simp
    obtain ⟨vs, hvs⟩ := strides_of_word hbound word ['('] (')' :: behind) hinside
    obtain ⟨w, hw, hok, hstop⟩ : Matches _ (parenthesized name) (byteLength []) _ _ _ :=
      matches_parenthesized hbound rfl hvs
    obtain ⟨rfl, -⟩ := hv.unique hw
    exact ⟨hok, hstop⟩

theorem groups_are_recognised (name : String) (input : List Char) :
    (∃ fuel v, (group name).matchText fuel input = some v ∧
      (v.isSuccessful = true ↔ ∃ front, IsGroup front ∧ front <+: input) ∧
      ∀ front, IsGroup front → front <+: input → v.stop = byteLength front) ∧
    (∀ first second, IsGroup first → first <+: input → IsGroup second → second <+: input →
      first = second) ∧
    ∃ fuel v, (Rule.completed (group name)).matchText fuel input = some v ∧
      (v.isSuccessful = true ↔ IsGroup input) := by
  obtain ⟨v, d, hv⟩ := (group_wellGuarded name).exists_gives input 0
  have hends := group_gives_iff hv
  have hstop (front : List Char) (hfront : IsGroup front) (hstart : front <+: input) :
      v.stop = byteLength front := ((hends _).2 ⟨front, hfront, hstart, rfl⟩).2
  obtain ⟨fuel', hfuel'⟩ := completed_gives_iff.2 ⟨v, hv, rfl⟩
  obtain ⟨fuel, hfuel⟩ := hv
  refine ⟨⟨fuel, v, Option.map_eq_some_iff.2 ⟨_, hfuel, rfl⟩, ⟨fun hok => ?_, ?_⟩, hstop⟩, ?_,
    fuel', _, Option.map_eq_some_iff.2 ⟨_, hfuel', rfl⟩, completion_isSuccessful_iff.trans ?_⟩
  · obtain ⟨front, hfront, hstart, -⟩ := (hends v.stop).1 ⟨hok, rfl⟩
    exact ⟨front, hfront, hstart⟩
  · rintro ⟨front, hfront, hstart⟩
    exact ((hends _).2 ⟨front, hfront, hstart, rfl⟩).1
  · intro first second hfirst hstart hsecond hstart'
    have hlength := (hstop first hfirst hstart).symm.trans (hstop second hsecond hstart')
    exact eq_of_byteLength_eq hstart hstart' hlength
  · constructor
    · intro hwhole
      obtain ⟨front, hfront, hstart, hlength⟩ := (hends _).1 hwhole
      rwa [← eq_of_byteLength_eq hstart List.prefix_rfl hlength]
    · exact fun hinput => (hends _).2 ⟨input, hinput, List.prefix_rfl, rfl⟩

example :
    ((group "expr").matchText 12 "(()())(é".toList).map (fun v => (v.isSuccessful, v.stop)) =
      some (true, 6) ∧
    ((group "expr").matchText 12 "(()".toList).map Verdict.isSuccessful = some false := by
  decide +kernel

end Rule

end TextGrammar
