import Mathlib.Logic.Relation
import TextGrammar.Proofs.Rule.Closed

/-!
# Lists

A list of closed rules goes as far as separators with an element behind each lead.  A separator
without an element is left to what comes behind the list.
-/

namespace TextGrammar.Rule

open Matcher (Strides)

variable {input : List Char} {pos stop : Nat}

theorem closed_sequence {rules : List Rule} (h : ∀ rule ∈ rules, rule.Closed) :
    (Rule.sequence rules).Closed := .ofParts rfl rfl h

private theorem spans_sequence_nil_iff : Spans input (.sequence []) pos stop ↔ stop = pos := by
  have hnil : Spans input (.sequence []) pos pos := by
    intro c
    refine ⟨.success pos, c, ?_, rfl, rfl⟩
    rw [sequence_gives_eq]
    exact Matcher.sequence_nil_gives_iff.2 ⟨rfl, rfl⟩
  constructor
  · exact fun h => h.unique hnil
  · rintro rfl
    exact hnil

section Sequence

variable {rule : Rule} {rules : List Rule} (hrule : rule.Closed)
  (hrules : ∀ rule ∈ rules, rule.Closed)

include hrule hrules

private theorem spans_sequence_cons_iff :
    Spans input (.sequence (rule :: rules)) pos stop ↔
      ∃ middle, Spans input rule pos middle ∧ Spans input (.sequence rules) middle stop := by
  constructor
  · intro h
    obtain ⟨v, c', hv, hok, rfl⟩ := h {}
    obtain ⟨u, d, hu, ⟨-, rfl, -⟩ | ⟨hfirst, w, hw, rfl⟩⟩ := sequence_cons_gives_iff.1 hv
    · cases hok
    · have hrest : Spans input (.sequence rules) u.stop w.stop :=
        (closed_sequence hrules).spans hw hok
      exact ⟨u.stop, hrule.spans hu hfirst, hrest⟩
  · rintro ⟨middle, hfirst, hrest⟩ c
    obtain ⟨u, d, hu, hok, rfl⟩ := hfirst c
    obtain ⟨w, c', hw, hmatched, rfl⟩ := hrest d
    exact ⟨_, c', sequence_cons_gives_iff.2 ⟨u, d, hu, .inr ⟨hok, w, hw, rfl⟩⟩, hmatched, rfl⟩

private theorem fails_sequence_cons_iff :
    Fails input (.sequence (rule :: rules)) pos ↔ Fails input rule pos ∨
      ∃ middle, Spans input rule pos middle ∧ Fails input (.sequence rules) middle := by
  constructor
  · intro h
    obtain ⟨v, c', hv, hfail⟩ := h {}
    obtain ⟨u, d, hu, ⟨hfirst, -, -⟩ | ⟨hfirst, w, hw, rfl⟩⟩ := sequence_cons_gives_iff.1 hv
    · exact .inl (hrule.fails hu hfirst)
    · have hrest : Fails input (.sequence rules) u.stop := (closed_sequence hrules).fails hw hfail
      exact .inr ⟨u.stop, hrule.spans hu hfirst, hrest⟩
  · rintro (hfirst | ⟨middle, hfirst, hrest⟩) c
    · obtain ⟨u, d, hu, hfail⟩ := hfirst c
      exact ⟨_, d, sequence_cons_gives_iff.2 ⟨u, d, hu, .inl ⟨hfail, rfl, rfl⟩⟩, rfl⟩
    · obtain ⟨u, d, hu, hok, rfl⟩ := hfirst c
      obtain ⟨w, c', hw, hfail⟩ := hrest d
      exact ⟨_, c', sequence_cons_gives_iff.2 ⟨u, d, hu, .inr ⟨hok, w, hw, rfl⟩⟩, hfail⟩

end Sequence

section Pair

variable {first second : Rule} (hfirst : first.Closed) (hsecond : second.Closed)

include hfirst hsecond

theorem spans_pair_iff : Spans input (.sequence [first, second]) pos stop ↔
    ∃ middle, Spans input first pos middle ∧ Spans input second middle stop := by
  rw [spans_sequence_cons_iff hfirst (by simpa using hsecond)]
  simp [spans_sequence_cons_iff hsecond, spans_sequence_nil_iff]

private theorem fails_pair_iff : Fails input (.sequence [first, second]) pos ↔
    Fails input first pos ∨ ∃ middle, Spans input first pos middle ∧ Fails input second middle := by
  have hnil (pos : Nat) : ¬ Fails input (.sequence []) pos :=
    (spans_sequence_nil_iff.2 rfl : Spans input (.sequence []) pos pos).not_fails
  rw [fails_sequence_cons_iff hfirst (by simpa using hsecond)]
  simp [fails_sequence_cons_iff hsecond, hnil]

end Pair

section Repetition

variable {rule : Rule}

private theorem chain_of_strides (hrule : rule.Closed) {c d : Context} {vs : List Verdict}
    (h : Strides (Gives input rule) pos c vs stop d) :
    Relation.ReflTransGen (Spans input rule) pos stop := by
  induction h with
  | nil => exact .refl
  | cons hstep hok _ _ ih => exact .head (hrule.spans hstep hok) ih

theorem Spans.of_repeating (hrule : rule.Closed)
    (h : Spans input (.repeating rule false) pos stop) :
    Relation.ReflTransGen (Spans input rule) pos stop ∧
      (Fails input rule stop ∨ Spans input rule stop stop) := by
  obtain ⟨v, c', hv, -, rfl⟩ := h {}
  obtain ⟨vs, e, d, w, hstrides, hw, hlast, rfl⟩ := repeating_gives_iff.1 hv
  rw [Matcher.repeated_stop]
  refine ⟨chain_of_strides hrule hstrides, ?_⟩
  cases hok : w.isSuccessful with
  | false => exact .inl (hrule.fails hw hok)
  | true =>
      have hspans := hrule.spans hw hok
      rw [hlast hok] at hspans
      exact .inr hspans

private theorem not_fails_repeating : ¬ Fails input (.repeating rule false) pos := by
  intro h
  obtain ⟨v, c', hv, hfail⟩ := h {}
  obtain ⟨vs, e, d, w, -, -, -, rfl⟩ := repeating_gives_iff.1 hv
  simp at hfail

end Repetition

section List

variable {element separator : Rule}

def Round (input : List Char) (element separator : Rule) (pos stop : Nat) : Prop :=
  ∃ middle, Spans input separator pos middle ∧ Spans input element middle stop

def Listed (input : List Char) (element separator : Rule) (start stop : Nat) : Prop :=
  ∃ first, Spans input element start first ∧
    Relation.ReflTransGen (Round input element separator) first stop

/-- A separator with an element behind it is not there, or is empty. -/
def NoneFollows (input : List Char) (element separator : Rule) (pos : Nat) : Prop :=
  Fails input separator pos ∨ ∃ middle, Spans input separator pos middle ∧
    (Fails input element middle ∨ Spans input element middle pos)

theorem Round.unique {stop' : Nat} (h : Round input element separator pos stop)
    (h' : Round input element separator pos stop') : stop = stop' := by
  obtain ⟨middle, hseparator, helement⟩ := h
  obtain ⟨middle', hseparator', helement'⟩ := h'
  obtain rfl := hseparator.unique hseparator'
  exact helement.unique helement'

theorem NoneFollows.stop_eq (h : NoneFollows input element separator pos)
    (hrounds : Relation.ReflTransGen (Round input element separator) pos stop) : stop = pos := by
  induction hrounds with
  | refl => rfl
  | tail _ hround ih =>
      subst ih
      obtain ⟨middle, hseparator, helement⟩ := hround
      rcases h with hfails | ⟨middle', hseparator', hrest⟩
      · exact absurd hfails hseparator.not_fails
      obtain rfl := hseparator.unique hseparator'
      rcases hrest with hfails | hempty
      · exact absurd hfails helement.not_fails
      · exact helement.unique hempty

theorem Listed.unique {start stop' : Nat} (h : Listed input element separator start stop)
    (h' : Listed input element separator start stop')
    (hend : NoneFollows input element separator stop)
    (hend' : NoneFollows input element separator stop') : stop = stop' := by
  obtain ⟨first, hfirst, hrounds⟩ := h
  obtain ⟨first', hfirst', hrounds'⟩ := h'
  obtain rfl := hfirst.unique hfirst'
  have hunique : Relator.RightUnique (Round input element separator) :=
    fun _ _ _ hround hround' => hround.unique hround'
  rcases hrounds.total_of_right_unique hunique hrounds' with hmore | hmore
  · exact (hend.stop_eq hmore).symm
  · exact hend'.stop_eq hmore

variable (helement : element.Closed) (hseparator : separator.Closed)

include helement hseparator

private theorem closed_round : (Rule.sequence [separator, element]).Closed :=
  closed_sequence (by simpa using ⟨hseparator, helement⟩)

private theorem closed_rounds : (Rule.repeating (.sequence [separator, element]) false).Closed :=
  .ofParts rfl rfl (List.forall_mem_singleton.2 (closed_round helement hseparator))

private theorem closed_list : (Rule.list element separator).Closed :=
  closed_sequence (by simpa using ⟨helement, closed_rounds helement hseparator⟩)

theorem Spans.of_list {start : Nat} (h : Spans input (.list element separator) start stop) :
    Listed input element separator start stop ∧ NoneFollows input element separator stop := by
  obtain ⟨first, hfirst, hrounds⟩ :=
    (spans_pair_iff helement (closed_rounds helement hseparator)).1 h
  obtain ⟨hchain, hlast⟩ := hrounds.of_repeating (closed_round helement hseparator)
  have hround {pos stop : Nat} : Spans input (.sequence [separator, element]) pos stop ↔
      Round input element separator pos stop := spans_pair_iff hseparator helement
  refine ⟨⟨first, hfirst, Relation.ReflTransGen.mono (fun _ _ => hround.1) _ _ hchain⟩, ?_⟩
  rcases hlast with hfails | hempty
  · rcases (fails_pair_iff hseparator helement).1 hfails with hfails | ⟨middle, hspans, hfails⟩
    · exact .inl hfails
    · exact .inr ⟨middle, hspans, .inl hfails⟩
  · obtain ⟨middle, hspans, hspans'⟩ := hround.1 hempty
    exact .inr ⟨middle, hspans, .inr hspans'⟩

private theorem fails_list_iff {start : Nat} :
    Fails input (.list element separator) start ↔ Fails input element start := by
  rw [list, fails_pair_iff helement (closed_rounds helement hseparator)]
  simp [not_fails_repeating]

end List

theorem lists_end_with_element (element separator : Rule) (helement : element.Closed)
    (hseparator : separator.Closed) (input : List Char) (start : Nat) (c : Context) :
    (∃ v c', Gives input (.list element separator) start c v c') ∧
    ∀ v c', Gives input (.list element separator) start c v c' →
      (v.isSuccessful = true ↔ ∃ first, Spans input element start first) ∧
      ∀ stop, v.isSuccessful = true ∧ v.stop = stop ↔
        Listed input element separator start stop ∧ NoneFollows input element separator stop := by
  have hlist := closed_list helement hseparator
  obtain ⟨v, hv⟩ := hlist.exists_gives input start
  obtain ⟨c', hv⟩ := hv c
  refine ⟨⟨v, c', hv⟩, fun w d hw => ?_⟩
  obtain ⟨rfl, -⟩ := hv.unique hw
  cases hok : v.isSuccessful with
  | true =>
      obtain ⟨hlisted, hend⟩ := Spans.of_list helement hseparator (hlist.spans hv hok)
      have hfirst : ∃ first, Spans input element start first :=
        hlisted.imp fun _ h => h.1
      refine ⟨⟨fun _ => hfirst, fun _ => rfl⟩, fun stop => ⟨?_, ?_⟩⟩
      · rintro ⟨-, rfl⟩
        exact ⟨hlisted, hend⟩
      · rintro ⟨hlisted', hend'⟩
        exact ⟨rfl, hlisted.unique hlisted' hend hend'⟩
  | false =>
      have hfails := (fails_list_iff helement hseparator).1 (hlist.fails hv hok)
      refine ⟨⟨nofun, ?_⟩, fun stop => ⟨nofun, ?_⟩⟩
      · rintro ⟨first, hfirst⟩
        exact absurd hfails hfirst.not_fails
      · rintro ⟨⟨first, hfirst, -⟩, -⟩
        exact absurd hfails hfirst.not_fails

/-- The separator at the end stays behind. -/
theorem lists_end_with_element_dangling :
    let element : Rule := .or true [.literal "é", .set "x" (.literal "aa")]
    let separator : Rule := .sequence [.literal ",", .optional (.literal " ")]
    let input := ['é', ',', ' ', 'a', 'a', ',', 'b']
    element.Closed ∧ separator.Closed ∧ ∃ v c',
      Gives input (.list element separator) 0 {} v c' ∧ v.isSuccessful = true ∧
        Listed input element separator 0 6 ∧ NoneFollows input element separator 6 ∧
        ∃ first, Spans input element 0 first := by
  intro element separator input
  have helement : element.Closed := by decide
  have hseparator : separator.Closed := by decide
  obtain ⟨⟨v, c'⟩, hv, hfound⟩ : ∃ x, matchAt 8 (.list element separator) input 0 {} = some x ∧
      (x.1.isSuccessful, x.1.stop) = (true, 6) := Option.map_eq_some_iff.1 (by decide +kernel)
  obtain ⟨hmatched, hstop⟩ := Prod.mk.inj hfound
  obtain ⟨-, hlist⟩ := lists_end_with_element element separator helement hseparator input 0 {}
  obtain ⟨hfirst, hends⟩ := hlist v c' ⟨8, hv⟩
  obtain ⟨hlisted, hnone⟩ := (hends 6).1 ⟨hmatched, hstop⟩
  exact ⟨helement, hseparator, v, c', ⟨8, hv⟩, hmatched, hlisted, hnone, hfirst.1 hmatched⟩

end TextGrammar.Rule
