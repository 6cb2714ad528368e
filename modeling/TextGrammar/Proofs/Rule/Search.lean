import TextGrammar.Proofs.Rule.Closed

/-!
# Searching for a stop

A repetition up to a stop rule matches where strides lead to a place at which the stop rule matches.
When the strides are single characters and the stop rule is closed, this is a search: all positions
of the text are gone through until the stop rule matches.
-/

namespace TextGrammar.Rule

open Text Verdict
open Matcher (Strides)

section Stop

variable {input : List Char} {rule stop : Rule} {start : Nat} {c c' d : Context} {u v : Verdict}

private theorem repeatedUntil_some_fails (atLeastOne : Bool) (start : Nat) (vs : List Verdict)
    (e : Nat) (w : Verdict) :
    (Matcher.repeatedUntil atLeastOne start vs e (some w)).isSuccessful = false := by
  simp only [Matcher.repeatedUntil]
  split <;> rfl

private theorem nonGreedy_matches_iff :
    Gives input (.nonGreedy rule stop false) start c v c' ∧ v.isSuccessful = true ↔
      ∃ vs e d u, Strides (Unstopped input rule stop) start c vs e d ∧ Gives input stop e d u c' ∧
        u.isSuccessful = true ∧ v = { success e with parts := vs } := by
  rw [nonGreedy_gives_iff]
  constructor
  · rintro ⟨⟨vs, e, d, hstrides, ⟨u, hu, hok, rfl⟩ | ⟨w, -, -, rfl⟩⟩, hmatched⟩
    · exact ⟨vs, e, d, u, hstrides, hu, hok, by simp [Matcher.repeatedUntil]⟩
    · rw [repeatedUntil_some_fails] at hmatched
      cases hmatched
  · rintro ⟨vs, e, d, u, hstrides, hu, hok, rfl⟩
    exact ⟨⟨vs, e, d, hstrides, .inl ⟨u, hu, hok, by simp [Matcher.repeatedUntil]⟩⟩, rfl⟩

theorem Gives.unstopped_nil {vs : List Verdict} {e : Nat} {b : Context}
    (h : Gives input stop start c u d) (hok : u.isSuccessful = true)
    (hstrides : Strides (Unstopped input rule stop) start c vs e b) :
    vs = [] ∧ e = start ∧ b = c := by
  cases hstrides with
  | nil => exact ⟨rfl, rfl, rfl⟩
  | cons hfirst =>
      obtain ⟨w, _, hw, hfail, -⟩ := hfirst
      exact absurd hfail (h.not_fails hok hw)

private theorem nonGreedy_atLeastOne_of_stopped (h : Gives input stop start c u d)
    (hok : u.isSuccessful = true) :
    Gives input (.nonGreedy rule stop true) start c v c' ↔
      v = .parseError "Expected at least one repetition before the stop rule" start ∧ c' = d := by
  rw [nonGreedy_gives_iff]
  constructor
  · rintro ⟨vs, e, b, hstrides, hend⟩
    obtain ⟨rfl, rfl, rfl⟩ := h.unstopped_nil hok hstrides
    rcases hend with ⟨w, hw, -, rfl⟩ | ⟨w, ⟨w', _, hw', hfail, -⟩, -⟩
    · obtain ⟨-, rfl⟩ := h.unique hw
      exact ⟨rfl, rfl⟩
    · exact absurd hfail (h.not_fails hok hw')
  · rintro ⟨rfl, rfl⟩
    exact ⟨[], start, c, .nil start c, .inl ⟨u, h, hok, rfl⟩⟩

private theorem nonGreedy_atLeastOne_of_unstopped (h : Gives input stop start c u d)
    (hfail : u.isSuccessful = false) :
    Gives input (.nonGreedy rule stop true) start c v c' ↔
      Gives input (.nonGreedy rule stop false) start c v c' := by
  rw [nonGreedy_gives_iff, nonGreedy_gives_iff]
  refine exists_congr fun vs => exists_congr fun e => exists_congr fun b =>
    and_congr_right fun hstrides => or_congr ?_ Iff.rfl
  refine exists_congr fun w => and_congr_right fun hw => and_congr_right fun hok => ?_
  cases hstrides with
  | nil => exact absurd hfail (hw.not_fails hok h)
  | cons => simp [Matcher.repeatedUntil]

end Stop

private theorem anyChar_gives_iff {input : List Char} {pos : Nat} {c c' : Context} {v : Verdict} :
    Gives input .anyChar pos c v c' ↔ v = lengthVerdict 1 input pos ∧ c' = c :=
  length_gives_iff

private theorem lengthVerdict_one_cons (front : List Char) (x : Char) (back : List Char) :
    lengthVerdict 1 (front ++ x :: back) (byteLength front) =
      .success (byteLength front + x.utf8Size) := by
  have hone : 1 ≤ (x :: back).length := Nat.succ_le_of_lt (Nat.zero_lt_succ _)
  simp only [lengthVerdict, dropBytes?_byteLength_append, if_pos hone]
  rfl

private theorem lengthVerdict_one_end (input : List Char) :
    (lengthVerdict 1 input (byteLength input)).isSuccessful = false := by
  have hend : dropBytes? input (byteLength input) = some [] :=
    dropBytes?_eq_some_iff.2 ⟨input, by simp, rfl⟩
  rw [lengthVerdict, hend]
  rfl

private theorem le_of_isPosition_of_lt {front back : List Char} {x : Char} {pos : Nat}
    (h : IsPosition (front ++ x :: back) pos) (hlt : byteLength front < pos) :
    byteLength front + x.utf8Size ≤ pos := by
  obtain ⟨front', back', htext, rfl⟩ := h
  rcases List.append_eq_append_iff.1 htext with ⟨between, rfl, hbetween⟩ | ⟨between, rfl, -⟩
  · cases between with
    | nil => simp at hlt
    | cons y between =>
        obtain ⟨rfl, -⟩ := List.cons.inj hbetween
        simp [byteLength]
  · rw [byteLength_append] at hlt
    omega

structure FirstMatch (input : List Char) (rule : Rule) (start e : Nat) : Prop where
  le : start ≤ e
  isPosition : IsPosition input e
  matched : ∃ stop, Spans input rule e stop
  before : ∀ pos, start ≤ pos → pos < e → IsPosition input pos → Fails input rule pos

section Search

variable {input : List Char} {stop : Rule}

private theorem unstopped_anyChar {front back : List Char} {x : Char}
    (hfails : Fails (front ++ x :: back) stop (byteLength front)) (c : Context) :
    ∃ d, Unstopped (front ++ x :: back) .anyChar stop (byteLength front) c
      (.success (byteLength front + x.utf8Size)) d := by
  obtain ⟨u, d, hu, hfail⟩ := hfails c
  exact ⟨d, u, d, hu, hfail, anyChar_gives_iff.2 ⟨(lengthVerdict_one_cons front x back).symm, rfl⟩⟩

theorem FirstMatch.later {front back : List Char} {x : Char} {e : Nat}
    (hfails : Fails (front ++ x :: back) stop (byteLength front))
    (h : FirstMatch (front ++ x :: back) stop (byteLength front + x.utf8Size) e) :
    FirstMatch (front ++ x :: back) stop (byteLength front) e where
  le := Nat.le_trans (Nat.le_add_right _ _) h.le
  isPosition := h.isPosition
  matched := h.matched
  before pos hle hlt hpos := by
    rcases Nat.eq_or_lt_of_le hle with rfl | hmore
    · exact hfails
    · exact h.before pos (le_of_isPosition_of_lt hpos hmore) hlt hpos

private theorem exists_strides_anyChar (hstop : stop.Closed) (back : List Char) :
    ∀ (front : List Char) (c : Context), input = front ++ back →
      (∃ vs e d, Strides (Unstopped input .anyChar stop) (byteLength front) c vs e d ∧
        FirstMatch input stop (byteLength front) e) ∨
      ∃ vs d, Strides (Unstopped input .anyChar stop) (byteLength front) c vs (byteLength input) d ∧
        ∀ pos, byteLength front ≤ pos → IsPosition input pos → Fails input stop pos := by
  induction back with
  | nil =>
      intro front c hinput
      obtain rfl : input = front := by simpa using hinput
      rcases hstop.spans_or_fails input (byteLength input) with hspans | hfails
      · exact .inl ⟨[], _, c, .nil _ c, Nat.le_refl _, ⟨input, [], by simp, rfl⟩, hspans,
          fun pos hle hlt => by omega⟩
      · refine .inr ⟨[], c, .nil _ c, fun pos hle hpos => ?_⟩
        obtain rfl : byteLength input = pos := Nat.le_antisymm hle hpos.le_byteLength
        exact hfails
  | cons x back ih =>
      intro front c hinput
      subst hinput
      rcases hstop.spans_or_fails (front ++ x :: back) (byteLength front) with hspans | hfails
      · exact .inl ⟨[], _, c, .nil _ c, Nat.le_refl _, ⟨front, _, rfl, rfl⟩, hspans,
          fun pos hle hlt => by omega⟩
      obtain ⟨d, hstride⟩ := unstopped_anyChar hfails c
      have hbehind : byteLength (front ++ [x]) = byteLength front + x.utf8Size := by
        simp [byteLength]
      have hmove : byteLength front + x.utf8Size ≠ byteLength front := by
        have hpos := x.utf8Size_pos
        omega
      have hrest := ih (front ++ [x]) d (by simp)
      rw [hbehind] at hrest
      rcases hrest with ⟨vs, e, d', hstrides, hfirst⟩ | ⟨vs, d', hstrides, hnone⟩
      · exact .inl ⟨_, e, d', .cons hstride rfl hmove hstrides, hfirst.later hfails⟩
      · refine .inr ⟨_, d', .cons hstride rfl hmove hstrides, fun pos hle hpos => ?_⟩
        rcases Nat.eq_or_lt_of_le hle with rfl | hmore
        · exact hfails
        · exact hnone pos (le_of_isPosition_of_lt hpos hmore) hpos

private theorem nonGreedy_anyChar_ends (hstop : stop.Closed) {start : Nat}
    (hstart : IsPosition input start) (c : Context) :
    ∃ v c', Gives input (.nonGreedy .anyChar stop false) start c v c' ∧
      (v.isSuccessful = true ∧ FirstMatch input stop start v.stop ∨
        v.isSuccessful = false ∧
          ∀ pos, start ≤ pos → IsPosition input pos → Fails input stop pos) := by
  obtain ⟨front, back, hinput, rfl⟩ := hstart
  rcases exists_strides_anyChar hstop back front c hinput with
    ⟨vs, e, d, hstrides, hfirst⟩ | ⟨vs, d, hstrides, hnone⟩
  · obtain ⟨m, hspans⟩ := hfirst.matched
    obtain ⟨u, c', hu, hok, -⟩ := hspans d
    have hmatch := nonGreedy_matches_iff.2 ⟨vs, e, d, u, hstrides, hu, hok, rfl⟩
    exact ⟨_, c', hmatch.1, .inl ⟨rfl, hfirst⟩⟩
  · have hend : IsPosition input (byteLength input) := ⟨input, [], by simp, rfl⟩
    have hle : byteLength front ≤ byteLength input :=
      IsPosition.le_byteLength ⟨front, back, hinput, rfl⟩
    obtain ⟨u, c', hu, hfail⟩ := hnone _ hle hend d
    have hlast : Unstopped input .anyChar stop (byteLength input) d
        (lengthVerdict 1 input (byteLength input)) c' :=
      ⟨u, c', hu, hfail, anyChar_gives_iff.2 ⟨rfl, rfl⟩⟩
    have hstay : (lengthVerdict 1 input (byteLength input)).isSuccessful = true →
        (lengthVerdict 1 input (byteLength input)).stop = byteLength input := fun hok =>
      absurd ((lengthVerdict_one_end input).symm.trans hok) (by decide)
    exact ⟨_, c', nonGreedy_gives_iff.2 ⟨vs, _, d, hstrides, .inr ⟨_, hlast, hstay, rfl⟩⟩,
      .inr ⟨repeatedUntil_some_fails _ _ _ _ _, hnone⟩⟩

theorem FirstMatch.unique {start e e' : Nat} (h : FirstMatch input stop start e)
    (h' : FirstMatch input stop start e') : e = e' := by
  obtain ⟨m, hm⟩ := h.matched
  obtain ⟨m', hm'⟩ := h'.matched
  rcases Nat.lt_trichotomy e e' with hlt | heq | hlt
  · exact absurd (h'.before e h.le hlt h.isPosition) hm.not_fails
  · exact heq
  · exact absurd (h.before e' h'.le hlt h'.isPosition) hm'.not_fails

end Search

theorem nonGreedy_finds_first_stop (input : List Char) (stop : Rule) (start : Nat) (c : Context) :
    (∀ rule v c', Gives input (.nonGreedy rule stop false) start c v c' ∧ v.isSuccessful = true ↔
      ∃ vs e d u, Strides (Unstopped input rule stop) start c vs e d ∧ Gives input stop e d u c' ∧
        u.isSuccessful = true ∧ v = { success e with parts := vs }) ∧
    (∀ rule u d, Gives input stop start c u d →
      (u.isSuccessful = true → ∀ v c', Gives input (.nonGreedy rule stop true) start c v c' ↔
        v = .parseError "Expected at least one repetition before the stop rule" start ∧ c' = d) ∧
      (u.isSuccessful = false → ∀ v c', Gives input (.nonGreedy rule stop true) start c v c' ↔
        Gives input (.nonGreedy rule stop false) start c v c')) ∧
    (stop.Closed → IsPosition input start →
      (∃ v c', Gives input (.nonGreedy .anyChar stop false) start c v c') ∧
      ∀ v c', Gives input (.nonGreedy .anyChar stop false) start c v c' →
        (∀ e, v.isSuccessful = true ∧ v.stop = e ↔ FirstMatch input stop start e) ∧
        (v.isSuccessful = false ↔
          ∀ pos, start ≤ pos → IsPosition input pos → Fails input stop pos)) := by
  refine ⟨fun rule v c' => nonGreedy_matches_iff, fun rule u d hu => ⟨fun hok v c' =>
    nonGreedy_atLeastOne_of_stopped hu hok, fun hfail v c' =>
    nonGreedy_atLeastOne_of_unstopped hu hfail⟩, fun hstop hstart => ?_⟩
  obtain ⟨v, c', hv, hfound⟩ := nonGreedy_anyChar_ends hstop hstart c
  refine ⟨⟨v, c', hv⟩, fun w d hw => ?_⟩
  obtain ⟨rfl, -⟩ := hv.unique hw
  rcases hfound with ⟨hok, hfirst⟩ | ⟨hfail, hnone⟩
  · obtain ⟨m, hm⟩ := hfirst.matched
    refine ⟨fun e => ⟨?_, fun he => ⟨hok, hfirst.unique he⟩⟩, fun hfail => ?_, fun hnone => ?_⟩
    · rintro ⟨-, rfl⟩
      exact hfirst
    · exact absurd (hfail.symm.trans hok) (by decide)
    · exact absurd (hnone _ hfirst.le hfirst.isPosition) hm.not_fails
  · refine ⟨fun e => ⟨fun ⟨hok, _⟩ => ?_, fun he => ?_⟩, fun _ => hnone, fun _ => hfail⟩
    · exact absurd (hfail.symm.trans hok) (by decide)
    · obtain ⟨m, hm⟩ := he.matched
      exact absurd (hnone e he.le he.isPosition) hm.not_fails

/-- Behind a character of two bytes and one more, the stop rule matches. -/
theorem nonGreedy_finds_first_stop_multibyte :
    let stop : Rule := .sequence [.literal "b", .optional (.set "x" (.length 1))]
    let input := ['é', 'x', 'b']
    (∃ u d, Gives input stop 0 {} u d ∧ u.isSuccessful = false ∧ ∀ v c',
      Gives input (.nonGreedy .anyChar stop true) 0 {} v c' ↔
        Gives input (.nonGreedy .anyChar stop false) 0 {} v c') ∧
    (∃ u d, Gives input stop 3 {} u d ∧ u.isSuccessful = true ∧ ∀ v c',
      Gives input (.nonGreedy .anyChar stop true) 3 {} v c' ↔
        v = .parseError "Expected at least one repetition before the stop rule" 3 ∧ c' = d) ∧
    stop.Closed ∧ IsPosition input 0 ∧ ∃ v c',
      Gives input (.nonGreedy .anyChar stop false) 0 {} v c' ∧ v.isSuccessful = true ∧
        FirstMatch input stop 0 3 ∧
        ∃ vs e d u, Strides (Unstopped input .anyChar stop) 0 {} vs e d ∧
          Gives input stop e d u c' ∧ u.isSuccessful = true ∧
            v = { success e with parts := vs } := by
  intro stop input
  obtain ⟨⟨u, d⟩, hu, hfail⟩ : ∃ x, matchAt 8 stop input 0 {} = some x ∧
      x.1.isSuccessful = false := Option.map_eq_some_iff.1 (by decide +kernel)
  obtain ⟨⟨u', d'⟩, hu', hok⟩ : ∃ x, matchAt 8 stop input 3 {} = some x ∧
      x.1.isSuccessful = true := Option.map_eq_some_iff.1 (by decide +kernel)
  obtain ⟨⟨v, c'⟩, hv, hfound⟩ :
      ∃ x, matchAt 8 (.nonGreedy .anyChar stop false) input 0 {} = some x ∧
      (x.1.isSuccessful, x.1.stop) = (true, 3) := Option.map_eq_some_iff.1 (by decide +kernel)
  obtain ⟨hmatched, hstop⟩ := Prod.mk.inj hfound
  have hclosed : stop.Closed := by decide
  have hposition : IsPosition input 0 := by decide
  obtain ⟨hstrides, hatLeastOne, hsearch⟩ := nonGreedy_finds_first_stop input stop 0 {}
  obtain ⟨-, hatLeastOne', -⟩ := nonGreedy_finds_first_stop input stop 3 {}
  have hfirst := ((hsearch hclosed hposition).2 v c' ⟨8, hv⟩).1 3
  exact ⟨⟨u, d, ⟨8, hu⟩, hfail, (hatLeastOne .anyChar u d ⟨8, hu⟩).2 hfail⟩,
    ⟨u', d', ⟨8, hu'⟩, hok, (hatLeastOne' .anyChar u' d' ⟨8, hu'⟩).1 hok⟩, hclosed, hposition,
    v, c', ⟨8, hv⟩, hmatched, hfirst.1 ⟨hmatched, hstop⟩,
    (hstrides .anyChar v c').1 ⟨⟨8, hv⟩, hmatched⟩⟩

end TextGrammar.Rule
