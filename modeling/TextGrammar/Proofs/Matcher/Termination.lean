import TextGrammar.Fuel
import TextGrammar.Matcher

/-!
# Matchers that come to an end

A matcher that is given fuel comes to an end when it answers the same from some amount of fuel on.
Every combinator does when its parts do at all offsets and in all states that it tries them in; a
repetition also has to run out of text.
-/

namespace TextGrammar

namespace Matcher

variable {σ ε α : Type} {m : Nat → Matcher σ ε} {f : Nat → α → Matcher σ ε}

private theorem chain_settles {K : List α → Nat → σ → Prop}
    (h : ∀ a as pos s, K (a :: as) pos s → Settles fun fuel => f fuel a pos s)
    (hnext : ∀ fuel a as pos s b s', K (a :: as) pos s → f fuel a pos s = some (b, s') →
      b.isSuccessful = true → K as b.stop s') :
    ∀ as pos s, K as pos s → Settles fun fuel => chain (as.map (f fuel)) pos s := by
  -- `K` says which members are left, and where, when the next of them is tried.
  intro as
  induction as with
  | nil => exact fun pos s _ => .answer _
  | cons a as ih =>
      intro pos s hk
      simp only [List.map_cons, chain]
      refine (h a as pos s hk).bind ?_
      rintro fuel ⟨b, s'⟩ hb
      dsimp only
      split
      · rename_i hok
        have hrest := ih b.stop s' (hnext fuel a as pos s b s' hk hb hok)
        exact hrest.andThen fun _ => ⟨_, rfl⟩
      · exact .answer _

theorem sequence_settles {K : List α → Nat → σ → Prop}
    (h : ∀ a as pos s, K (a :: as) pos s → Settles fun fuel => f fuel a pos s)
    (hnext : ∀ fuel a as pos s b s', K (a :: as) pos s → f fuel a pos s = some (b, s') →
      b.isSuccessful = true → K as b.stop s') {as : List α} {pos : Nat} {s : σ} (hk : K as pos s) :
    Settles fun fuel => sequence (as.map (f fuel)) pos s := by
  refine (chain_settles h hnext as pos s hk).andThen ?_
  rintro ⟨run, s'⟩
  dsimp only
  split <;> exact ⟨_, rfl⟩

section Beside

variable {K : List α → σ → Prop} {pos : Nat}
  (h : ∀ a as s, K (a :: as) s → Settles fun fuel => f fuel a pos s)

include h

private theorem attempts_settles (untilSuccess : Bool)
    (hnext : ∀ fuel a as s b s', K (a :: as) s → f fuel a pos s = some (b, s') →
      (untilSuccess && b.isSuccessful) = false → K as s') :
    ∀ as s, K as s → Settles fun fuel => attempts untilSuccess (as.map (f fuel)) pos s := by
  intro as
  induction as with
  | nil => exact fun s _ => .answer _
  | cons a as ih =>
      intro s hk
      simp only [List.map_cons, attempts]
      refine (h a as s hk).bind ?_
      rintro fuel ⟨b, s'⟩ hb
      dsimp only
      split
      · exact .answer _
      · rename_i hon
        have hrest := ih s' (hnext fuel a as s b s' hk hb (Bool.eq_false_iff.2 hon))
        exact hrest.andThen fun _ => ⟨_, rfl⟩

theorem choice_settles (longest : Bool)
    (hnext : ∀ fuel a as s b s', K (a :: as) s → f fuel a pos s = some (b, s') →
      (!longest && b.isSuccessful) = false → K as s') {as : List α} {s : σ} (hk : K as s) :
    Settles fun fuel => choice longest (as.map (f fuel)) pos s := by
  refine (attempts_settles h (!longest) hnext as s hk).andThen ?_
  rintro ⟨bs, s'⟩
  dsimp only
  split <;> exact ⟨_, rfl⟩

theorem conjunction_settles
    (hnext : ∀ fuel a as s b s', K (a :: as) s → f fuel a pos s = some (b, s') → K as s')
    {as : List α} {s : σ} (hk : K as s) :
    Settles fun fuel => conjunction (as.map (f fuel)) pos s := by
  have hall := attempts_settles h false (fun fuel a as s b s' hk hb _ =>
    hnext fuel a as s b s' hk hb) as s hk
  exact hall.andThen fun _ => ⟨_, rfl⟩

end Beside

theorem onSuccess_settles {pos : Nat} {s : σ} (update : Nat → Attempt ε → σ → σ)
    (h : Settles fun fuel => m fuel pos s) :
    Settles fun fuel => (m fuel).onSuccess update pos s := h.andThen fun _ => ⟨_, rfl⟩

theorem optional_settles {pos : Nat} {s : σ} (h : Settles fun fuel => m fuel pos s) :
    Settles fun fuel => optional (m fuel) pos s := by
  refine h.andThen ?_
  rintro ⟨a, s'⟩
  dsimp only
  split <;> exact ⟨_, rfl⟩

theorem resolved_settles {target : Nat → σ → Except String (Matcher σ ε)} {pos : Nat} {s : σ}
    (h : (∃ message, ∀ fuel, target fuel s = .error message) ∨
      ∃ m : Nat → Matcher σ ε, (∀ fuel, target fuel s = .ok (m fuel)) ∧
        Settles fun fuel => m fuel pos s) :
    Settles fun fuel => resolved (target fuel) pos s := by
  unfold resolved
  rcases h with ⟨message, htarget⟩ | ⟨m, htarget, hm⟩
  · simp only [htarget]
    exact .answer _
  · simp only [htarget]
    exact hm

section Repetition

/-! `K` says where rounds are tried, and each of them goes down along `R`. -/

variable {K : Nat → σ → Prop} {R : Nat × σ → Nat × σ → Prop}

section Greedy

variable (h : ∀ pos s, K pos s → Settles fun fuel => m fuel pos s)
  (hnext : ∀ fuel pos s a s', K pos s → m fuel pos s = some (a, s') → a.isSuccessful = true →
    a.stop ≠ pos → K a.stop s' ∧ R (a.stop, s') (pos, s))

include h hnext

private theorem rounds_settles {round : Nat × σ} (hacc : Acc R round) (more : Nat)
    (hk : K round.1 round.2) :
    Settles fun fuel => rounds (m (fuel + more)) fuel round.1 round.2 := by
  -- The attempts keep their fuel while rounds use up theirs, so `more` grows from one round to the
  -- next.
  induction hacc generalizing more with
  | intro round _ ih =>
      obtain ⟨pos, s⟩ := round
      apply Settles.succ
      simp only [rounds]
      have hfirst : Settles fun fuel => m (fuel + 1 + more) pos s := ((h pos s hk).add more).add 1
      refine hfirst.bind ?_
      rintro fuel ⟨a, s'⟩ ha
      dsimp only
      split
      · exact .answer _
      split
      · exact .answer _
      · rename_i hok hmove
        obtain ⟨hk', hless⟩ := hnext _ pos s a s' hk ha (by simpa using hok) hmove
        have hrest := ih (a.stop, s') hless (1 + more) hk'
        simp only [← Nat.add_assoc] at hrest
        exact hrest.andThen fun _ => ⟨_, rfl⟩

theorem repeating_settles (atLeastOne : Bool) {pos : Nat} {s : σ} (hacc : Acc R (pos, s))
    (hk : K pos s) : Settles fun fuel => repeating fuel atLeastOne (m fuel) pos s := by
  refine (rounds_settles h hnext hacc 0 hk).andThen ?_
  rintro ⟨run, s'⟩
  dsimp only
  split
  · split <;> exact ⟨_, rfl⟩
  · exact ⟨_, rfl⟩

end Greedy

section Until

variable {stop : Nat → Nat → σ → Option (Bool × σ)}
  (hstop : ∀ pos s, K pos s → Settles fun fuel => stop fuel pos s)
  (h : ∀ fuel pos s s', K pos s → stop fuel pos s = some (false, s') →
    Settles fun fuel => m fuel pos s')
  (hnext : ∀ fuel fuel' pos s s' a s'', K pos s → stop fuel pos s = some (false, s') →
    m fuel' pos s' = some (a, s'') → a.isSuccessful = true → a.stop ≠ pos →
      K a.stop s'' ∧ R (a.stop, s'') (pos, s))

include hstop h hnext

private theorem roundsUntil_settles {round : Nat × σ} (hacc : Acc R round) (more : Nat)
    (hk : K round.1 round.2) : Settles fun fuel =>
      roundsUntil (stop (fuel + more)) (m (fuel + more)) fuel round.1 round.2 := by
  induction hacc generalizing more with
  | intro round _ ih =>
      obtain ⟨pos, s⟩ := round
      apply Settles.succ
      simp only [roundsUntil]
      have hask : Settles fun fuel => stop (fuel + 1 + more) pos s :=
        ((hstop pos s hk).add more).add 1
      refine hask.bind ?_
      rintro asked ⟨stopped, s'⟩ hs'
      cases stopped with
      | true => exact .answer _
      | false =>
          have hfirst : Settles fun fuel => m (fuel + 1 + more) pos s' :=
            ((h _ pos s s' hk hs').add more).add 1
          refine hfirst.bind ?_
          rintro fuel ⟨a, s''⟩ ha
          dsimp only
          split
          · exact .answer _
          split
          · exact .answer _
          · rename_i hok hmove
            obtain ⟨hk', hless⟩ := hnext _ _ pos s s' a s'' hk hs' ha (by simpa using hok) hmove
            have hrest := ih (a.stop, s'') hless (1 + more) hk'
            simp only [← Nat.add_assoc] at hrest
            exact hrest.andThen fun _ => ⟨_, rfl⟩

theorem nonGreedy_settles (atLeastOne : Bool) {pos : Nat} {s : σ} (hacc : Acc R (pos, s))
    (hk : K pos s) :
    Settles fun fuel => nonGreedy fuel atLeastOne (stop fuel) (m fuel) pos s := by
  refine (roundsUntil_settles hstop h hnext hacc 0 hk).andThen ?_
  rintro ⟨run, s'⟩
  dsimp only
  split
  · split <;> exact ⟨_, rfl⟩
  · exact ⟨_, rfl⟩
  · exact ⟨_, rfl⟩

end Until

end Repetition

end Matcher

end TextGrammar
