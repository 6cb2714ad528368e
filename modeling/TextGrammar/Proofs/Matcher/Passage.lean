import TextGrammar.Proofs.Matcher.Choice

/-!
# What matchers do to the state

Leaving verdicts aside, a matcher takes a state to another one.  What is put together from several
matchers passes the state through them, one after another, until one of them ends it all.
-/

namespace TextGrammar.Matcher

variable {σ ε : Type}

def Leaves (m : Matcher σ ε) (pos : Nat) (s s' : σ) : Prop := ∃ a, m pos s = some (a, s')

variable {m : Matcher σ ε} {ms : List (Matcher σ ε)} {pos fuel : Nat} {s s' : σ}

private theorem exists_bind_iff {β : Type} {x : Option (β × σ)} {f : β × σ → Option (Attempt ε × σ)}
    (hf : ∀ r t, ∃ a, f (r, t) = some (a, t)) :
    (∃ a, x.bind f = some (a, s')) ↔ ∃ r, x = some (r, s') := by
  constructor
  · rintro ⟨a, ha⟩
    obtain ⟨⟨r, t⟩, hr, ha⟩ := Option.bind_eq_some_iff.1 ha
    obtain ⟨b, hb⟩ := hf r t
    obtain ⟨-, rfl⟩ := Prod.mk.inj (Option.some.inj (hb.symm.trans ha))
    exact ⟨r, hr⟩
  · rintro ⟨r, hr⟩
    obtain ⟨a, ha⟩ := hf r s'
    exact ⟨a, by rw [hr, Option.bind_some, ha]⟩

private theorem sequence_leaves_iff :
    Leaves (sequence ms) pos s s' ↔ ∃ run, chain ms pos s = some (run, s') := by
  refine exists_bind_iff fun run t => ?_
  dsimp only
  split <;> exact ⟨_, rfl⟩

theorem sequence_nil_leaves_iff : Leaves
    (sequence ([] : List (Matcher σ ε))) pos s s' ↔ s' = s := by
  simp [sequence_leaves_iff, chain, eq_comm]

theorem sequence_cons_leaves_iff :
    Leaves (sequence (m :: ms)) pos s s' ↔ ∃ a t, m pos s = some (a, t) ∧
      (a.isSuccessful = false ∧ s' = t ∨
        a.isSuccessful = true ∧ Leaves (sequence ms) a.stop t s') := by
  simp only [sequence_leaves_iff, chain, Option.bind_eq_bind, Option.bind_eq_some_iff, Prod.exists]
  constructor
  · rintro ⟨run, a, t, ha, hrun⟩
    refine ⟨a, t, ha, ?_⟩
    cases hok : a.isSuccessful with
    | false =>
        rw [hok] at hrun
        obtain ⟨-, rfl⟩ := Prod.mk.inj (Option.some.inj hrun)
        exact .inl ⟨rfl, rfl⟩
    | true =>
        rw [hok] at hrun
        obtain ⟨⟨rest, t'⟩, hrest, heq⟩ := Option.bind_eq_some_iff.1 hrun
        obtain ⟨-, rfl⟩ := Prod.mk.inj (Option.some.inj heq)
        exact .inr ⟨rfl, rest, hrest⟩
  · rintro ⟨a, t, ha, ⟨hfail, rfl⟩ | ⟨hok, rest, hrest⟩⟩
    · exact ⟨_, a, s', ha, by rw [hfail]; rfl⟩
    · exact ⟨rest.cons a, a, t, ha, by simp [hok, hrest]⟩

theorem conjunction_leaves_iff :
    Leaves (conjunction ms) pos s s' ↔ ∃ as, attempts false ms pos s = some (as, s') :=
  exists_bind_iff fun _ _ => ⟨_, rfl⟩

theorem choice_leaves_iff {longest : Bool} :
    Leaves (choice longest ms) pos s s' ↔ ∃ as, attempts (!longest) ms pos s = some (as, s') := by
  refine exists_bind_iff fun as t => ?_
  dsimp only
  split <;> exact ⟨_, rfl⟩

theorem exists_attempts_cons_iff {untilSuccess : Bool} :
    (∃ as, attempts untilSuccess (m :: ms) pos s = some (as, s')) ↔ ∃ a t, m pos s = some (a, t) ∧
      ((untilSuccess && a.isSuccessful) = true ∧ s' = t ∨
        (untilSuccess && a.isSuccessful) = false ∧
          ∃ as, attempts untilSuccess ms pos t = some (as, s')) := by
  simp only [attempts_cons_eq_some_iff]
  constructor
  · rintro ⟨as, a, t, ha, ⟨hdone, -, rfl⟩ | ⟨hon, rest, hrest, -⟩⟩
    · exact ⟨a, _, ha, .inl ⟨hdone, rfl⟩⟩
    · exact ⟨a, t, ha, .inr ⟨hon, rest, hrest⟩⟩
  · rintro ⟨a, t, ha, ⟨hdone, rfl⟩ | ⟨hon, rest, hrest⟩⟩
    · exact ⟨[a], a, s', ha, .inl ⟨hdone, rfl, rfl⟩⟩
    · exact ⟨a :: rest, a, t, ha, .inr ⟨hon, rest, hrest, rfl⟩⟩

theorem repeating_leaves_iff {atLeastOne : Bool} :
    Leaves (repeating fuel atLeastOne m) pos s s' ↔
      ∃ run, rounds m fuel pos s = some (run, s') := by
  refine exists_bind_iff fun run t => ?_
  dsimp only
  split
  · split <;> exact ⟨_, rfl⟩
  · exact ⟨_, rfl⟩

theorem nonGreedy_leaves_iff {atLeastOne : Bool} {stop : Nat → σ → Option (Bool × σ)} :
    Leaves (nonGreedy fuel atLeastOne stop m) pos s s' ↔
      ∃ run, roundsUntil stop m fuel pos s = some (run, s') := by
  refine exists_bind_iff fun run t => ?_
  dsimp only
  split
  · split <;> exact ⟨_, rfl⟩
  · exact ⟨_, rfl⟩
  · exact ⟨_, rfl⟩

theorem exists_rounds_succ_iff :
    (∃ run, rounds m (fuel + 1) pos s = some (run, s')) ↔ ∃ a t, m pos s = some (a, t) ∧
      ((a.isSuccessful = true → a.stop = pos) ∧ s' = t ∨
        a.isSuccessful = true ∧ a.stop ≠ pos ∧ ∃ run, rounds m fuel a.stop t = some (run, s')) := by
  simp only [rounds_eq_some_iff]
  constructor
  · rintro ⟨_, a, t, ha, ⟨hfail, -, rfl⟩ | ⟨-, hstay, -, rfl⟩ | ⟨hok, hmove, rest, hrest, -⟩⟩
    · exact ⟨a, t, ha, .inl ⟨fun hok => absurd (hfail.symm.trans hok) (by decide), rfl⟩⟩
    · exact ⟨a, t, ha, .inl ⟨fun _ => hstay, rfl⟩⟩
    · exact ⟨a, t, ha, .inr ⟨hok, hmove, rest, hrest⟩⟩
  · rintro ⟨a, t, ha, ⟨hstay, rfl⟩ | ⟨hok, hmove, rest, hrest⟩⟩
    · cases hok : a.isSuccessful with
      | false => exact ⟨_, a, s', ha, .inl ⟨hok, rfl, rfl⟩⟩
      | true => exact ⟨_, a, s', ha, .inr (.inl ⟨hok, hstay hok, rfl, rfl⟩)⟩
    · exact ⟨_, a, t, ha, .inr (.inr ⟨hok, hmove, rest, hrest, rfl⟩)⟩

theorem exists_roundsUntil_succ_iff {stop : Nat → σ → Option (Bool × σ)} :
    (∃ run, roundsUntil stop m (fuel + 1) pos s = some (run, s')) ↔
      stop pos s = some (true, s') ∨ ∃ d, stop pos s = some (false, d) ∧
        ∃ a t, m pos d = some (a, t) ∧
          ((a.isSuccessful = true → a.stop = pos) ∧ s' = t ∨
            a.isSuccessful = true ∧ a.stop ≠ pos ∧
              ∃ run, roundsUntil stop m fuel a.stop t = some (run, s')) := by
  simp only [roundsUntil_eq_some_iff]
  constructor
  · rintro ⟨_, ⟨hstop, -⟩ | ⟨d, hstop, a, t, ha, hcases⟩⟩
    · exact .inl hstop
    refine .inr ⟨d, hstop, a, t, ha, ?_⟩
    rcases hcases with ⟨hfail, -, rfl⟩ | ⟨-, hstay, -, rfl⟩ | ⟨hok, hmove, rest, hrest, -⟩
    · exact .inl ⟨fun hok => absurd (hfail.symm.trans hok) (by decide), rfl⟩
    · exact .inl ⟨fun _ => hstay, rfl⟩
    · exact .inr ⟨hok, hmove, rest, hrest⟩
  · rintro (hstop | ⟨d, hstop, a, t, ha, ⟨hstay, rfl⟩ | ⟨hok, hmove, rest, hrest⟩⟩)
    · exact ⟨_, .inl ⟨hstop, rfl⟩⟩
    · cases hok : a.isSuccessful with
      | false => exact ⟨_, .inr ⟨d, hstop, a, s', ha, .inl ⟨hok, rfl, rfl⟩⟩⟩
      | true => exact ⟨_, .inr ⟨d, hstop, a, s', ha, .inr (.inl ⟨hok, hstay hok, rfl, rfl⟩)⟩⟩
    · exact ⟨_, .inr ⟨d, hstop, a, t, ha, .inr (.inr ⟨hok, hmove, rest, hrest, rfl⟩)⟩⟩

end TextGrammar.Matcher
