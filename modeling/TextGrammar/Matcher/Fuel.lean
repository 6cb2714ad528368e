import TextGrammar.Matcher

/-!
# Fuel

Giving the parts of a combinator more fuel never changes an answer: a matcher extends another one
when it repeats all of its answers, and every combinator carries this over from the parts to the
whole.
-/

namespace TextGrammar.Matcher

variable {σ ε α : Type}

def Extends (m n : Matcher σ ε) : Prop := ∀ pos s r, m pos s = some r → n pos s = some r

theorem Extends.refl (m : Matcher σ ε) : m.Extends m := fun _ _ _ h => h

private theorem chain_extends {f g : α → Matcher σ ε} (h : ∀ a, (f a).Extends (g a)) (as : List α) :
    ∀ pos s r, chain (as.map f) pos s = some r → chain (as.map g) pos s = some r := by
  induction as with
  | nil => intro pos s r hr; exact hr
  | cons a as ih =>
      intro pos s r hr
      simp only [List.map_cons, chain, Option.bind_eq_bind, Option.bind_eq_some_iff] at hr ⊢
      obtain ⟨⟨b, s'⟩, hb, hr⟩ := hr
      refine ⟨(b, s'), h a pos s _ hb, ?_⟩
      cases hok : b.isSuccessful with
      | false => simpa [hok] using hr
      | true =>
          simp only [hok, if_true, Option.bind_eq_some_iff] at hr ⊢
          obtain ⟨⟨run, s''⟩, hrun, hr⟩ := hr
          exact ⟨(run, s''), ih _ _ _ hrun, hr⟩

theorem attempts_extends {f g : α → Matcher σ ε} (h : ∀ a, (f a).Extends (g a))
    (untilSuccess : Bool) (as : List α) :
    ∀ pos s r, attempts untilSuccess (as.map f) pos s = some r →
      attempts untilSuccess (as.map g) pos s = some r := by
  induction as with
  | nil => intro pos s r hr; exact hr
  | cons a as ih =>
      intro pos s r hr
      simp only [List.map_cons, attempts, Option.bind_eq_bind, Option.bind_eq_some_iff] at hr ⊢
      obtain ⟨⟨b, s'⟩, hb, hr⟩ := hr
      refine ⟨(b, s'), h a pos s _ hb, ?_⟩
      cases hok : (untilSuccess && b.isSuccessful) with
      | true => simpa [hok] using hr
      | false =>
          simp only [hok, Bool.false_eq_true, if_false, Option.bind_eq_some_iff] at hr ⊢
          obtain ⟨⟨bs, s''⟩, hbs, hr⟩ := hr
          exact ⟨(bs, s''), ih _ _ _ hbs, hr⟩

theorem sequence_extends {f g : α → Matcher σ ε} (h : ∀ a, (f a).Extends (g a)) (as : List α) :
    (sequence (as.map f)).Extends (sequence (as.map g)) := by
  intro pos s r hr
  simp only [sequence, Option.bind_eq_bind, Option.bind_eq_some_iff] at hr ⊢
  obtain ⟨x, hx, hr⟩ := hr
  exact ⟨x, chain_extends h as pos s x hx, hr⟩

theorem choice_extends {f g : α → Matcher σ ε} (h : ∀ a, (f a).Extends (g a)) (longest : Bool)
    (as : List α) : (choice longest (as.map f)).Extends (choice longest (as.map g)) := by
  intro pos s r hr
  simp only [choice, Option.bind_eq_bind, Option.bind_eq_some_iff] at hr ⊢
  obtain ⟨x, hx, hr⟩ := hr
  exact ⟨x, attempts_extends h _ as pos s x hx, hr⟩

theorem conjunction_extends {f g : α → Matcher σ ε} (h : ∀ a, (f a).Extends (g a))
    (as : List α) : (conjunction (as.map f)).Extends (conjunction (as.map g)) := by
  intro pos s r hr
  simp only [conjunction, Option.bind_eq_bind, Option.bind_eq_some_iff] at hr ⊢
  obtain ⟨x, hx, hr⟩ := hr
  exact ⟨x, attempts_extends h _ as pos s x hx, hr⟩

theorem optional_extends {m n : Matcher σ ε} (h : m.Extends n) :
    (optional m).Extends (optional n) := by
  intro pos s r hr
  simp only [optional, Option.bind_eq_bind, Option.bind_eq_some_iff] at hr ⊢
  obtain ⟨x, hx, hr⟩ := hr
  exact ⟨x, h pos s x hx, hr⟩

theorem onSuccess_extends {m n : Matcher σ ε} (h : m.Extends n)
    (update : Nat → Attempt ε → σ → σ) : (m.onSuccess update).Extends (n.onSuccess update) := by
  intro pos s r hr
  simp only [onSuccess, Option.bind_eq_bind, Option.bind_eq_some_iff] at hr ⊢
  obtain ⟨x, hx, hr⟩ := hr
  exact ⟨x, h pos s x hx, hr⟩

theorem before_extends {m n : Matcher σ ε} (h : m.Extends n) (update : σ → σ) :
    (before update m).Extends (before update n) := fun pos s r hr => h pos (update s) r hr

theorem resolved_extends {target target' : σ → Except String (Matcher σ ε)}
    (h : ∀ s, (∃ e, target s = .error e ∧ target' s = .error e) ∨
      ∃ m n, target s = .ok m ∧ target' s = .ok n ∧ m.Extends n) :
    (resolved target).Extends (resolved target') := by
  intro pos s r hr
  rcases h s with ⟨e, he, he'⟩ | ⟨m, n, hm, hn, hmn⟩
  · simpa [resolved, he, he'] using hr
  · simp only [resolved, hm] at hr
    simpa [resolved, hn] using hmn pos s r hr

theorem rounds_extends {m n : Matcher σ ε} (h : m.Extends n) {fuel fuel' : Nat}
    (hf : fuel ≤ fuel') :
    ∀ pos s r, rounds m fuel pos s = some r → rounds n fuel' pos s = some r := by
  induction fuel generalizing fuel' with
  | zero => intro pos s r hr; exact absurd hr nofun
  | succ fuel ih =>
      obtain ⟨more, rfl⟩ : ∃ more, fuel' = more + 1 := ⟨fuel' - 1, by omega⟩
      intro pos s r hr
      simp only [rounds, Option.bind_eq_bind, Option.bind_eq_some_iff] at hr ⊢
      obtain ⟨⟨a, s'⟩, ha, hr⟩ := hr
      refine ⟨(a, s'), h pos s _ ha, ?_⟩
      split at hr
      · rename_i hok
        rw [if_pos hok]
        exact hr
      · rename_i hok
        rw [if_neg hok]
        split at hr
        · rename_i hstop
          rw [if_pos hstop]
          exact hr
        · rename_i hstop
          rw [if_neg hstop]
          simp only [Option.bind_eq_some_iff] at hr ⊢
          obtain ⟨x, hx, hr⟩ := hr
          exact ⟨x, ih (by omega) _ _ _ hx, hr⟩

theorem roundsUntil_extends {m n : Matcher σ ε} (h : m.Extends n)
    {stop stop' : Nat → σ → Option (Bool × σ)}
    (hs : ∀ pos s r, stop pos s = some r → stop' pos s = some r) {fuel fuel' : Nat}
    (hf : fuel ≤ fuel') :
    ∀ pos s r, roundsUntil stop m fuel pos s = some r →
      roundsUntil stop' n fuel' pos s = some r := by
  induction fuel generalizing fuel' with
  | zero => intro pos s r hr; exact absurd hr nofun
  | succ fuel ih =>
      obtain ⟨more, rfl⟩ : ∃ more, fuel' = more + 1 := ⟨fuel' - 1, by omega⟩
      intro pos s r hr
      simp only [roundsUntil, Option.bind_eq_bind, Option.bind_eq_some_iff] at hr ⊢
      obtain ⟨⟨stopped, s₀⟩, hstopped, hr⟩ := hr
      refine ⟨(stopped, s₀), hs pos s _ hstopped, ?_⟩
      cases stopped with
      | true => exact hr
      | false =>
          simp only [Bool.false_eq_true, if_false, Option.bind_eq_some_iff] at hr ⊢
          obtain ⟨⟨a, s'⟩, ha, hr⟩ := hr
          refine ⟨(a, s'), h pos s₀ _ ha, ?_⟩
          split at hr
          · rename_i hok
            rw [if_pos hok]
            exact hr
          · rename_i hok
            rw [if_neg hok]
            split at hr
            · rename_i hstop
              rw [if_pos hstop]
              exact hr
            · rename_i hstop
              rw [if_neg hstop]
              simp only [Option.bind_eq_some_iff] at hr ⊢
              obtain ⟨x, hx, hr⟩ := hr
              exact ⟨x, ih (by omega) _ _ _ hx, hr⟩

theorem repeating_extends {m n : Matcher σ ε} (h : m.Extends n) {fuel fuel' : Nat}
    (hf : fuel ≤ fuel') (atLeastOne : Bool) :
    (repeating fuel atLeastOne m).Extends (repeating fuel' atLeastOne n) := by
  intro pos s r hr
  simp only [repeating, Option.bind_eq_bind, Option.bind_eq_some_iff] at hr ⊢
  obtain ⟨x, hx, hr⟩ := hr
  exact ⟨x, rounds_extends h hf pos s x hx, hr⟩

theorem nonGreedy_extends {m n : Matcher σ ε} (h : m.Extends n)
    {stop stop' : Nat → σ → Option (Bool × σ)}
    (hs : ∀ pos s r, stop pos s = some r → stop' pos s = some r) {fuel fuel' : Nat}
    (hf : fuel ≤ fuel') (atLeastOne : Bool) :
    (nonGreedy fuel atLeastOne stop m).Extends (nonGreedy fuel' atLeastOne stop' n) := by
  intro pos s r hr
  simp only [nonGreedy, Option.bind_eq_bind, Option.bind_eq_some_iff] at hr ⊢
  obtain ⟨x, hx, hr⟩ := hr
  exact ⟨x, roundsUntil_extends h hs hf pos s x hx, hr⟩

end TextGrammar.Matcher
