import Mathlib.Data.List.Induction
import TextGrammar.Proofs.Matcher.Invariant
import TextGrammar.Proofs.Matcher.Stepwise

/-!
# Choosing between alternatives

Alternatives are tried at one offset, each in the state that the one before it left.  A choice of
the first ends with an alternative that matches.  A choice of the furthest tries them all, and takes
the first of those that reach furthest.  So the two match in the same places, and where they do not
match they cannot be told apart.
-/

namespace TextGrammar.Matcher

variable {σ ε α ρ : Type}

/-- Each is tried in the state that the one before it left. -/
inductive InTurn (step : α → σ → ρ → σ → Prop) : List α → σ → List ρ → σ → Prop where
  | nil (s : σ) : InTurn step [] s [] s
  | cons {a : α} {as : List α} {s s' t : σ} {r : ρ} {rs : List ρ} :
      step a s r s' → InTurn step as s' rs t → InTurn step (a :: as) s (r :: rs) t

def Decided (step : α → σ → ρ → σ → Prop) : Prop :=
  ∀ ⦃a : α⦄ ⦃s t t' : σ⦄ ⦃r r' : ρ⦄, step a s r t → step a s r' t' → r = r' ∧ t = t'

namespace InTurn

variable {step : α → σ → ρ → σ → Prop} {as front back : List α} {a : α} {s t t' u : σ}
  {r : ρ} {rs rs' before after : List ρ}

theorem split (h : InTurn step as s (before ++ r :: after) t) :
    ∃ front a back u u', as = front ++ a :: back ∧ InTurn step front s before u ∧
      step a u r u' ∧ InTurn step back u' after t := by
  induction before generalizing as s with
  | nil =>
      cases h with
      | cons hstep hrest => exact ⟨[], _, _, s, _, rfl, .nil s, hstep, hrest⟩
  | cons q before ih =>
      cases h with
      | cons hstep hrest =>
          obtain ⟨front, a, back, u, u', rfl, hfront, ha, hback⟩ := ih hrest
          exact ⟨_ :: front, a, back, u, u', rfl, .cons hstep hfront, ha, hback⟩

theorem behind (hstep : Decided step) (h : InTurn step (front ++ back) s rs t)
    (hfront : InTurn step front s before u) :
    ∃ after, rs = before ++ after ∧ InTurn step back u after t := by
  induction hfront generalizing rs with
  | nil => exact ⟨rs, rfl, h⟩
  | cons ha _ ih =>
      cases h with
      | cons ha' hrest =>
          obtain ⟨rfl, rfl⟩ := hstep ha ha'
          obtain ⟨after, rfl, hafter⟩ := ih hrest
          exact ⟨after, rfl, hafter⟩

theorem unique (hstep : Decided step) (h : InTurn step as s rs t) (h' : InTurn step as s rs' t') :
    rs = rs' ∧ t = t' := by
  rw [← List.append_nil as] at h'
  obtain ⟨after, rfl, hafter⟩ := behind hstep h' h
  cases hafter
  exact ⟨(List.append_nil rs).symm, rfl⟩

end InTurn

/-! ## Two choices -/

section Choices

variable (verdict : ρ → Verdict)

structure IsFurthest (before : List ρ) (r : ρ) (after : List ρ) : Prop where
  matched : (verdict r).isSuccessful = true
  before : ∀ q ∈ before, (verdict q).isSuccessful = true → (verdict q).stop < (verdict r).stop
  after : ∀ q ∈ after, (verdict q).isSuccessful = true → (verdict q).stop ≤ (verdict r).stop

variable (step : α → σ → ρ → σ → Prop) (failure : List ρ → ρ)

inductive FirstOf (as : List α) (s : σ) : ρ → σ → Prop where
  | matched {front : List α} {a : α} {back : List α} {qs : List ρ} {r : ρ} {u t : σ} :
      as = front ++ a :: back → InTurn step front s qs u →
      (∀ q ∈ qs, (verdict q).isSuccessful = false) → step a u r t →
      (verdict r).isSuccessful = true → FirstOf as s r t
  | failed {qs : List ρ} {t : σ} : InTurn step as s qs t →
      (∀ q ∈ qs, (verdict q).isSuccessful = false) → FirstOf as s (failure qs) t

/-- All alternatives are tried, and the first of those that reach furthest is taken. -/
inductive FurthestOf (as : List α) (s : σ) : ρ → σ → Prop where
  | matched {before : List ρ} {r : ρ} {after : List ρ} {t : σ} :
      InTurn step as s (before ++ r :: after) t → IsFurthest verdict before r after →
      FurthestOf as s r t
  | failed {qs : List ρ} {t : σ} : InTurn step as s qs t →
      (∀ q ∈ qs, (verdict q).isSuccessful = false) → FurthestOf as s (failure qs) t

end Choices

section Compare

variable {verdict : ρ → Verdict} {step : α → σ → ρ → σ → Prop} {failure : List ρ → ρ}
  {as : List α} {s t t' : σ} {r r' : ρ} {before before' after after' qs : List ρ}

theorem IsFurthest.not_lost (h : IsFurthest verdict before r (after ++ r' :: after'))
    (h' : IsFurthest verdict (before' ++ r :: after) r' after') : False := by
  have hle := h.after r' (by simp) h'.matched
  have hlt := h'.before r (by simp) h.matched
  omega

theorem IsFurthest.unique (h : IsFurthest verdict before r after)
    (h' : IsFurthest verdict before' r' after')
    (heq : before ++ r :: after = before' ++ r' :: after') :
    before = before' ∧ r = r' ∧ after = after' := by
  rcases List.append_eq_append_iff.1 heq with ⟨between, rfl, hrest⟩ | ⟨between, rfl, hrest⟩
  · cases between with
    | nil =>
        obtain ⟨rfl, rfl⟩ := List.cons.inj hrest
        exact ⟨by simp, rfl, rfl⟩
    | cons q between =>
        obtain ⟨rfl, rfl⟩ := List.cons.inj hrest
        exact (h.not_lost h').elim
  · cases between with
    | nil =>
        obtain ⟨rfl, rfl⟩ := List.cons.inj hrest
        exact ⟨by simp, rfl, rfl⟩
    | cons q between =>
        obtain ⟨rfl, rfl⟩ := List.cons.inj hrest
        exact (h'.not_lost h).elim

theorem IsFurthest.stop_le (h : IsFurthest verdict before r after) :
    ∀ q ∈ before ++ r :: after, (verdict q).isSuccessful = true →
      (verdict q).stop ≤ (verdict r).stop := by
  intro q hq hok
  rcases List.mem_append.1 hq with hbefore | hafter
  · exact Nat.le_of_lt (h.before q hbefore hok)
  · rcases List.mem_cons.1 hafter with rfl | hafter
    · exact Nat.le_refl _
    · exact h.after q hafter hok

theorem FurthestOf.inTurn (h : FurthestOf verdict step failure as s r t) :
    ∃ rs, InTurn step as s rs t := by
  cases h with
  | matched hturn _ => exact ⟨_, hturn⟩
  | failed hturn _ => exact ⟨_, hturn⟩

theorem IsFurthest.not_failed (h : IsFurthest verdict before r after)
    (hfails : ∀ q ∈ before ++ r :: after, (verdict q).isSuccessful = false) : False := by
  have hfail := hfails r (List.mem_append_right _ List.mem_cons_self)
  exact absurd (hfail.symm.trans h.matched) (by decide)

theorem FurthestOf.unique (hstep : Decided step) (h : FurthestOf verdict step failure as s r t)
    (h' : FurthestOf verdict step failure as s r' t') : r = r' ∧ t = t' := by
  cases h with
  | matched hturn hfurthest =>
      cases h' with
      | matched hturn' hfurthest' =>
          obtain ⟨heq, rfl⟩ := hturn.unique hstep hturn'
          exact ⟨(hfurthest.unique hfurthest' heq).2.1, rfl⟩
      | failed hturn' hfails =>
          obtain ⟨rfl, -⟩ := hturn.unique hstep hturn'
          exact (hfurthest.not_failed hfails).elim
  | failed hturn hfails =>
      cases h' with
      | matched hturn' hfurthest =>
          obtain ⟨rfl, -⟩ := hturn.unique hstep hturn'
          exact (hfurthest.not_failed hfails).elim
      | failed hturn' _ =>
          obtain ⟨rfl, rfl⟩ := hturn.unique hstep hturn'
          exact ⟨rfl, rfl⟩

theorem FirstOf.cons {a : α} {q : ρ} {u : σ} (ha : step a s q u)
    (hfail : (verdict q).isSuccessful = false) (h : FirstOf verdict step failure as u r t) :
    ∃ r', FirstOf verdict step failure (a :: as) s r' t := by
  cases h with
  | @matched front b back _ _ _ _ has hfront hfails hb hok =>
      have has' : a :: as = (a :: front) ++ b :: back := congrArg (a :: ·) has
      exact ⟨r, .matched has' (.cons ha hfront) (List.forall_mem_cons.2 ⟨hfail, hfails⟩) hb hok⟩
  | failed hturn hfails =>
      exact ⟨_, .failed (.cons ha hturn) (List.forall_mem_cons.2 ⟨hfail, hfails⟩)⟩

theorem InTurn.exists_firstOf {rs : List ρ} (h : InTurn step as s rs t) :
    ∃ r u, FirstOf verdict step failure as s r u := by
  induction h with
  | nil s => exact ⟨_, s, .failed (.nil s) (List.forall_mem_nil _)⟩
  | @cons a as s s' t q rs ha _ ih =>
      cases hok : (verdict q).isSuccessful with
      | true =>
          have has : a :: as = [] ++ a :: as := rfl
          exact ⟨q, s', .matched has (.nil s) (List.forall_mem_nil _) ha hok⟩
      | false =>
          obtain ⟨r, u, hfirst⟩ := ih
          obtain ⟨r', hfirst'⟩ := hfirst.cons ha hok
          exact ⟨r', u, hfirst'⟩

theorem FirstOf.furthestOf_iff (hfail : (verdict r).isSuccessful = false) :
    FirstOf verdict step failure as s r t ↔ FurthestOf verdict step failure as s r t := by
  constructor
  · intro h
    cases h with
    | matched _ _ _ _ hok => exact absurd (hfail.symm.trans hok) (by decide)
    | failed hturn hfails => exact .failed hturn hfails
  · intro h
    cases h with
    | matched _ hfurthest => exact absurd (hfail.symm.trans hfurthest.matched) (by decide)
    | failed hturn hfails => exact .failed hturn hfails

theorem FirstOf.le_furthest (hfailure : ∀ qs, (verdict (failure qs)).isSuccessful = false)
    (hstep : Decided step) (h : FirstOf verdict step failure as s r t)
    (h' : FurthestOf verdict step failure as s r' t') :
    (verdict r).isSuccessful = (verdict r').isSuccessful ∧
      ((verdict r).isSuccessful = true → (verdict r).stop ≤ (verdict r').stop) := by
  cases h with
  | matched has hfront _ ha hok =>
      subst has
      obtain ⟨rs, hturn⟩ := h'.inTurn
      obtain ⟨after, rfl, hback⟩ := hturn.behind hstep hfront
      cases hback with
      | cons ha' hback =>
          obtain ⟨rfl, rfl⟩ := hstep ha ha'
          cases h' with
          | matched hturn' hfurthest =>
              obtain ⟨heq, -⟩ := hturn.unique hstep hturn'
              have hmem := heq ▸ List.mem_append_right _ List.mem_cons_self
              exact ⟨hok.trans hfurthest.matched.symm, fun _ => hfurthest.stop_le _ hmem hok⟩
          | failed hturn' hfails =>
              obtain ⟨rfl, -⟩ := hturn.unique hstep hturn'
              have hfail := hfails r (List.mem_append_right _ List.mem_cons_self)
              exact absurd (hfail.symm.trans hok) (by decide)
  | failed hturn hfails =>
      cases h' with
      | matched hturn' hfurthest =>
          obtain ⟨rfl, -⟩ := hturn.unique hstep hturn'
          exact (hfurthest.not_failed hfails).elim
      | failed =>
          refine ⟨by rw [hfailure, hfailure], fun hok => ?_⟩
          rw [hfailure] at hok
          cases hok

end Compare

/-! ## The best of several attempts -/

section Best

private theorem isFurthest_snoc {as : List (Attempt ε)} {b : Attempt ε}
    (hfails : ∀ a ∈ as, a.isSuccessful = false) (hok : b.isSuccessful = true) :
    IsFurthest Attempt.verdict as b [] where
  matched := hok
  before a ha hmatched := absurd ((hfails a ha).symm.trans hmatched) (by decide)
  after := List.forall_mem_nil _

private theorem best_snoc (as : List (Attempt ε)) (b : Attempt ε) :
    Attempt.best (as ++ [b]) = Attempt.better (Attempt.best as) b := by
  simp [Attempt.best]

private theorem isFurthest_of_best {as : List (Attempt ε)} {b : Attempt ε}
    (h : Attempt.best as = some b) :
    ∃ before after, as = before ++ b :: after ∧ IsFurthest Attempt.verdict before b after := by
  -- Along the list as it is gone through, so from its end.
  induction as using List.reverseRecOn generalizing b with
  | nil => cases h
  | append_singleton as a ih =>
      rw [best_snoc] at h
      cases hok : a.isSuccessful with
      | false =>
          have hbest : Attempt.best as = some b := by simpa [Attempt.better, hok] using h
          obtain ⟨before, after, rfl, hfurthest⟩ := ih hbest
          refine ⟨before, after ++ [a], by simp, hfurthest.matched, hfurthest.before, ?_⟩
          refine List.forall_mem_append.2
            ⟨hfurthest.after, List.forall_mem_singleton.2 fun hok' => ?_⟩
          exact absurd (hok.symm.trans hok') (by decide)
      | true =>
          cases hbest : Attempt.best as with
          | none =>
              obtain rfl : a = b := by simpa [Attempt.better, hok, hbest] using h
              exact ⟨as, [], rfl, isFurthest_snoc (Attempt.isSuccessful_of_best_eq_none hbest) hok⟩
          | some c =>
              obtain ⟨before, after, rfl, hfurthest⟩ := ih hbest
              by_cases hlt : c.stop < a.stop
              · obtain rfl : a = b := by simpa [Attempt.better, hok, hbest, hlt] using h
                refine ⟨_, [], rfl, hok, fun q hq hmatched => ?_, List.forall_mem_nil _⟩
                exact Nat.lt_of_le_of_lt (hfurthest.stop_le q hq hmatched) hlt
              · obtain rfl : c = b := by simpa [Attempt.better, hok, hbest, hlt] using h
                refine ⟨before, after ++ [a], by simp, hfurthest.matched, hfurthest.before, ?_⟩
                exact List.forall_mem_append.2 ⟨hfurthest.after,
                  List.forall_mem_singleton.2 fun _ => Nat.le_of_not_lt hlt⟩

private theorem best_eq_none {as : List (Attempt ε)} (h : ∀ a ∈ as, a.isSuccessful = false) :
    Attempt.best as = none := by
  cases hbest : Attempt.best as with
  | none => rfl
  | some b =>
      obtain ⟨before, after, rfl, hfurthest⟩ := isFurthest_of_best hbest
      exact (hfurthest.not_failed h).elim

private theorem best_snoc_of_failed {as : List (Attempt ε)} {b : Attempt ε}
    (h : ∀ a ∈ as, a.isSuccessful = false) (hok : b.isSuccessful = true) :
    Attempt.best (as ++ [b]) = some b := by
  rw [best_snoc, best_eq_none h]
  simp [Attempt.better, hok]

end Best

/-! ## Attempts at one offset -/

theorem attempts_cons_eq_some_iff {untilSuccess : Bool} {m : Matcher σ ε} {ms : List (Matcher σ ε)}
    {start : Nat} {s t : σ} {bs : List (Attempt ε)} :
    attempts untilSuccess (m :: ms) start s = some (bs, t) ↔ ∃ b s', m start s = some (b, s') ∧
      ((untilSuccess && b.isSuccessful) = true ∧ bs = [b] ∧ t = s' ∨
        (untilSuccess && b.isSuccessful) = false ∧
          ∃ cs, attempts untilSuccess ms start s' = some (cs, t) ∧ bs = b :: cs) := by
  simp only [attempts, Option.bind_eq_bind, Option.bind_eq_some_iff, Prod.exists]
  refine exists_congr fun b => exists_congr fun s' => and_congr_right fun _ => ?_
  cases hdone : untilSuccess && b.isSuccessful with
  | true => simp [@eq_comm _ bs, @eq_comm _ t]
  | false => simp [Option.bind_eq_some_iff, @eq_comm _ bs]

private theorem attempts_until_iff {g : α → Matcher σ ε} {as : List α} {start : Nat} {s t : σ}
    {bs : List (Attempt ε)} :
    attempts true (as.map g) start s = some (bs, t) ↔
      attempts false (as.map g) start s = some (bs, t) ∧ (∀ b ∈ bs, b.isSuccessful = false) ∨
      ∃ front a back cs b u, as = front ++ a :: back ∧
        attempts false (front.map g) start s = some (cs, u) ∧ (∀ c ∈ cs, c.isSuccessful = false) ∧
        g a start u = some (b, t) ∧ b.isSuccessful = true ∧ bs = cs ++ [b] := by
  induction as generalizing s bs with
  | nil =>
      constructor
      · intro h
        obtain ⟨rfl, rfl⟩ := Prod.mk.inj (Option.some.inj h)
        exact .inl ⟨rfl, List.forall_mem_nil _⟩
      · rintro (⟨h, -⟩ | ⟨front, a, back, _, _, _, has, -⟩)
        · exact h
        · simp at has
  | cons a as ih =>
      rw [List.map_cons, attempts_cons_eq_some_iff, attempts_cons_eq_some_iff]
      constructor
      · rintro ⟨b, s', hb, ⟨hok, rfl, rfl⟩ | ⟨hfail, cs, hcs, rfl⟩⟩
        · exact .inr ⟨[], a, as, [], b, s, rfl, rfl, List.forall_mem_nil _, hb, hok, rfl⟩
        · rcases ih.1 hcs with ⟨hall, hfails⟩ | ⟨front, a', back, ds, d, u, rfl, hfront, hfails, hd⟩
          · exact .inl ⟨⟨b, s', hb, .inr ⟨rfl, cs, hall, rfl⟩⟩,
              List.forall_mem_cons.2 ⟨hfail, hfails⟩⟩
          · obtain ⟨hgives, hok, rfl⟩ := hd
            refine .inr ⟨a :: front, a', back, b :: ds, d, u, rfl, ?_,
              List.forall_mem_cons.2 ⟨hfail, hfails⟩, hgives, hok, rfl⟩
            exact attempts_cons_eq_some_iff.2 ⟨b, s', hb, .inr ⟨rfl, ds, hfront, rfl⟩⟩
      · rintro (⟨⟨b, s', hb, ⟨hdone, -⟩ | ⟨-, cs, hcs, rfl⟩⟩, hfails⟩ |
          ⟨front, a', back, ds, d, u, has, hfront, hfails, hd, hok, rfl⟩)
        · cases hdone
        · obtain ⟨hfail, hrest⟩ := List.forall_mem_cons.1 hfails
          exact ⟨b, s', hb, .inr ⟨hfail, cs, ih.2 (.inl ⟨hcs, hrest⟩), rfl⟩⟩
        cases front with
        | nil =>
            obtain ⟨rfl, rfl⟩ := List.cons.inj has
            obtain ⟨rfl, rfl⟩ := Prod.mk.inj (Option.some.inj hfront)
            exact ⟨d, t, hd, .inl ⟨hok, rfl, rfl⟩⟩
        | cons a'' front =>
            obtain ⟨rfl, rfl⟩ := List.cons.inj has
            obtain ⟨b, s', hb, ⟨hdone, -⟩ | ⟨-, cs, hcs, rfl⟩⟩ := attempts_cons_eq_some_iff.1 hfront
            · cases hdone
            obtain ⟨hfail, hrest⟩ := List.forall_mem_cons.1 hfails
            exact ⟨b, s', hb, .inr ⟨hfail, cs ++ [d],
              ih.2 (.inr ⟨front, a', back, cs, d, u, rfl, hcs, hrest, hd, hok, rfl⟩), rfl⟩⟩

def Shows (present : Attempt ε → ρ) (m : Nat → Matcher σ ε) (pos : Nat) (s : σ) (r : ρ)
    (s' : σ) : Prop := ∃ fuel a, m fuel pos s = some (a, s') ∧ present a = r

section Laws

variable {f : Nat → α → Matcher σ ε} (hf : ∀ a pos s, Steady fun fuel => f fuel a pos s)
  {present : Attempt ε → ρ} {start : Nat} {as : List α} {s t : σ} {rs : List ρ}

abbrev trying (f : Nat → α → Matcher σ ε) (present : Attempt ε → ρ) (start : Nat) (a : α) :
    σ → ρ → σ → Prop := Shows present (fun fuel => f fuel a) start

include hf in
private theorem attempts_steady (untilSuccess : Bool) (as : List α) (pos : Nat) (s : σ) :
    Steady fun fuel => attempts untilSuccess (as.map (f fuel)) pos s :=
  fun _ _ hle => attempts_extends (fun a pos s => hf a pos s hle) untilSuccess as pos s

include hf in
private theorem trying_decided : Decided (trying f present start) := by
  rintro a s t t' _ _ ⟨fuel, b, hb, rfl⟩ ⟨fuel', c, hc, rfl⟩
  obtain ⟨rfl, rfl⟩ := Prod.mk.inj ((hf a start s).unique ⟨fuel, hb⟩ ⟨fuel', hc⟩)
  exact ⟨rfl, rfl⟩

private theorem inTurn_of_attempts {fuel : Nat} {bs : List (Attempt ε)}
    (h : attempts false (as.map (f fuel)) start s = some (bs, t)) :
    InTurn (trying f present start) as s (bs.map present) t := by
  induction as generalizing s bs with
  | nil =>
      obtain ⟨rfl, rfl⟩ := Prod.mk.inj (Option.some.inj h)
      exact .nil s
  | cons a as ih =>
      obtain ⟨b, s', hb, ⟨hdone, -⟩ | ⟨-, cs, hcs, rfl⟩⟩ := attempts_cons_eq_some_iff.1 h
      · cases hdone
      · exact .cons ⟨fuel, b, hb, rfl⟩ (ih hcs)

include hf in
private theorem attempts_of_inTurn (h : InTurn (trying f present start) as s rs t) :
    ∃ fuel bs, attempts false (as.map (f fuel)) start s = some (bs, t) ∧ bs.map present = rs := by
  induction h with
  | nil s => exact ⟨0, [], rfl, rfl⟩
  | @cons a as s s' t r rs ha _ ih =>
      obtain ⟨fuel, b, hb, rfl⟩ := ha
      obtain ⟨fuel', bs, hbs, rfl⟩ := ih
      obtain ⟨more, hb, hbs⟩ := (hf a _ _).together (attempts_steady hf false as _ _) hb hbs
      exact ⟨more, b :: bs, attempts_cons_eq_some_iff.2 ⟨b, s', hb, .inr ⟨rfl, bs, hbs, rfl⟩⟩, rfl⟩

end Laws

theorem conjunction_gives_iff {f : Nat → α → Matcher σ ε}
    (hf : ∀ a pos s, Steady fun fuel => f fuel a pos s)
    {as : List α} {start : Nat} {s t : σ} {v : Verdict} :
    Gives (fun fuel => conjunction (as.map (f fuel))) start s v t ↔
      ∃ vs, InTurn (trying f Attempt.verdict start) as s vs t ∧ v = agreement start vs := by
  constructor
  · rintro ⟨fuel, a, ha, rfl⟩
    simp only [conjunction, Option.bind_eq_bind, Option.bind_eq_some_iff, Prod.exists,
      Option.some.injEq, Prod.mk.injEq] at ha
    obtain ⟨bs, t', hbs, rfl, rfl⟩ := ha
    exact ⟨bs.map Attempt.verdict, inTurn_of_attempts hbs, rfl⟩
  · rintro ⟨_, hturn, rfl⟩
    obtain ⟨fuel, bs, hbs, rfl⟩ := attempts_of_inTurn hf hturn
    have ha : conjunction (as.map (f fuel)) start s =
        some (⟨[], agreement start (bs.map Attempt.verdict)⟩, t) := by
      rw [conjunction.eq_1, hbs]
      rfl
    exact ⟨fuel, _, ha, rfl⟩

section Choice

def taken (start : Nat) (bs : List (Attempt ε)) : Attempt ε :=
  (Attempt.best bs).getD
    (.failed (.syntaxError "No alternative matched" start (bs.map Attempt.verdict)))

private theorem choice_eq_some_iff {longest : Bool} {ms : List (Matcher σ ε)} {start : Nat}
    {s t : σ} {b : Attempt ε} :
    choice longest ms start s = some (b, t) ↔
      ∃ bs, attempts (!longest) ms start s = some (bs, t) ∧ taken start bs = b := by
  simp only [choice, Option.bind_eq_bind, Option.bind_eq_some_iff, Prod.exists]
  refine exists_congr fun bs => ?_
  cases hbest : Attempt.best bs with
  | none => simp [taken, hbest, and_comm]
  | some c => simp [taken, hbest, and_comm]

/-- How attempts at an offset look: each has a verdict, and there is one for a choice of which
nothing matched. -/
structure Presents (present : Attempt ε → ρ) (verdict : ρ → Verdict) (start : Nat)
    (failure : List ρ → ρ) : Prop where
  verdict_eq : ∀ a, verdict (present a) = a.verdict
  failure_eq : ∀ bs : List (Attempt ε), failure (bs.map present) =
    present (.failed (.syntaxError "No alternative matched" start (bs.map Attempt.verdict)))
  failure_fails : ∀ qs, (verdict (failure qs)).isSuccessful = false

variable {f : Nat → α → Matcher σ ε} {present : Attempt ε → ρ} {verdict : ρ → Verdict}
  {start : Nat} {failure : List ρ → ρ} (hpresents : Presents present verdict start failure)
  {as : List α} {s t : σ} {r : ρ} {bs : List (Attempt ε)}

include hpresents

private theorem forall_mem_map_failed (h : ∀ b ∈ bs, b.isSuccessful = false) :
    ∀ q ∈ bs.map present, (verdict q).isSuccessful = false := by
  refine List.forall_mem_map.2 fun b hb => ?_
  rw [hpresents.verdict_eq]
  exact h b hb

private theorem furthestOf_of_attempts {fuel : Nat}
    (h : attempts false (as.map (f fuel)) start s = some (bs, t)) :
    FurthestOf verdict (trying f present start) failure as s (present (taken start bs)) t := by
  have hturn : InTurn (trying f present start) as s (bs.map present) t := inTurn_of_attempts h
  unfold taken
  cases hbest : Attempt.best bs with
  | none =>
      have hfails := Attempt.isSuccessful_of_best_eq_none hbest
      rw [Option.getD_none, ← hpresents.failure_eq]
      exact .failed hturn (forall_mem_map_failed hpresents hfails)
  | some b =>
      obtain ⟨before, after, rfl, hfurthest⟩ := isFurthest_of_best hbest
      rw [List.map_append, List.map_cons] at hturn
      refine .matched hturn ⟨?_, ?_, ?_⟩
      · rw [hpresents.verdict_eq]
        exact hfurthest.matched
      · refine List.forall_mem_map.2 fun c hc => ?_
        rw [hpresents.verdict_eq, hpresents.verdict_eq]
        exact hfurthest.before c hc
      · refine List.forall_mem_map.2 fun c hc => ?_
        rw [hpresents.verdict_eq, hpresents.verdict_eq]
        exact hfurthest.after c hc

private theorem firstOf_of_attempts {fuel : Nat}
    (h : attempts true (as.map (f fuel)) start s = some (bs, t)) :
    FirstOf verdict (trying f present start) failure as s (present (taken start bs)) t := by
  rcases attempts_until_iff.1 h with
    ⟨hall, hfails⟩ | ⟨front, a, back, cs, b, u, has, hfront, hfails, hb, hok, rfl⟩
  · rw [taken, best_eq_none hfails, Option.getD_none, ← hpresents.failure_eq]
    exact .failed (inTurn_of_attempts hall) (forall_mem_map_failed hpresents hfails)
  · rw [taken, best_snoc_of_failed hfails hok, Option.getD_some]
    refine .matched has (inTurn_of_attempts hfront) (forall_mem_map_failed hpresents hfails)
      ⟨fuel, b, hb, rfl⟩ ?_
    rw [hpresents.verdict_eq]
    exact hok

variable (hf : ∀ a pos s, Steady fun fuel => f fuel a pos s)

include hf

theorem furthest_shows_iff :
    Shows present (fun fuel => choice true (as.map (f fuel))) start s r t ↔
      FurthestOf verdict (trying f present start) failure as s r t := by
  constructor
  · rintro ⟨fuel, b, hb, rfl⟩
    obtain ⟨bs, hbs, rfl⟩ := choice_eq_some_iff.1 hb
    exact furthestOf_of_attempts hpresents hbs
  · intro h
    obtain ⟨rs, hturn⟩ := h.inTurn
    obtain ⟨fuel, bs, hbs, -⟩ := attempts_of_inTurn hf hturn
    have htaken := furthestOf_of_attempts hpresents hbs
    obtain ⟨rfl, -⟩ := h.unique (trying_decided hf) htaken
    exact ⟨fuel, taken start bs, choice_eq_some_iff.2 ⟨bs, hbs, rfl⟩, rfl⟩

theorem first_shows_iff :
    Shows present (fun fuel => choice false (as.map (f fuel))) start s r t ↔
      FirstOf verdict (trying f present start) failure as s r t := by
  have hfailed {cs : List (Attempt ε)}
      (h : ∀ q ∈ cs.map present, (verdict q).isSuccessful = false) :
      ∀ c ∈ cs, c.isSuccessful = false := by
    intro c hc
    have hfail := h (present c) (List.mem_map_of_mem hc)
    rwa [hpresents.verdict_eq] at hfail
  constructor
  · rintro ⟨fuel, b, hb, rfl⟩
    obtain ⟨bs, hbs, rfl⟩ := choice_eq_some_iff.1 hb
    exact firstOf_of_attempts hpresents hbs
  · intro h
    cases h with
    | @matched front a back qs _ u _ has hfront hfails ha hok =>
        obtain ⟨fuel, cs, hcs, rfl⟩ := attempts_of_inTurn hf hfront
        obtain ⟨fuel', b, hb, rfl⟩ := ha
        obtain ⟨more, hcs, hb⟩ := (attempts_steady hf false front _ _).together (hf a _ _) hcs hb
        rw [hpresents.verdict_eq] at hok
        have hbest := best_snoc_of_failed (hfailed hfails) hok
        refine ⟨more, b, choice_eq_some_iff.2 ⟨cs ++ [b], ?_, by rw [taken, hbest]; rfl⟩, rfl⟩
        exact attempts_until_iff.2
          (.inr ⟨front, a, back, cs, b, u, has, hcs, hfailed hfails, hb, hok, rfl⟩)
    | failed hturn hfails =>
        obtain ⟨fuel, cs, hcs, rfl⟩ := attempts_of_inTurn hf hturn
        have hbest := best_eq_none (hfailed hfails)
        refine ⟨fuel, taken start cs, choice_eq_some_iff.2 ⟨cs, ?_, rfl⟩, ?_⟩
        · exact attempts_until_iff.2 (.inl ⟨hcs, hfailed hfails⟩)
        · rw [taken, hbest, Option.getD_none, ← hpresents.failure_eq]

end Choice

/-! ## The two choices beside each other -/

/-- A choice of the first and one of the furthest between the same alternatives: how their answers
are related, and what each of them takes. -/
structure AcceptAlike (verdict : ρ → Verdict) (step : α → σ → ρ → σ → Prop)
    (first furthest : ρ → σ → Prop) (as : List α) (s : σ) : Prop where
  isSuccessful_eq : ∀ r t r' t', first r t → furthest r' t' →
    (verdict r).isSuccessful = (verdict r').isSuccessful
  stop_le : ∀ r t r' t', first r t → furthest r' t' → (verdict r).isSuccessful = true →
    (verdict r).stop ≤ (verdict r').stop
  failure_iff : ∀ r t, (verdict r).isSuccessful = false → (first r t ↔ furthest r t)
  furthest_ends_iff : (∃ r t, furthest r t) ↔ ∃ rs t, InTurn step as s rs t
  first_ends : ∀ r' t', furthest r' t' → ∃ r t, first r t
  takes_first : ∀ r t, first r t → (verdict r).isSuccessful = true →
    ∃ front a back qs u, as = front ++ a :: back ∧ InTurn step front s qs u ∧
      (∀ q ∈ qs, (verdict q).isSuccessful = false) ∧ step a u r t
  takes_furthest : ∀ r t, furthest r t → (verdict r).isSuccessful = true →
    ∃ before after, InTurn step as s (before ++ r :: after) t ∧ IsFurthest verdict before r after

theorem choices_acceptAlike {f : Nat → α → Matcher σ ε}
    (hf : ∀ a pos s, Steady fun fuel => f fuel a pos s)
    {present : Attempt ε → ρ} {verdict : ρ → Verdict} {start : Nat} {failure : List ρ → ρ}
    (hpresents : Presents present verdict start failure) (as : List α) (s : σ) :
    AcceptAlike verdict (trying f present start)
      (Shows present (fun fuel => choice false (as.map (f fuel))) start s)
      (Shows present (fun fuel => choice true (as.map (f fuel))) start s) as s := by
  have hstep : Decided (trying f present start) := trying_decided hf
  have hfirst {r : ρ} {t : σ} :
      Shows present (fun fuel => choice false (as.map (f fuel))) start s r t ↔
        FirstOf verdict (trying f present start) failure as s r t := first_shows_iff hpresents hf
  have hfurthest {r : ρ} {t : σ} :
      Shows present (fun fuel => choice true (as.map (f fuel))) start s r t ↔
        FurthestOf verdict (trying f present start) failure as s r t :=
    furthest_shows_iff hpresents hf
  have hcompare {r r' : ρ} {t t' : σ}
      (h : FirstOf verdict (trying f present start) failure as s r t)
      (h' : FurthestOf verdict (trying f present start) failure as s r' t') :=
    h.le_furthest hpresents.failure_fails hstep h'
  refine ⟨fun r t r' t' h h' => ?_, fun r t r' t' h h' => ?_, fun r t hfail => ?_, ⟨?_, ?_⟩,
    ?_, ?_, ?_⟩
  · exact (hcompare (hfirst.1 h) (hfurthest.1 h')).1
  · exact (hcompare (hfirst.1 h) (hfurthest.1 h')).2
  · rw [hfirst, hfurthest, FirstOf.furthestOf_iff hfail]
  · rintro ⟨r, t, h⟩
    obtain ⟨rs, hturn⟩ := (hfurthest.1 h).inTurn
    exact ⟨rs, t, hturn⟩
  · rintro ⟨rs, t, hturn⟩
    obtain ⟨fuel, bs, hbs, -⟩ := attempts_of_inTurn hf hturn
    exact ⟨_, t, hfurthest.2 (furthestOf_of_attempts hpresents hbs)⟩
  · intro r' t' h
    obtain ⟨rs, hturn⟩ := (hfurthest.1 h).inTurn
    obtain ⟨r, t, h⟩ := hturn.exists_firstOf
    exact ⟨r, t, hfirst.2 h⟩
  · intro r t h hok
    cases hfirst.1 h with
    | matched has hfront hfails ha _ => exact ⟨_, _, _, _, _, has, hfront, hfails, ha⟩
    | failed _ _ =>
        rw [hpresents.failure_fails] at hok
        cases hok
  · intro r t h hok
    cases hfurthest.1 h with
    | matched hturn hmost => exact ⟨_, _, hturn, hmost⟩
    | failed _ _ =>
        rw [hpresents.failure_fails] at hok
        cases hok

end TextGrammar.Matcher
