import TextGrammar.Fuel
import TextGrammar.Matcher.Fuel
import TextGrammar.Proofs.Verdict.Tree

/-!
# Matchers step by step

What a matcher gives with some amount of fuel it gives with any larger one, so that fuel can be left
aside.  A sequence is then its first member and the others behind it.  A repetition makes strides,
each of which matches and moves, until it comes to an attempt that ends it.
-/

namespace TextGrammar.Matcher

open Verdict

variable {σ ε α : Type}

/-- With some amount of fuel the verdict is `v`, and `s'` the state afterwards. -/
def Gives (m : Nat → Matcher σ ε) (pos : Nat) (s : σ) (v : Verdict) (s' : σ) : Prop :=
  ∃ fuel a, m fuel pos s = some (a, s') ∧ a.verdict = v

theorem isFailure_of_isSuccessful {v : Verdict} (h : v.isSuccessful = true) :
    v.isFailure = false := by
  simp [isFailure, h]

section Sequence

variable {pos : Nat} {s s' : σ}

private theorem composed_cons {u : Verdict} (hu : u.isSuccessful = true) (stop : Nat)
    (vs : List Verdict) :
    composed "" stop (u :: vs) = { composed "" stop vs with parts := u :: vs } := by
  have hcounts := isFailure_of_isSuccessful hu
  cases hfail : vs.any isFailure <;> simp [composed, hcounts, hfail, syntaxError]

private theorem sequence_cons_of_failed {n : Matcher σ ε} {a : Attempt ε} (ms : List (Matcher σ ε))
    (ha : n pos s = some (a, s')) (hfail : a.isSuccessful = false) :
    sequence (n :: ms) pos s =
      some (.failed (.syntaxError "Sequence did not match" a.stop [a.verdict]), s') := by
  simp [sequence, chain, ha, hfail, Run.verdicts]

private theorem map_sequence_cons {n : Matcher σ ε} {a : Attempt ε} (ms : List (Matcher σ ε))
    (ha : n pos s = some (a, s')) (hok : a.isSuccessful = true) :
    (sequence (n :: ms) pos s).map (Prod.map Attempt.verdict id) =
      (sequence ms a.stop s').map
        (Prod.map (fun b => { b.verdict with parts := a.verdict :: b.verdict.parts }) id) := by
  simp only [sequence, chain, ha, hok, Option.bind_eq_bind, Option.bind_some, if_true]
  cases chain ms a.stop s' with
  | none => rfl
  | some answer =>
      obtain ⟨run, t⟩ := answer
      have hcomposed := composed_cons hok run.stop run.verdicts
      cases hending : run.ending with
      | failed w => simp [Run.cons, hending, Attempt.failed, Run.verdicts, syntaxError]
      | _ => simpa [Run.cons, hending, Run.toAttempt, Run.verdicts] using hcomposed

theorem sequence_cons_gives_iff {f : Nat → α → Matcher σ ε}
    (hf : ∀ a pos s, Steady fun fuel => f fuel a pos s) {a : α} {as : List α} {v : Verdict} :
    Gives (fun fuel => sequence ((a :: as).map (f fuel))) pos s v s' ↔
      ∃ u t, Gives (fun fuel => f fuel a) pos s u t ∧
        (u.isSuccessful = false ∧ v = .syntaxError "Sequence did not match" u.stop [u] ∧ t = s' ∨
          u.isSuccessful = true ∧
            ∃ w, Gives (fun fuel => sequence (as.map (f fuel))) u.stop t w s' ∧
              v = { w with parts := u :: w.parts }) := by
  constructor
  · rintro ⟨fuel, b, hb, rfl⟩
    obtain ⟨⟨run, _⟩, hchain, -⟩ := Option.bind_eq_some_iff.1 hb
    obtain ⟨⟨x, t⟩, hx, -⟩ := Option.bind_eq_some_iff.1 hchain
    refine ⟨x.verdict, t, ⟨fuel, x, hx, rfl⟩, ?_⟩
    cases hok : x.isSuccessful with
    | false =>
        have hfailed := sequence_cons_of_failed (as.map (f fuel)) hx hok
        obtain ⟨rfl, rfl⟩ := Prod.mk.inj (Option.some.inj (hb.symm.trans hfailed))
        exact .inl ⟨hok, rfl, rfl⟩
    | true =>
        have hall : sequence (f fuel a :: as.map (f fuel)) pos s = some (b, s') := hb
        have hbehind := map_sequence_cons (as.map (f fuel)) hx hok
        rw [hall] at hbehind
        obtain ⟨⟨w, _⟩, hw, heq⟩ := Option.map_eq_some_iff.1 hbehind.symm
        obtain ⟨hverdict, rfl⟩ := Prod.mk.inj heq
        exact .inr ⟨hok, w.verdict, ⟨fuel, w, hw, rfl⟩, hverdict.symm⟩
  · rintro ⟨_, t, ⟨fuel, x, hx, rfl⟩, ⟨hfail, rfl, rfl⟩ | ⟨hok, _, ⟨fuel', w, hw, rfl⟩, rfl⟩⟩
    · exact ⟨fuel, _, sequence_cons_of_failed (as.map (f fuel)) hx hfail, rfl⟩
    · have hsequence : Steady fun fuel => sequence (as.map (f fuel)) x.stop t :=
        fun _ _ hle => sequence_extends (fun a pos s => hf a pos s hle) as x.stop t
      obtain ⟨more, hfirst, hrest⟩ := (hf a pos s).together hsequence hx hw
      have hbehind := map_sequence_cons (as.map (f more)) hfirst hok
      rw [hrest] at hbehind
      obtain ⟨⟨b, _⟩, hb, heq⟩ := Option.map_eq_some_iff.1 hbehind
      obtain ⟨hverdict, rfl⟩ := Prod.mk.inj heq
      exact ⟨more, b, hb, hverdict⟩

theorem sequence_nil_gives_iff {v : Verdict} :
    Gives (fun _ => sequence ([] : List (Matcher σ ε))) pos s v s' ↔ v = success pos ∧ s = s' := by
  constructor
  · rintro ⟨_, b, hb, rfl⟩
    obtain ⟨rfl, rfl⟩ := Prod.mk.inj (Option.some.inj hb)
    exact ⟨rfl, rfl⟩
  · rintro ⟨rfl, rfl⟩
    exact ⟨0, _, rfl, rfl⟩

end Sequence

/-! ## Strides -/

/-- Attempts that match and move, each where the one before it stopped. -/
inductive Strides (step : Nat → σ → Verdict → σ → Prop) :
    Nat → σ → List Verdict → Nat → σ → Prop where
  | nil (pos : Nat) (s : σ) : Strides step pos s [] pos s
  | cons {pos stop : Nat} {s s' t : σ} {v : Verdict} {vs : List Verdict} :
      step pos s v s' → v.isSuccessful = true → v.stop ≠ pos → Strides step v.stop s' vs stop t →
      Strides step pos s (v :: vs) stop t

theorem Strides.isSuccessful {step : Nat → σ → Verdict → σ → Prop} {pos stop : Nat} {s t : σ}
    {vs : List Verdict} (h : Strides step pos s vs stop t) : ∀ v ∈ vs, v.isSuccessful = true := by
  induction h with
  | nil pos s => exact fun v hv => absurd hv List.not_mem_nil
  | cons _ hok _ _ ih => exact List.forall_mem_cons.2 ⟨hok, ih⟩

private theorem composed_append {vs : List Verdict} (hvs : ∀ v ∈ vs, v.isSuccessful = true)
    {w : Verdict} (hw : w.isFailure = false) (stop : Nat) :
    composed "" stop (vs ++ [w]) = { success stop with parts := vs ++ [w] } := by
  refine composed_eq_success "" stop (List.forall_mem_append.2 ⟨fun v hv => ?_, by simpa using hw⟩)
  exact isFailure_of_isSuccessful (hvs v hv)

/-! ## Greedy repetition -/

section Greedy

inductive Closes (vs : List Verdict) (stop : Nat) (w : Verdict) : Run ε → Prop where
  | failed {as : List (Attempt ε)} : w.isSuccessful = false → as.map Attempt.verdict = vs →
      Closes vs stop w ⟨as, stop, .failed w⟩
  | stalled {as : List (Attempt ε)} : w.isSuccessful = true → w.stop = stop →
      as.map Attempt.verdict = vs ++ [w] → Closes vs stop w ⟨as, stop, .stalled⟩

theorem Closes.cons {vs : List Verdict} {stop : Nat} {w : Verdict} {run : Run ε}
    (h : Closes vs stop w run) (a : Attempt ε) : Closes (a.verdict :: vs) stop w (run.cons a) := by
  cases h with
  | failed hfail hvs => exact .failed hfail (by simp [hvs])
  | stalled hok hstop hvs => exact .stalled hok hstop (by simp [hvs])

def repeated (atLeastOne : Bool) (start : Nat) (vs : List Verdict) (stop : Nat) (w : Verdict) :
    Verdict :=
  if w.isSuccessful then { success stop with parts := vs ++ [w] }
  else if atLeastOne && vs.isEmpty then
    .syntaxError "Expected at least one repetition" start [w]
  else { success stop with parts := vs ++ [w.setAside] }

section Repeated

variable (start : Nat) (vs : List Verdict) (stop : Nat) (w : Verdict)

@[simp] theorem repeated_stop : (repeated false start vs stop w).stop = stop := by
  simp only [repeated]
  split <;> rfl

@[simp] theorem repeated_isSuccessful : (repeated false start vs stop w).isSuccessful = true := by
  simp only [repeated]
  split <;> rfl

end Repeated

variable {m : Nat → Matcher σ ε} {pos : Nat} {s s' : σ}

theorem rounds_eq_some_iff {n : Matcher σ ε} {fuel : Nat} {run : Run ε} :
    rounds n (fuel + 1) pos s = some (run, s') ↔ ∃ a t, n pos s = some (a, t) ∧
      (a.isSuccessful = false ∧ ⟨[], pos, .failed a.verdict⟩ = run ∧ t = s' ∨
        a.isSuccessful = true ∧ a.stop = pos ∧ ⟨[a], pos, .stalled⟩ = run ∧ t = s' ∨
        a.isSuccessful = true ∧ a.stop ≠ pos ∧
          ∃ rest, rounds n fuel a.stop t = some (rest, s') ∧ rest.cons a = run) := by
  simp only [rounds, Option.bind_eq_bind, Option.bind_eq_some_iff, Prod.exists]
  refine exists_congr fun a => exists_congr fun t => and_congr_right fun _ => ?_
  cases hok : a.isSuccessful with
  | false => simp
  | true => by_cases hstop : a.stop = pos <;> simp [hstop, Option.bind_eq_some_iff]

private theorem strides_of_rounds {fuel more : Nat} {run : Run ε}
    (h : rounds (m more) fuel pos s = some (run, s')) :
    ∃ vs stop t w, Strides (Gives m) pos s vs stop t ∧ Gives m stop t w s' ∧
      Closes vs stop w run := by
  induction fuel generalizing pos s run with
  | zero => cases h
  | succ fuel ih =>
      obtain ⟨a, t, ha,
          ⟨hfail, rfl, rfl⟩ | ⟨hok, hstop, rfl, rfl⟩ | ⟨hok, hmove, rest, hrest, rfl⟩⟩ :=
        rounds_eq_some_iff.1 h
      · exact ⟨[], pos, s, a.verdict, .nil pos s, ⟨more, a, ha, rfl⟩, .failed hfail rfl⟩
      · exact ⟨[], pos, s, a.verdict, .nil pos s, ⟨more, a, ha, rfl⟩, .stalled hok hstop rfl⟩
      · obtain ⟨vs, stop, last, w, hstrides, hw, hclose⟩ := ih hrest
        exact ⟨a.verdict :: vs, stop, last, w, .cons ⟨more, a, ha, rfl⟩ hok hmove hstrides, hw,
          hclose.cons a⟩

private theorem rounds_steady (hm : ∀ pos s, Steady fun fuel => m fuel pos s) (pos : Nat) (s : σ) :
    Steady fun fuel => rounds (m fuel) fuel pos s :=
  fun _ _ hle => rounds_extends (fun pos s => hm pos s hle) hle pos s

private theorem rounds_of_strides (hm : ∀ pos s, Steady fun fuel => m fuel pos s)
    {vs : List Verdict} {stop : Nat} {t : σ} {w : Verdict}
    (h : Strides (Gives m) pos s vs stop t) (hw : Gives m stop t w s')
    (hlast : w.isSuccessful = true → w.stop = stop) :
    ∃ fuel run, rounds (m fuel) fuel pos s = some (run, s') ∧ Closes vs stop w run := by
  induction h with
  | nil pos s =>
      obtain ⟨fuel, a, ha, rfl⟩ := hw
      have ha' := hm pos s (Nat.le_succ fuel) _ ha
      cases hok : a.isSuccessful with
      | false =>
          exact ⟨fuel + 1, ⟨[], pos, .failed a.verdict⟩,
            rounds_eq_some_iff.2 ⟨a, s', ha', .inl ⟨hok, rfl, rfl⟩⟩, .failed hok rfl⟩
      | true =>
          exact ⟨fuel + 1, ⟨[a], pos, .stalled⟩,
            rounds_eq_some_iff.2 ⟨a, s', ha', .inr (.inl ⟨hok, hlast hok, rfl, rfl⟩)⟩,
            .stalled hok (hlast hok) rfl⟩
  | cons hstep hok hmove _ ih =>
      obtain ⟨fuel, a, ha, rfl⟩ := hstep
      obtain ⟨fuel', run, hrun, hclose⟩ := ih hw hlast
      obtain ⟨more, hfirst, hmore⟩ := (hm _ _).together (rounds_steady hm _ _) ha hrun
      have hfirst' := hm _ _ (Nat.le_succ more) _ hfirst
      have hrest := rounds_extends (fun pos s => hm pos s (Nat.le_succ more)) (Nat.le_refl more)
        _ _ _ hmore
      exact ⟨more + 1, run.cons a,
        rounds_eq_some_iff.2 ⟨a, _, hfirst', .inr (.inr ⟨hok, hmove, run, hrest, rfl⟩)⟩,
        hclose.cons a⟩

private theorem repeating_of_closes {n : Matcher σ ε} {fuel : Nat} {run : Run ε}
    (hrun : rounds n fuel pos s = some (run, s')) {vs : List Verdict} {stop : Nat} {w : Verdict}
    (hclose : Closes vs stop w run) (hvs : ∀ v ∈ vs, v.isSuccessful = true) (atLeastOne : Bool) :
    ∃ a, repeating fuel atLeastOne n pos s = some (a, s') ∧
      a.verdict = repeated atLeastOne pos vs stop w := by
  simp only [repeating, hrun, Option.bind_eq_bind, Option.bind_some, repeated]
  cases hclose with
  | @failed as hfail has =>
      have haside : w.setAside.isFailure = false := by simp [isFailure, setAside]
      have hparts := composed_append hvs haside stop
      subst has
      cases hmissing : atLeastOne && as.isEmpty with
      | true => simp [hfail, hmissing, Attempt.failed]
      | false => simp [hfail, hmissing, Run.toAttempt, Run.verdicts, hparts]
  | stalled hok _ has =>
      have hparts := composed_append hvs (isFailure_of_isSuccessful hok) stop
      simp [hok, Run.toAttempt, Run.verdicts, has, hparts]

/-- A repetition gives a verdict exactly when strides lead to an attempt that ends it. -/
theorem repeating_gives_iff (hm : ∀ pos s, Steady fun fuel => m fuel pos s) {atLeastOne : Bool}
    {v : Verdict} : Gives (fun fuel => repeating fuel atLeastOne (m fuel)) pos s v s' ↔
      ∃ vs stop t w, Strides (Gives m) pos s vs stop t ∧ Gives m stop t w s' ∧
        (w.isSuccessful = true → w.stop = stop) ∧ v = repeated atLeastOne pos vs stop w := by
  constructor
  · rintro ⟨fuel, a, ha, rfl⟩
    obtain ⟨⟨run, s''⟩, hrun, -⟩ := Option.bind_eq_some_iff.1 ha
    obtain ⟨vs, stop, t, w, hstrides, hw, hclose⟩ := strides_of_rounds hrun
    obtain ⟨b, hb, hverdict⟩ := repeating_of_closes hrun hclose hstrides.isSuccessful atLeastOne
    obtain ⟨rfl, rfl⟩ := Prod.mk.inj (Option.some.inj (hb.symm.trans ha))
    refine ⟨vs, stop, t, w, hstrides, hw, fun hok => ?_, hverdict⟩
    cases hclose with
    | failed hfail _ => exact absurd (hfail.symm.trans hok) (by decide)
    | stalled _ hstop _ => exact hstop
  · rintro ⟨vs, stop, t, w, hstrides, hw, hlast, rfl⟩
    obtain ⟨fuel, run, hrun, hclose⟩ := rounds_of_strides hm hstrides hw hlast
    obtain ⟨a, ha, hverdict⟩ := repeating_of_closes hrun hclose hstrides.isSuccessful atLeastOne
    exact ⟨fuel, a, ha, hverdict⟩

end Greedy

/-! ## Repetition up to a stop condition -/

section Until

def Asks (ask : Nat → Nat → σ → Option (Bool × σ)) (pos : Nat) (s : σ) (stopped : Bool)
    (s' : σ) : Prop := ∃ fuel, ask fuel pos s = some (stopped, s')

def Unstopped (ask : Nat → Nat → σ → Option (Bool × σ)) (m : Nat → Matcher σ ε) (pos : Nat) (s : σ)
    (v : Verdict) (s' : σ) : Prop := ∃ t, Asks ask pos s false t ∧ Gives m pos t v s'

/-- What ends the strides: the stop condition holds, or an attempt fails or does not move. -/
inductive Ends (ask : Nat → Nat → σ → Option (Bool × σ)) (m : Nat → Matcher σ ε) (pos : Nat)
    (s : σ) : Option Verdict → σ → Prop where
  | reached {s' : σ} : Asks ask pos s true s' → Ends ask m pos s none s'
  | given {w : Verdict} {s' : σ} : Unstopped ask m pos s w s' →
      (w.isSuccessful = true → w.stop = pos) → Ends ask m pos s (some w) s'

inductive ClosesUntil (vs : List Verdict) (stop : Nat) : Option Verdict → Run ε → Prop where
  | finished {as : List (Attempt ε)} : as.map Attempt.verdict = vs →
      ClosesUntil vs stop none ⟨as, stop, .finished⟩
  | failed {as : List (Attempt ε)} {w : Verdict} : w.isSuccessful = false →
      as.map Attempt.verdict = vs → ClosesUntil vs stop (some w) ⟨as, w.stop, .failed w⟩
  | stalled {as : List (Attempt ε)} {w : Verdict} : w.isSuccessful = true → w.stop = stop →
      as.map Attempt.verdict = vs ++ [w] → ClosesUntil vs stop (some w) ⟨as, stop, .stalled⟩

theorem ClosesUntil.cons {vs : List Verdict} {stop : Nat} {last : Option Verdict} {run : Run ε}
    (h : ClosesUntil vs stop last run) (a : Attempt ε) :
    ClosesUntil (a.verdict :: vs) stop last (run.cons a) := by
  cases h with
  | finished hvs => exact .finished (by simp [hvs])
  | failed hfail hvs => exact .failed hfail (by simp [hvs])
  | stalled hok hstop hvs => exact .stalled hok hstop (by simp [hvs])

def repeatedUntil (atLeastOne : Bool) (start : Nat) (vs : List Verdict) (stop : Nat) :
    Option Verdict → Verdict
  | none =>
      if atLeastOne && vs.isEmpty then
        .parseError "Expected at least one repetition before the stop rule" start
      else { success stop with parts := vs }
  | some w =>
      if w.isSuccessful then
        .syntaxError "Repetition made no progress before the stop rule matched" stop (vs ++ [w])
      else .syntaxError "Repetition failed before the stop rule matched" w.stop (vs ++ [w])

variable {ask : Nat → Nat → σ → Option (Bool × σ)} {m : Nat → Matcher σ ε} {pos : Nat} {s s' : σ}

theorem roundsUntil_eq_some_iff {stop : Nat → σ → Option (Bool × σ)} {n : Matcher σ ε} {fuel : Nat}
    {run : Run ε} :
    roundsUntil stop n (fuel + 1) pos s = some (run, s') ↔
      stop pos s = some (true, s') ∧ ⟨[], pos, .finished⟩ = run ∨
      ∃ d, stop pos s = some (false, d) ∧ ∃ a t, n pos d = some (a, t) ∧
        (a.isSuccessful = false ∧ ⟨[], a.stop, .failed a.verdict⟩ = run ∧ t = s' ∨
          a.isSuccessful = true ∧ a.stop = pos ∧ ⟨[a], pos, .stalled⟩ = run ∧ t = s' ∨
          a.isSuccessful = true ∧ a.stop ≠ pos ∧
            ∃ rest, roundsUntil stop n fuel a.stop t = some (rest, s') ∧ rest.cons a = run) := by
  cases hstop : stop pos s with
  | none => simp [roundsUntil, hstop]
  | some answer =>
      obtain ⟨stopped, d⟩ := answer
      cases stopped with
      | true => simp [roundsUntil, hstop, and_comm]
      | false =>
          simp only [roundsUntil, hstop, Option.bind_eq_bind, Option.bind_some, Bool.false_eq_true,
            if_false, Option.bind_eq_some_iff, Prod.exists, Option.some.injEq, Prod.mk.injEq,
            false_and, false_or, true_and, exists_eq_left']
          refine exists_congr fun a => exists_congr fun t => and_congr_right fun _ => ?_
          cases hok : a.isSuccessful with
          | false => simp
          | true => by_cases hmove : a.stop = pos <;> simp [hmove, Option.bind_eq_some_iff]

private theorem strides_of_roundsUntil {fuel more : Nat} {run : Run ε}
    (h : roundsUntil (ask more) (m more) fuel pos s = some (run, s')) :
    ∃ vs stop t last, Strides (Unstopped ask m) pos s vs stop t ∧ Ends ask m stop t last s' ∧
      ClosesUntil vs stop last run := by
  induction fuel generalizing pos s run with
  | zero => cases h
  | succ fuel ih =>
      rcases roundsUntil_eq_some_iff.1 h with ⟨hstop, rfl⟩ | ⟨d, hstop, a, t, ha, hcases⟩
      · exact ⟨[], pos, s, none, .nil pos s, .reached ⟨more, hstop⟩, .finished rfl⟩
      have hgiven : Unstopped ask m pos s a.verdict t := ⟨d, ⟨more, hstop⟩, more, a, ha, rfl⟩
      rcases hcases with ⟨hfail, rfl, rfl⟩ | ⟨hok, hstay, rfl, rfl⟩ | ⟨hok, hmove, rest, hrest, rfl⟩
      · exact ⟨[], pos, s, some a.verdict, .nil pos s,
          .given hgiven fun hok => absurd (hfail.symm.trans hok) (by decide), .failed hfail rfl⟩
      · exact ⟨[], pos, s, some a.verdict, .nil pos s, .given hgiven fun _ => hstay,
          .stalled hok hstay rfl⟩
      · obtain ⟨vs, stop, t', last, hstrides, hlast, hclose⟩ := ih hrest
        exact ⟨a.verdict :: vs, stop, t', last, .cons hgiven hok hmove hstrides, hlast,
          hclose.cons a⟩

section Steady

variable (hask : ∀ pos s, Steady fun fuel => ask fuel pos s)
  (hm : ∀ pos s, Steady fun fuel => m fuel pos s)

include hask hm

private theorem roundsUntil_of_strides {vs : List Verdict} {stop : Nat} {t : σ}
    {last : Option Verdict}
    (h : Strides (Unstopped ask m) pos s vs stop t) (hlast : Ends ask m stop t last s') :
    ∃ fuel run, roundsUntil (ask fuel) (m fuel) fuel pos s = some (run, s') ∧
      ClosesUntil vs stop last run := by
  induction h with
  | nil pos s =>
      cases hlast with
      | reached hstop =>
          obtain ⟨fuel, hstop⟩ := hstop
          exact ⟨fuel + 1, _, roundsUntil_eq_some_iff.2
            (.inl ⟨hask _ _ (Nat.le_succ fuel) _ hstop, rfl⟩), .finished rfl⟩
      | given hgiven hstay =>
          obtain ⟨d, ⟨fuel, hstop⟩, fuel', a, ha, rfl⟩ := hgiven
          obtain ⟨more, hasked, hgave⟩ := (hask _ _).together (hm _ _) hstop ha
          have hasked' := hask _ _ (Nat.le_succ more) _ hasked
          have hgave' := hm _ _ (Nat.le_succ more) _ hgave
          cases hok : a.isSuccessful with
          | false =>
              exact ⟨more + 1, _, roundsUntil_eq_some_iff.2
                (.inr ⟨d, hasked', a, s', hgave', .inl ⟨hok, rfl, rfl⟩⟩), .failed hok rfl⟩
          | true =>
              exact ⟨more + 1, _, roundsUntil_eq_some_iff.2
                (.inr ⟨d, hasked', a, s', hgave', .inr (.inl ⟨hok, hstay hok, rfl, rfl⟩)⟩),
                .stalled hok (hstay hok) rfl⟩
  | cons hstep hok hmove _ ih =>
      obtain ⟨d, ⟨fuel, hstop⟩, fuel', a, ha, rfl⟩ := hstep
      obtain ⟨fuel'', run, hrun, hclose⟩ := ih hlast
      -- More than enough for each of the three.
      obtain ⟨more, hfuel, hfuel', hfuel''⟩ :
          ∃ more, fuel ≤ more + 1 ∧ fuel' ≤ more + 1 ∧ fuel'' ≤ more :=
        ⟨fuel + fuel' + fuel'', by omega, by omega, by omega⟩
      have hasked := hask _ _ hfuel _ hstop
      have hgave := hm _ _ hfuel' _ ha
      have hrest := roundsUntil_extends (fun pos s => hm pos s (Nat.le_succ_of_le hfuel''))
        (fun pos s => hask pos s (Nat.le_succ_of_le hfuel'')) hfuel'' _ _ _ hrun
      exact ⟨more + 1, run.cons a, roundsUntil_eq_some_iff.2
        (.inr ⟨d, hasked, a, _, hgave, .inr (.inr ⟨hok, hmove, run, hrest, rfl⟩)⟩), hclose.cons a⟩

end Steady

private theorem nonGreedy_of_closes {stop : Nat → σ → Option (Bool × σ)} {n : Matcher σ ε}
    {fuel : Nat}
    {run : Run ε} (hrun : roundsUntil stop n fuel pos s = some (run, s')) {vs : List Verdict}
    {e : Nat} {last : Option Verdict} (hclose : ClosesUntil vs e last run)
    (hvs : ∀ v ∈ vs, v.isSuccessful = true) (atLeastOne : Bool) :
    ∃ a, nonGreedy fuel atLeastOne stop n pos s = some (a, s') ∧
      a.verdict = repeatedUntil atLeastOne pos vs e last := by
  simp only [nonGreedy, hrun, Option.bind_eq_bind, Option.bind_some]
  cases hclose with
  | @finished as has =>
      have hparts : composed "" e vs = { success e with parts := vs } :=
        composed_eq_success "" e fun v hv => isFailure_of_isSuccessful (hvs v hv)
      subst has
      cases hmissing : atLeastOne && as.isEmpty with
      | true => simp [repeatedUntil, hmissing, Attempt.failed]
      | false => simp [repeatedUntil, hmissing, Run.toAttempt, Run.verdicts, hparts]
  | failed hfail has => simp [repeatedUntil, hfail, Run.verdicts, has, Attempt.failed]
  | stalled hok _ has => simp [repeatedUntil, hok, Run.verdicts, has, Attempt.failed]

/-- A repetition up to a stop condition gives a verdict exactly when strides lead to what ends
it. -/
theorem nonGreedy_gives_iff (hask : ∀ pos s, Steady fun fuel => ask fuel pos s)
    (hm : ∀ pos s, Steady fun fuel => m fuel pos s) {atLeastOne : Bool} {v : Verdict} :
    Gives (fun fuel => nonGreedy fuel atLeastOne (ask fuel) (m fuel)) pos s v s' ↔
      ∃ vs stop t last, Strides (Unstopped ask m) pos s vs stop t ∧ Ends ask m stop t last s' ∧
        v = repeatedUntil atLeastOne pos vs stop last := by
  constructor
  · rintro ⟨fuel, a, ha, rfl⟩
    obtain ⟨⟨run, s''⟩, hrun, -⟩ := Option.bind_eq_some_iff.1 ha
    obtain ⟨vs, stop, t, last, hstrides, hlast, hclose⟩ := strides_of_roundsUntil hrun
    obtain ⟨b, hb, hverdict⟩ := nonGreedy_of_closes hrun hclose hstrides.isSuccessful atLeastOne
    obtain ⟨rfl, rfl⟩ := Prod.mk.inj (Option.some.inj (hb.symm.trans ha))
    exact ⟨vs, stop, t, last, hstrides, hlast, hverdict⟩
  · rintro ⟨vs, stop, t, last, hstrides, hlast, rfl⟩
    obtain ⟨fuel, run, hrun, hclose⟩ := roundsUntil_of_strides hask hm hstrides hlast
    obtain ⟨a, ha, hverdict⟩ := nonGreedy_of_closes hrun hclose hstrides.isSuccessful atLeastOne
    exact ⟨fuel, a, ha, hverdict⟩

end Until

end TextGrammar.Matcher
