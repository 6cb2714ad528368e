import TextGrammar.Matcher

/-!
# Matchers in step

A matcher is simulated by another one when every answer it gives is given by the other one as well:
the same verdict, and a state that is related to its own.  What the two emit does not matter, since
no combinator looks at it; so every combinator carries a simulation over from the parts to the
whole.
-/

namespace TextGrammar

section Follows

variable {α β α' β' σ τ σ' τ' : Type}

def Follows (V : α → β → Prop) (R : σ → τ → Prop) (x : Option (α × σ)) (y : Option (β × τ)) :
    Prop :=
  ∀ a s, x = some (a, s) → ∃ b t, y = some (b, t) ∧ V a b ∧ R s t

variable {V : α → β → Prop} {W : α' → β' → Prop} {R : σ → τ → Prop} {S : σ' → τ' → Prop}

theorem Follows.nothing (y : Option (β × τ)) : Follows V R none y := nofun

theorem Follows.answer {a : α} {b : β} {s : σ} {t : τ} (hv : V a b) (hr : R s t) :
    Follows V R (some (a, s)) (some (b, t)) := by
  rintro _ _ ⟨⟩
  exact ⟨b, t, rfl, hv, hr⟩

theorem Follows.bind {x : Option (α × σ)} {y : Option (β × τ)} {f : α × σ → Option (α' × σ')}
    {g : β × τ → Option (β' × τ')} (h : Follows V R x y)
    (hf : ∀ a b s t, V a b → R s t → Follows W S (f (a, s)) (g (b, t))) :
    Follows W S (x >>= f) (y >>= g) := by
  intro a' s' ha'
  obtain ⟨⟨a, s⟩, hx, hfa⟩ := Option.bind_eq_some_iff.1 ha'
  obtain ⟨b, t, hy, hv, hr⟩ := h a s hx
  obtain ⟨b', t', hgb, hw, hs⟩ := hf a b s t hv hr a' s' hfa
  exact ⟨b', t', Option.bind_eq_some_iff.2 ⟨(b, t), hy, hgb⟩, hw, hs⟩

theorem Follows.bind_left {x : Option (α × σ)} {y : Option (β × τ)} {f : α × σ → Option (α' × σ')}
    {W : α' → β → Prop} {S : σ' → τ → Prop} (h : Follows V R x y)
    (hf : ∀ a b s t, V a b → R s t → Follows W S (f (a, s)) (some (b, t))) :
    Follows W S (x >>= f) y := by
  have hbind := h.bind hf
  rwa [Option.bind_eq_bind, Option.bind_eq_bind, Option.bind_fun_some] at hbind

theorem Follows.bind_right {x : Option (α × σ)} {y : Option (β × τ)}
    {g : β × τ → Option (β' × τ')} {W : α → β' → Prop} {S : σ → τ' → Prop} (h : Follows V R x y)
    (hg : ∀ a b s t, V a b → R s t → Follows W S (some (a, s)) (g (b, t))) :
    Follows W S x (y >>= g) := by
  have hbind := h.bind hg
  rwa [Option.bind_eq_bind, Option.bind_eq_bind, Option.bind_fun_some] at hbind

end Follows

variable {σ τ ε δ α : Type} {R : σ → τ → Prop}

/-! ## Agreement -/

namespace Attempt

def Agrees (a : Attempt ε) (b : Attempt δ) : Prop := a.verdict = b.verdict

theorem Agrees.isSuccessful {a : Attempt ε} {b : Attempt δ} (h : a.Agrees b) :
    a.isSuccessful = b.isSuccessful := congrArg Verdict.isSuccessful h

theorem Agrees.stop {a : Attempt ε} {b : Attempt δ} (h : a.Agrees b) : a.stop = b.stop :=
  congrArg Verdict.stop h

def AgreeAll (as : List (Attempt ε)) (bs : List (Attempt δ)) : Prop :=
  as.map verdict = bs.map verdict

private theorem better_agrees {best : Option (Attempt ε)} {best' : Option (Attempt δ)}
    {a : Attempt ε}
    {b : Attempt δ} (hbest : best.map verdict = best'.map verdict) (h : a.Agrees b) :
    (better best a).map verdict = (better best' b).map verdict := by
  unfold better
  rw [h.isSuccessful]
  split
  · cases best with
    | none =>
        cases best' with
        | none => exact congrArg some h
        | some _ => exact absurd hbest nofun
    | some c =>
        cases best' with
        | none => exact absurd hbest nofun
        | some d =>
            have hc : c.Agrees d := Option.some.inj hbest
            simp only [hc.stop, h.stop]
            split
            · exact congrArg some h
            · exact hbest
  · exact hbest

private theorem foldl_better_agrees {as : List (Attempt ε)} {bs : List (Attempt δ)}
    (h : AgreeAll as bs)
    {a : Option (Attempt ε)} {b : Option (Attempt δ)} (hab : a.map verdict = b.map verdict) :
    (as.foldl better a).map verdict = (bs.foldl better b).map verdict := by
  induction as generalizing bs a b with
  | nil =>
      obtain rfl : bs = [] := by simpa [AgreeAll] using h.symm
      exact hab
  | cons c as ih =>
      cases bs with
      | nil => exact absurd h nofun
      | cons d bs =>
          obtain ⟨hc, hrest⟩ := List.cons.inj h
          exact ih hrest (better_agrees hab hc)

private theorem best_agrees {as : List (Attempt ε)} {bs : List (Attempt δ)} (h : AgreeAll as bs) :
    (best as).map verdict = (best bs).map verdict :=
  foldl_better_agrees h rfl

end Attempt

structure Run.Agrees (run : Run ε) (run' : Run δ) : Prop where
  verdicts : run.verdicts = run'.verdicts
  stop : run.stop = run'.stop
  ending : run.ending = run'.ending

namespace Run.Agrees

variable {run : Run ε} {run' : Run δ}

theorem cons (h : run.Agrees run') {a : Attempt ε} {b : Attempt δ} (hab : a.Agrees b) :
    (run.cons a).Agrees (run'.cons b) :=
  ⟨congr (congrArg List.cons hab) h.verdicts, h.stop, h.ending⟩

theorem toAttempt (h : run.Agrees run') (further : List Verdict) :
    (run.toAttempt further).Agrees (run'.toAttempt further) := by
  simp [Attempt.Agrees, Run.toAttempt, h.stop, h.verdicts]

theorem isEmpty (h : run.Agrees run') : run.attempts.isEmpty = run'.attempts.isEmpty := by
  have hempty := congrArg List.isEmpty h.verdicts
  simpa [Run.verdicts] using hempty

end Run.Agrees

/-! ## Simulation -/

namespace Matcher

/-- Every answer of `m` is given by `n` too. -/
def SimulatedBy (R : σ → τ → Prop) (m : Matcher σ ε) (n : Matcher τ δ) : Prop :=
  ∀ pos s t, R s t → Follows Attempt.Agrees R (m pos s) (n pos t)

section Lists

variable {f : α → Matcher σ ε} {g : α → Matcher τ δ} {as : List α}
  (h : ∀ a ∈ as, (f a).SimulatedBy R (g a))

include h

private theorem chain_simulated : ∀ pos s t, R s t →
    Follows Run.Agrees R (chain (as.map f) pos s) (chain (as.map g) pos t) := by
  induction as with
  | nil =>
      intro pos s t hr
      exact .answer ⟨rfl, rfl, rfl⟩ hr
  | cons a as ih =>
      intro pos s t hr
      simp only [List.map_cons, chain]
      refine (h a List.mem_cons_self pos s t hr).bind ?_
      intro b b' s' t' hb hr'
      simp only [hb.isSuccessful, hb.stop]
      split
      · have hrest := ih (fun c hc => h c (List.mem_cons_of_mem a hc)) b'.stop s' t' hr'
        refine hrest.bind ?_
        intro run run' s'' t'' hrun hr''
        exact .answer (hrun.cons hb) hr''
      · exact .answer ⟨rfl, rfl, congrArg Ending.failed hb⟩ hr'

theorem sequence_simulated : (sequence (as.map f)).SimulatedBy R (sequence (as.map g)) := by
  intro pos s t hr
  refine (chain_simulated h pos s t hr).bind ?_
  intro run run' s' t' hrun hr'
  simp only [hrun.ending, hrun.stop, hrun.verdicts]
  split
  · exact .answer rfl hr'
  · exact .answer (hrun.toAttempt []) hr'

private theorem attempts_simulated (untilSuccess : Bool) : ∀ pos s t, R s t →
    Follows Attempt.AgreeAll R (attempts untilSuccess (as.map f) pos s)
      (attempts untilSuccess (as.map g) pos t) := by
  induction as with
  | nil =>
      intro pos s t hr
      exact .answer rfl hr
  | cons a as ih =>
      intro pos s t hr
      simp only [List.map_cons, attempts]
      refine (h a List.mem_cons_self pos s t hr).bind ?_
      intro b b' s' t' hb hr'
      simp only [hb.isSuccessful]
      split
      · exact .answer (congrArg (fun v => [v]) hb) hr'
      · have hrest := ih (fun c hc => h c (List.mem_cons_of_mem a hc)) pos s' t' hr'
        refine hrest.bind ?_
        intro bs bs' s'' t'' hbs hr''
        exact .answer (congr (congrArg List.cons hb) hbs) hr''

theorem choice_simulated (longest : Bool) :
    (choice longest (as.map f)).SimulatedBy R (choice longest (as.map g)) := by
  intro pos s t hr
  refine (attempts_simulated h (!longest) pos s t hr).bind ?_
  intro bs bs' s' t' hbs hr'
  have hbest := Attempt.best_agrees hbs
  dsimp only
  cases hb : Attempt.best bs with
  | none =>
      cases hb' : Attempt.best bs' with
      | none => exact .answer (congrArg (Verdict.syntaxError "No alternative matched" pos) hbs) hr'
      | some b' => simp [hb, hb'] at hbest
  | some b =>
      cases hb' : Attempt.best bs' with
      | none => simp [hb, hb'] at hbest
      | some b' =>
          have hverdict : b.verdict = b'.verdict := by simpa [hb, hb'] using hbest
          exact .answer hverdict hr'

theorem conjunction_simulated :
    (conjunction (as.map f)).SimulatedBy R (conjunction (as.map g)) := by
  intro pos s t hr
  refine (attempts_simulated h false pos s t hr).bind ?_
  intro bs bs' s' t' hbs hr'
  exact .answer (congrArg (agreement pos) hbs) hr'

end Lists

section Parts

variable {m : Matcher σ ε} {n : Matcher τ δ} (h : m.SimulatedBy R n)

include h

theorem optional_simulated : (optional m).SimulatedBy R (optional n) := by
  intro pos s t hr
  refine (h pos s t hr).bind ?_
  intro a b s' t' hab hr'
  have hverdict : a.verdict = b.verdict := hab
  simp only [hab.isSuccessful, hab.stop, hverdict]
  split
  · exact .answer rfl hr'
  · exact .answer rfl hr'

theorem onSuccess_simulated {update : Nat → Attempt ε → σ → σ} {update' : Nat → Attempt δ → τ → τ}
    (hupdate : ∀ pos a b s t, a.Agrees b → R s t → R (update pos a s) (update' pos b t)) :
    (m.onSuccess update).SimulatedBy R (n.onSuccess update') := by
  intro pos s t hr
  refine (h pos s t hr).bind ?_
  intro a b s' t' hab hr'
  simp only [hab.isSuccessful]
  split
  · exact .answer hab (hupdate pos a b s' t' hab hr')
  · exact .answer hab hr'

theorem before_simulated {update : σ → σ} {update' : τ → τ}
    (hupdate : ∀ s t, R s t → R (update s) (update' t)) :
    (before update m).SimulatedBy R (before update' n) := fun pos s t hr =>
  h pos (update s) (update' t) (hupdate s t hr)

private theorem rounds_simulated {fuel fuel' : Nat} (hfuel : fuel ≤ fuel') : ∀ pos s t, R s t →
    Follows Run.Agrees R (rounds m fuel pos s) (rounds n fuel' pos t) := by
  induction fuel generalizing fuel' with
  | zero =>
      intro pos s t hr
      exact .nothing _
  | succ fuel ih =>
      obtain ⟨more, rfl⟩ : ∃ more, fuel' = more + 1 := ⟨fuel' - 1, by omega⟩
      have hle : fuel ≤ more := by omega
      intro pos s t hr
      simp only [rounds]
      refine (h pos s t hr).bind ?_
      intro a b s' t' hab hr'
      have hverdict : a.verdict = b.verdict := hab
      simp only [hab.isSuccessful, hab.stop, hverdict]
      split
      · exact .answer ⟨rfl, rfl, rfl⟩ hr'
      split
      · exact .answer ⟨congrArg (fun v => [v]) hab, rfl, rfl⟩ hr'
      · refine (ih hle b.stop s' t' hr').bind ?_
        intro run run' s'' t'' hrun hr''
        exact .answer (hrun.cons hab) hr''

theorem repeating_simulated {fuel fuel' : Nat} (hfuel : fuel ≤ fuel') (atLeastOne : Bool) :
    (repeating fuel atLeastOne m).SimulatedBy R (repeating fuel' atLeastOne n) := by
  intro pos s t hr
  refine (rounds_simulated h hfuel pos s t hr).bind ?_
  intro run run' s' t' hrun hr'
  simp only [hrun.ending, hrun.isEmpty]
  split
  · split
    · exact .answer rfl hr'
    · exact .answer (hrun.toAttempt _) hr'
  · exact .answer (hrun.toAttempt []) hr'

section Until

variable {stop : Nat → σ → Option (Bool × σ)} {stop' : Nat → τ → Option (Bool × τ)}
  (hstop : ∀ pos s t, R s t → Follows Eq R (stop pos s) (stop' pos t))

include hstop

private theorem roundsUntil_simulated {fuel fuel' : Nat} (hfuel : fuel ≤ fuel') : ∀ pos s t, R s t →
    Follows Run.Agrees R (roundsUntil stop m fuel pos s) (roundsUntil stop' n fuel' pos t) := by
  induction fuel generalizing fuel' with
  | zero =>
      intro pos s t hr
      exact .nothing _
  | succ fuel ih =>
      obtain ⟨more, rfl⟩ : ∃ more, fuel' = more + 1 := ⟨fuel' - 1, by omega⟩
      have hle : fuel ≤ more := by omega
      intro pos s t hr
      simp only [roundsUntil]
      refine (hstop pos s t hr).bind ?_
      rintro stopped _ s₀ t₀ rfl hr₀
      dsimp only
      split
      · exact .answer ⟨rfl, rfl, rfl⟩ hr₀
      refine (h pos s₀ t₀ hr₀).bind ?_
      intro a b s' t' hab hr'
      have hverdict : a.verdict = b.verdict := hab
      simp only [hab.isSuccessful, hab.stop, hverdict]
      split
      · exact .answer ⟨rfl, rfl, rfl⟩ hr'
      split
      · exact .answer ⟨congrArg (fun v => [v]) hab, rfl, rfl⟩ hr'
      · refine (ih hle b.stop s' t' hr').bind ?_
        intro run run' s'' t'' hrun hr''
        exact .answer (hrun.cons hab) hr''

theorem nonGreedy_simulated {fuel fuel' : Nat} (hfuel : fuel ≤ fuel') (atLeastOne : Bool) :
    (nonGreedy fuel atLeastOne stop m).SimulatedBy R (nonGreedy fuel' atLeastOne stop' n) := by
  intro pos s t hr
  refine (roundsUntil_simulated h hstop hfuel pos s t hr).bind ?_
  intro run run' s' t' hrun hr'
  simp only [hrun.ending, hrun.isEmpty, hrun.stop, hrun.verdicts]
  split
  · split
    · exact .answer rfl hr'
    · exact .answer (hrun.toAttempt []) hr'
  · exact .answer rfl hr'
  · exact .answer rfl hr'

end Until

end Parts

theorem resolved_simulated {target : σ → Except String (Matcher σ ε)}
    {target' : τ → Except String (Matcher τ δ)}
    (h : ∀ s t, R s t → (∃ message, target s = .error message ∧ target' t = .error message) ∨
      ∃ m n, target s = .ok m ∧ target' t = .ok n ∧ m.SimulatedBy R n) :
    (resolved target).SimulatedBy R (resolved target') := by
  intro pos s t hr
  unfold resolved
  rcases h s t hr with ⟨message, hs, ht⟩ | ⟨m, n, hs, ht, hmn⟩
  · simp only [hs, ht]
    exact .answer rfl hr
  · simp only [hs, ht]
    exact hmn pos s t hr

end Matcher

end TextGrammar
