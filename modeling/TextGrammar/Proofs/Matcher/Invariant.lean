import TextGrammar.Matcher

/-!
# What holds of every attempt

A property of attempts that goes over from the parts of a matcher to the whole holds of every
attempt of the whole, as long as the state keeps what the parts rely on.  Each combinator is gone
through once, for any such property.
-/

namespace TextGrammar

variable {σ ε α : Type} {I : σ → Prop}

section Answers

variable {β γ τ : Type} {V : β → Prop} {W : γ → Prop} {J : τ → Prop}

def Answers (V : β → Prop) (I : σ → Prop) (x : Option (β × σ)) : Prop :=
  ∀ b s, x = some (b, s) → V b ∧ I s

theorem Answers.nothing : Answers V I none := nofun

theorem Answers.answer {b : β} {s : σ} (hv : V b) (hs : I s) : Answers V I (some (b, s)) := by
  rintro _ _ ⟨⟩
  exact ⟨hv, hs⟩

theorem Answers.mono {K : σ → Prop} {x : Option (β × σ)} (h : Answers V I x)
    (hstate : ∀ s, I s → K s) : Answers V K x :=
  fun b s hx => (h b s hx).imp id (hstate s)

theorem Answers.bind {x : Option (β × σ)} {f : β × σ → Option (γ × τ)} (h : Answers V I x)
    (hf : ∀ b s, V b → I s → Answers W J (f (b, s))) : Answers W J (x >>= f) := by
  intro c t hc
  obtain ⟨⟨b, s⟩, hx, hfb⟩ := Option.bind_eq_some_iff.1 hc
  obtain ⟨hv, hs⟩ := h b s hx
  exact hf b s hv hs c t hfb

end Answers

variable {P W : Nat → Attempt ε → Prop}

/-- Successful attempts as `P` says, each tried where the one before it stopped. -/
inductive Path (P : Nat → Attempt ε → Prop) : Nat → List (Attempt ε) → Nat → Prop where
  | nil (pos : Nat) : Path P pos [] pos
  | cons {pos stop : Nat} {a : Attempt ε} {as : List (Attempt ε)} :
      P pos a → a.isSuccessful = true → Path P a.stop as stop → Path P pos (a :: as) stop

theorem Path.isSuccessful {pos stop : Nat} {as : List (Attempt ε)} (h : Path P pos as stop) :
    ∀ a ∈ as, a.isSuccessful = true := by
  induction h with
  | nil pos => exact fun a ha => absurd ha List.not_mem_nil
  | cons _ ha _ ih => exact List.forall_mem_cons.2 ⟨ha, ih⟩

theorem Path.isFailure_verdicts {pos stop : Nat} {run : Run ε}
    (h : Path P pos run.attempts stop) {further : List Verdict}
    (hfurther : ∀ v ∈ further, v.aside = true) :
    ∀ v ∈ run.verdicts ++ further, v.isFailure = false := by
  intro v hv
  unfold Verdict.isFailure
  rcases List.mem_append.1 hv with hv | hv
  · obtain ⟨a, ha, rfl⟩ := List.mem_map.1 hv
    have hok : a.verdict.isSuccessful = true := h.isSuccessful a ha
    simp [hok]
  · simp [hfurther v hv]

/-- How a run went that an attempt which failed would have ended where it failed. -/
inductive Run.Traces (P : Nat → Attempt ε → Prop) (pos : Nat) : Run ε → Prop where
  | finished {as : List (Attempt ε)} {stop : Nat} :
      Path P pos as stop → Traces P pos ⟨as, stop, .finished⟩
  | stalled {as : List (Attempt ε)} {stop : Nat} :
      Path P pos as stop → Traces P pos ⟨as, stop, .stalled⟩
  | failed {as : List (Attempt ε)} {last : Nat} {a : Attempt ε} : Path P pos as last → P last a →
      a.isSuccessful = false → Traces P pos ⟨as, a.stop, .failed a.verdict⟩

theorem Run.Traces.cons {pos : Nat} {a : Attempt ε} {run : Run ε} (ha : P pos a)
    (hok : a.isSuccessful = true) (h : run.Traces P a.stop) : (run.cons a).Traces P pos := by
  cases h with
  | finished hpath => exact .finished (.cons ha hok hpath)
  | stalled hpath => exact .stalled (.cons ha hok hpath)
  | failed hpath hlast hfail => exact .failed (.cons ha hok hpath) hlast hfail

/-- How a run went that an attempt which failed would have ended where it was tried. -/
inductive Run.Repeats (P : Nat → Attempt ε → Prop) (pos : Nat) : Run ε → Prop where
  | stalled {as : List (Attempt ε)} {stop : Nat} :
      Path P pos as stop → Repeats P pos ⟨as, stop, .stalled⟩
  | failed {as : List (Attempt ε)} {last : Nat} {a : Attempt ε} : Path P pos as last → P last a →
      a.isSuccessful = false → Repeats P pos ⟨as, last, .failed a.verdict⟩

theorem Run.Repeats.cons {pos : Nat} {a : Attempt ε} {run : Run ε} (ha : P pos a)
    (hok : a.isSuccessful = true) (h : run.Repeats P a.stop) : (run.cons a).Repeats P pos := by
  cases h with
  | stalled hpath => exact .stalled (.cons ha hok hpath)
  | failed hpath hlast hfail => exact .failed (.cons ha hok hpath) hlast hfail

namespace Attempt

private theorem better_eq_some {best : Option (Attempt ε)} {a b : Attempt ε}
    (h : better best a = some b) : best = some b ∨ b = a ∧ a.isSuccessful = true := by
  unfold better at h
  split at h
  · rename_i hok
    split at h
    · exact .inr ⟨(Option.some.inj h).symm, hok⟩
    · split at h
      · exact .inr ⟨(Option.some.inj h).symm, hok⟩
      · exact .inl h
  · exact .inl h

private theorem better_eq_none {best : Option (Attempt ε)} {a : Attempt ε}
    (h : better best a = none) : best = none ∧ a.isSuccessful = false := by
  unfold better at h
  split at h
  · split at h
    · exact absurd h nofun
    · split at h <;> exact absurd h nofun
  · rename_i hfail
    exact ⟨h, Bool.eq_false_iff.2 hfail⟩

private theorem foldl_better_eq_some {as : List (Attempt ε)} {best : Option (Attempt ε)}
    {b : Attempt ε}
    (h : as.foldl better best = some b) : best = some b ∨ b ∈ as ∧ b.isSuccessful = true := by
  induction as generalizing best with
  | nil => exact .inl h
  | cons a as ih =>
      rcases ih h with hbest | ⟨hmem, hok⟩
      · rcases better_eq_some hbest with hbest | ⟨rfl, hok⟩
        · exact .inl hbest
        · exact .inr ⟨List.mem_cons_self, hok⟩
      · exact .inr ⟨List.mem_cons_of_mem _ hmem, hok⟩

private theorem mem_of_best {as : List (Attempt ε)} {b : Attempt ε} (h : best as = some b) :
    b ∈ as := by
  rcases foldl_better_eq_some h with hnone | ⟨hmem, -⟩
  · exact absurd hnone nofun
  · exact hmem

private theorem foldl_better_eq_none {as : List (Attempt ε)} {best : Option (Attempt ε)}
    (h : as.foldl better best = none) : best = none ∧ ∀ a ∈ as, a.isSuccessful = false := by
  induction as generalizing best with
  | nil => exact ⟨h, fun a ha => absurd ha List.not_mem_nil⟩
  | cons a as ih =>
      obtain ⟨hbetter, hfail⟩ := ih h
      obtain ⟨hbest, ha⟩ := better_eq_none hbetter
      exact ⟨hbest, List.forall_mem_cons.2 ⟨ha, hfail⟩⟩

theorem isSuccessful_of_best_eq_none {as : List (Attempt ε)} (h : best as = none) :
    ∀ a ∈ as, a.isSuccessful = false := (foldl_better_eq_none h).2

end Attempt

/-! ## Properties that go over to the whole -/

namespace Matcher

structure CompositionalBound (P W : Nat → Attempt ε → Prop) : Prop where
  passed : ∀ {pos : Nat} {run : Run ε}, Path P pos run.attempts run.stop → W pos (run.toAttempt [])
  leftOff : ∀ {pos : Nat} {run : Run ε} {a : Attempt ε}, Path P pos run.attempts run.stop →
    P run.stop a → a.isSuccessful = false → W pos (run.toAttempt [a.verdict.setAside])
  broken : ∀ {pos last : Nat} {as : List (Attempt ε)} {a : Attempt ε} {message : String},
    message ≠ "" → Path P pos as last → P last a → a.isSuccessful = false →
      W pos (.failed (.syntaxError message a.stop (as.map Attempt.verdict ++ [a.verdict])))
  stalled : ∀ {pos stop : Nat} {as : List (Attempt ε)}, Path P pos as stop →
    W pos (.failed (.syntaxError "Repetition made no progress before the stop rule matched" stop
      (as.map Attempt.verdict)))
  refused : ∀ {pos : Nat} {as : List (Attempt ε)} {message : String}, message ≠ "" →
    (as = [] → message = "No alternative matched") →
    (∀ a ∈ as, P pos a ∧ a.isSuccessful = false) →
      W pos (.failed (.syntaxError message pos (as.map Attempt.verdict)))
  disallowed : ∀ (pos : Nat) (message : String), W pos (.failed (.parseError message pos))

/-- Attempts of the combinators are as `P` says when those of their parts are. -/
structure Compositional (P : Nat → Attempt ε → Prop) : Prop extends CompositionalBound P P where
  unknown : ∀ (pos : Nat) (message : String), P pos (.failed (.unknownError message pos))

/-- In a state as `I` says, every attempt of `m` is as `P` says and leaves such a state behind. -/
def Ensures (I : σ → Prop) (P : Nat → Attempt ε → Prop) (m : Matcher σ ε) : Prop :=
  ∀ pos s, I s → Answers (P pos) I (m pos s)

section Lists

variable {f : α → Matcher σ ε} {as : List α} (h : ∀ a ∈ as, (f a).Ensures I P)

include h

private theorem chain_traces :
    ∀ pos s, I s → Answers (Run.Traces P pos) I (chain (as.map f) pos s) := by
  induction as with
  | nil =>
      intro pos s hs
      exact .answer (.finished (.nil pos)) hs
  | cons a as ih =>
      intro pos s hs
      simp only [List.map_cons, chain]
      refine (h a List.mem_cons_self pos s hs).bind ?_
      intro b s' hb hs'
      dsimp only
      split
      · rename_i hok
        have hrest := ih (fun c hc => h c (List.mem_cons_of_mem a hc)) b.stop s' hs'
        refine hrest.bind ?_
        intro run s'' hrun hs''
        exact .answer (hrun.cons hb hok) hs''
      · rename_i hfail
        exact .answer (.failed (.nil pos) hb (Bool.eq_false_iff.2 hfail)) hs'

theorem sequence_ensures (hp : CompositionalBound P W) : (sequence (as.map f)).Ensures I W := by
  intro pos s hs
  refine (chain_traces h pos s hs).bind ?_
  intro run s' hrun hs'
  cases hrun with
  | finished hpath => exact .answer (hp.passed hpath) hs'
  | stalled hpath => exact .answer (hp.passed hpath) hs'
  | failed hpath hlast hfail => exact .answer (hp.broken (by decide) hpath hlast hfail) hs'

theorem attempts_ensures (untilSuccess : Bool) : ∀ pos s, I s →
    Answers (fun bs => ∀ b ∈ bs, P pos b) I (attempts untilSuccess (as.map f) pos s) := by
  induction as with
  | nil =>
      intro pos s hs
      exact .answer (fun b hb => absurd hb List.not_mem_nil) hs
  | cons a as ih =>
      intro pos s hs
      simp only [List.map_cons, attempts]
      refine (h a List.mem_cons_self pos s hs).bind ?_
      intro b s' hb hs'
      dsimp only
      split
      · exact .answer (List.forall_mem_singleton.2 hb) hs'
      · have hrest := ih (fun c hc => h c (List.mem_cons_of_mem a hc)) pos s' hs'
        refine hrest.bind ?_
        intro bs s'' hbs hs''
        exact .answer (List.forall_mem_cons.2 ⟨hb, hbs⟩) hs''

theorem choice_ensures (hp : CompositionalBound P P) (longest : Bool) :
    (choice longest (as.map f)).Ensures I P := by
  intro pos s hs
  refine (attempts_ensures h (!longest) pos s hs).bind ?_
  intro bs s' hbs hs'
  dsimp only
  cases hbest : Attempt.best bs with
  | none =>
      have hfail := Attempt.isSuccessful_of_best_eq_none hbest
      exact .answer (hp.refused (by decide) (fun _ => rfl) fun b hb => ⟨hbs b hb, hfail b hb⟩) hs'
  | some b => exact .answer (hbs b (Attempt.mem_of_best hbest)) hs'

end Lists

section Parts

variable {m : Matcher σ ε} (h : m.Ensures I P)

include h

theorem onSuccess_ensures {update : Nat → Attempt ε → σ → σ}
    (hupdate : ∀ pos a s, P pos a → I s → I (update pos a s)) :
    (m.onSuccess update).Ensures I P := by
  intro pos s hs
  refine (h pos s hs).bind ?_
  intro a s' ha hs'
  dsimp only
  split
  · exact .answer ha (hupdate pos a s' ha hs')
  · exact .answer ha hs'

theorem before_ensures {update : σ → σ} (hupdate : ∀ s, I s → I (update s)) :
    (before update m).Ensures I P := fun pos s hs => h pos (update s) (hupdate s hs)

private theorem rounds_repeats (fuel : Nat) :
    ∀ pos s, I s → Answers (Run.Repeats P pos) I (rounds m fuel pos s) := by
  induction fuel with
  | zero =>
      intro pos s _
      exact .nothing
  | succ fuel ih =>
      intro pos s hs
      simp only [rounds]
      refine (h pos s hs).bind ?_
      intro a s' ha hs'
      dsimp only
      split
      · rename_i hfail
        exact .answer (.failed (.nil pos) ha (by simpa using hfail)) hs'
      · rename_i hok
        have hsuccess : a.isSuccessful = true := by simpa using hok
        split
        · rename_i hstop
          exact .answer (.stalled (.cons ha hsuccess (hstop ▸ .nil _))) hs'
        · refine (ih a.stop s' hs').bind ?_
          intro run s'' hrun hs''
          exact .answer (hrun.cons ha hsuccess) hs''

variable (hp : CompositionalBound P W)

include hp

theorem optional_ensures : (optional m).Ensures I W := by
  intro pos s hs
  refine (h pos s hs).bind ?_
  intro a s' ha hs'
  dsimp only
  split
  · rename_i hok
    have hpath : Path P pos [a] a.stop := .cons ha hok (.nil _)
    have hpassed : W pos (Run.toAttempt ⟨[a], a.stop, .finished⟩ []) := hp.passed hpath
    simp only [Run.toAttempt, Run.emitted, Run.verdicts, List.flatMap_singleton, List.map_singleton,
      List.append_nil] at hpassed
    exact .answer hpassed hs'
  · rename_i hfail
    have hleft : W pos (Run.toAttempt ⟨[], pos, .finished⟩ [a.verdict.setAside]) :=
      hp.leftOff (.nil pos) ha (Bool.eq_false_iff.2 hfail)
    exact .answer hleft hs'

theorem repeating_ensures (fuel : Nat) (atLeastOne : Bool) :
    (repeating fuel atLeastOne m).Ensures I W := by
  intro pos s hs
  refine (rounds_repeats h fuel pos s hs).bind ?_
  intro run s' hrun hs'
  cases hrun with
  | stalled hpath => exact .answer (hp.passed hpath) hs'
  | failed hpath hlast hfail =>
      dsimp only
      split
      · rename_i hfirst
        simp only [Bool.and_eq_true, List.isEmpty_iff] at hfirst
        obtain ⟨-, rfl⟩ := hfirst
        cases hpath
        exact .answer (hp.refused (by decide) (fun hnone => absurd hnone (List.cons_ne_nil _ _))
          (List.forall_mem_singleton.2 ⟨hlast, hfail⟩)) hs'
      · exact .answer (hp.leftOff hpath hlast hfail) hs'

section Until

variable {stop : Nat → σ → Option (Bool × σ)}
  (hstop : ∀ pos s, I s → Answers (fun _ => True) I (stop pos s))

include hstop

omit hp in
private theorem roundsUntil_traces (fuel : Nat) :
    ∀ pos s, I s → Answers (Run.Traces P pos) I (roundsUntil stop m fuel pos s) := by
  induction fuel with
  | zero =>
      intro pos s _
      exact .nothing
  | succ fuel ih =>
      intro pos s hs
      simp only [roundsUntil]
      refine (hstop pos s hs).bind ?_
      intro stopped s₀ _ hs₀
      dsimp only
      split
      · exact .answer (.finished (.nil pos)) hs₀
      refine (h pos s₀ hs₀).bind ?_
      intro a s' ha hs'
      dsimp only
      split
      · rename_i hfail
        exact .answer (.failed (.nil pos) ha (by simpa using hfail)) hs'
      · rename_i hok
        have hsuccess : a.isSuccessful = true := by simpa using hok
        split
        · rename_i hstay
          exact .answer (.stalled (.cons ha hsuccess (hstay ▸ .nil _))) hs'
        · refine (ih a.stop s' hs').bind ?_
          intro run s'' hrun hs''
          exact .answer (hrun.cons ha hsuccess) hs''

theorem nonGreedy_ensures (fuel : Nat) (atLeastOne : Bool) :
    (nonGreedy fuel atLeastOne stop m).Ensures I W := by
  intro pos s hs
  refine (roundsUntil_traces h hstop fuel pos s hs).bind ?_
  intro run s' hrun hs'
  cases hrun with
  | finished hpath =>
      dsimp only
      split
      · exact .answer (hp.disallowed _ _) hs'
      · exact .answer (hp.passed hpath) hs'
  | stalled hpath => exact .answer (hp.stalled hpath) hs'
  | failed hpath hlast hfail => exact .answer (hp.broken (by decide) hpath hlast hfail) hs'

end Until

end Parts

theorem resolved_ensures {target : σ → Except String (Matcher σ ε)} (hp : Compositional P)
    (h : ∀ s m, I s → target s = .ok m → m.Ensures I P) : (resolved target).Ensures I P := by
  intro pos s hs
  unfold resolved
  split
  · rename_i m hm
    exact h s m hs hm pos s hs
  · exact .answer (hp.unknown _ _) hs

end Matcher

end TextGrammar
