import TextGrammar.Proofs.Matcher.Stepwise
import TextGrammar.Rule.Evaluate

/-!
# Rules step by step

The laws of sequences and repetitions, for rules and with the context passed on from one attempt to
the next.  A greedy repetition always matches: it goes on as long as the rule matches and moves.
-/

namespace TextGrammar.Rule

open Verdict
open Matcher (Strides)

def Gives (input : List Char) (rule : Rule) (pos : Nat) (c : Context) (v : Verdict)
    (c' : Context) : Prop := ∃ fuel, rule.matchAt fuel input pos c = some (v, c')

section Laws

variable {input : List Char} {rule stop : Rule} {pos : Nat} {c c' d : Context} {v w : Verdict}

theorem Gives.unique (h : Gives input rule pos c v c') (h' : Gives input rule pos c w d) :
    v = w ∧ c' = d := Prod.mk.inj ((matchAt_steady rule input pos c).unique h h')

theorem Gives.not_fails (h : Gives input rule pos c v c') (hok : v.isSuccessful = true)
    (h' : Gives input rule pos c w d) : ¬ w.isSuccessful = false := by
  obtain ⟨rfl, -⟩ := h.unique h'
  simp [hok]

theorem gives_eq_eval (input : List Char) (rule : Rule) :
    Gives input rule = Matcher.Gives fun fuel => eval input fuel rule := by
  funext pos c v c'
  simp only [Gives, Matcher.Gives, matchAt, Option.map_eq_some_iff, Prod.exists, Prod.mk.injEq,
    eq_iff_iff]
  constructor
  · rintro ⟨fuel, a, _, ha, hv, rfl⟩
    exact ⟨fuel, a, ha, hv⟩
  · rintro ⟨fuel, a, ha, hv⟩
    exact ⟨fuel, a, c', ha, hv, rfl⟩

theorem gives_eq_of_eval_succ {m : Nat → Matching}
    (h : ∀ fuel, eval input (fuel + 1) rule = m fuel) : Gives input rule = Matcher.Gives m := by
  obtain rfl : m = fun fuel => eval input (fuel + 1) rule := funext fun fuel => (h fuel).symm
  rw [gives_eq_eval]
  funext pos c v c'
  rw [eq_iff_iff]
  constructor
  · rintro ⟨fuel, a, ha, hv⟩
    cases fuel with
    | zero => simp [eval] at ha
    | succ fuel => exact ⟨fuel, a, ha, hv⟩
  · rintro ⟨fuel, a, ha, hv⟩
    exact ⟨fuel + 1, a, ha, hv⟩

theorem leaf_gives_iff {verdict : Nat → Verdict}
    (h : ∀ fuel, eval input (fuel + 1) rule = leaf verdict) :
    Gives input rule pos c v c' ↔ v = verdict pos ∧ c' = c := by
  rw [gives_eq_of_eval_succ h]
  constructor
  · rintro ⟨_, a, ha, rfl⟩
    obtain ⟨rfl, rfl⟩ := Prod.mk.inj (Option.some.inj ha)
    exact ⟨rfl, rfl⟩
  · rintro ⟨rfl, rfl⟩
    exact ⟨0, _, rfl, rfl⟩

theorem literal_gives_iff {text : String} :
    Gives input (.literal text) pos c v c' ↔ v = literalVerdict text input pos ∧ c' = c :=
  leaf_gives_iff fun _ => by rw [eval]

theorem length_gives_iff {n : Nat} :
    Gives input (.length n) pos c v c' ↔ v = lengthVerdict n input pos ∧ c' = c :=
  leaf_gives_iff fun _ => by rw [eval]

theorem lazy_gives_iff {name : String} (h : c.rule? name = .ok rule) :
    Gives input (.lazy name) pos c v c' ↔ Gives input rule pos c v c' := by
  have heval (fuel : Nat) :
      eval input (fuel + 1) (.lazy name) pos c = eval input fuel rule pos c := by
    rw [eval, Matcher.resolved, h]
    rfl
  rw [gives_eq_of_eval_succ fun fuel => rfl, gives_eq_eval input rule]
  simp only [Matcher.Gives, heval]

theorem not_lazy_gives {name : String} (h : c.rule? name = .ok (.lazy name)) :
    ¬Gives input (.lazy name) pos c v c' := by
  rw [gives_eq_eval]
  rintro ⟨fuel, a, ha, -⟩
  induction fuel with
  | zero => cases ha
  | succ fuel ih =>
      simp only [eval, Matcher.resolved, h] at ha
      exact ih ha

theorem setAndUse_gives_iff {name : String} :
    (∃ d, Gives input (.setAndUse name rule) pos c v d) ↔
      ∃ d, Gives input rule pos (c.bind name rule) v d := by
  rw [gives_eq_of_eval_succ fun fuel => by rw [eval], gives_eq_eval input rule]
  constructor
  · rintro ⟨_, fuel, a, ha, rfl⟩
    obtain ⟨⟨b, d⟩, hb, heq⟩ := Option.bind_eq_some_iff.1 ha
    obtain ⟨rfl, -⟩ := Prod.mk.inj (Option.some.inj heq)
    exact ⟨d, fuel, b, hb, rfl⟩
  · rintro ⟨d, fuel, a, ha, rfl⟩
    exact ⟨_, fuel, a, Option.bind_eq_some_iff.2 ⟨(a, d), ha, rfl⟩, rfl⟩

theorem completed_gives_iff :
    Gives input (.completed rule) pos c v c' ↔
      ∃ u, Gives input rule pos c u c' ∧ v = completion input u := by
  rw [gives_eq_of_eval_succ fun fuel => by rw [eval], gives_eq_eval input rule]
  constructor
  · rintro ⟨fuel, a, ha, rfl⟩
    obtain ⟨⟨b, d⟩, hb, heq⟩ := Option.bind_eq_some_iff.1 ha
    obtain ⟨rfl, rfl⟩ := Prod.mk.inj (Option.some.inj heq)
    exact ⟨b.verdict, ⟨fuel, b, hb, rfl⟩, rfl⟩
  · rintro ⟨_, ⟨fuel, b, hb, rfl⟩, rfl⟩
    exact ⟨fuel, _, Option.bind_eq_some_iff.2 ⟨(b, c'), hb, rfl⟩, rfl⟩

theorem completion_isSuccessful_iff :
    (completion input v).isSuccessful = true ↔
      v.isSuccessful = true ∧ v.stop = Text.byteLength input := by
  unfold completion
  cases hok : v.isSuccessful with
  | false => exact iff_of_false nofun nofun
  | true =>
      by_cases hstop : v.stop = Text.byteLength input
      · simp [hstop, hok]
      · simp [hstop, parseError, isSuccessful, Outcome.isSuccessful]

/-! ## Sequences -/

theorem sequence_gives_eq (input : List Char) (rules : List Rule) :
    Gives input (.sequence rules) =
      Matcher.Gives fun fuel => .sequence (rules.map (eval input fuel)) :=
  gives_eq_of_eval_succ fun fuel => by rw [eval]

theorem sequence_cons_gives_iff {rules : List Rule} :
    Gives input (.sequence (rule :: rules)) pos c v c' ↔
      ∃ u d, Gives input rule pos c u d ∧
        (u.isSuccessful = false ∧ v = .syntaxError "Sequence did not match" u.stop [u] ∧ d = c' ∨
          u.isSuccessful = true ∧ ∃ w, Gives input (.sequence rules) u.stop d w c' ∧
            v = { w with parts := u :: w.parts }) := by
  simp only [sequence_gives_eq, gives_eq_eval input rule]
  exact Matcher.sequence_cons_gives_iff (eval_steady input)

theorem sequence_singleton_gives_iff :
    Gives input (.sequence [rule]) pos c v c' ↔ ∃ u, Gives input rule pos c u c' ∧
      (u.isSuccessful = false ∧ v = .syntaxError "Sequence did not match" u.stop [u] ∨
        u.isSuccessful = true ∧ v = { success u.stop with parts := [u] }) := by
  have hnil {pos : Nat} {d : Context} {w : Verdict} :
      Gives input (.sequence []) pos d w c' ↔ w = success pos ∧ d = c' := by
    rw [sequence_gives_eq]
    exact Matcher.sequence_nil_gives_iff
  rw [sequence_cons_gives_iff]
  constructor
  · rintro ⟨u, d, hu, ⟨hfail, rfl, rfl⟩ | ⟨hok, w, hw, rfl⟩⟩
    · exact ⟨u, hu, .inl ⟨hfail, rfl⟩⟩
    · obtain ⟨rfl, rfl⟩ := hnil.1 hw
      exact ⟨u, hu, .inr ⟨hok, rfl⟩⟩
  · rintro ⟨u, hu, ⟨hfail, rfl⟩ | ⟨hok, rfl⟩⟩
    · exact ⟨u, c', hu, .inl ⟨hfail, rfl, rfl⟩⟩
    · exact ⟨u, c', hu, .inr ⟨hok, _, hnil.2 ⟨rfl, rfl⟩, rfl⟩⟩

/-! ## Repetitions -/

theorem repeating_gives_iff {atLeastOne : Bool} :
    Gives input (.repeating rule atLeastOne) pos c v c' ↔
      ∃ vs stop d w, Strides (Gives input rule) pos c vs stop d ∧ Gives input rule stop d w c' ∧
        (w.isSuccessful = true → w.stop = stop) ∧
        v = Matcher.repeated atLeastOne pos vs stop w := by
  rw [gives_eq_of_eval_succ fun fuel => by rw [eval], gives_eq_eval input rule]
  exact Matcher.repeating_gives_iff (eval_steady input rule)

theorem not_repeating_gives {atLeastOne : Bool} {P : Nat → Prop}
    (h : ∀ pos c v c', P pos → Gives input rule pos c v c' →
      v.isSuccessful = true ∧ v.stop ≠ pos ∧ P v.stop)
    (hpos : P pos) : ¬Gives input (.repeating rule atLeastOne) pos c v c' := by
  -- Where each match moves on to another place of the same kind, a repetition does not end.
  intro hgives
  obtain ⟨vs, stop, d, w, hstrides, hw, hlast, -⟩ := repeating_gives_iff.1 hgives
  have hstop : P stop := by
    clear hgives hw hlast
    induction hstrides with
    | nil => exact hpos
    | cons hv _ _ _ ih => exact ih (h _ _ _ _ hpos hv).2.2
  obtain ⟨hok, hmoves, -⟩ := h _ _ _ _ hstop hw
  exact hmoves (hlast hok)

theorem Gives.strides_nil {vs : List Verdict} {e : Nat} (h : Gives input rule pos c w c')
    (hfail : w.isSuccessful = false) (hstrides : Strides (Gives input rule) pos c vs e d) :
    vs = [] ∧ e = pos ∧ d = c := by
  cases hstrides with
  | nil => exact ⟨rfl, rfl, rfl⟩
  | cons hfirst hok => exact absurd hfail (hfirst.not_fails hok h)

theorem Gives.repeated_eq {vs : List Verdict} {e : Nat} {u : Verdict} {b : Context}
    (h : Gives input rule pos c w c') (hok : w.isSuccessful = true)
    (hstrides : Strides (Gives input rule) pos c vs e d) (hlast : Gives input rule e d u b) :
    Matcher.repeated true pos vs e u = Matcher.repeated false pos vs e u := by
  cases hstrides with
  | nil =>
      obtain ⟨rfl, -⟩ := h.unique hlast
      simp [Matcher.repeated, hok]
  | cons => simp [Matcher.repeated]

theorem repetition_is_greedy (input : List Char) (rule : Rule) (start : Nat) (c : Context) :
    (∀ v c', Gives input (.repeating rule false) start c v c' ↔
      ∃ vs stop d w, Strides (Gives input rule) start c vs stop d ∧ Gives input rule stop d w c' ∧
        (w.isSuccessful = false ∧ v = { success stop with parts := vs ++ [w.setAside] } ∨
          w.isSuccessful = true ∧ w.stop = stop ∧ v = { success stop with parts := vs ++ [w] })) ∧
    ∀ w d, Gives input rule start c w d →
      (w.isSuccessful = true → ∀ v c', Gives input (.repeating rule true) start c v c' ↔
        Gives input (.repeating rule false) start c v c') ∧
      (w.isSuccessful = false → ∀ v c', Gives input (.repeating rule true) start c v c' ↔
        v = .syntaxError "Expected at least one repetition" start [w] ∧ c' = d) := by
  refine ⟨fun v c' => ?_, fun w d hw => ⟨fun hok v c' => ?_, fun hfail v c' => ?_⟩⟩
  · rw [repeating_gives_iff]
    refine exists_congr fun vs => exists_congr fun stop => exists_congr fun d =>
      exists_congr fun w => and_congr_right fun _ => and_congr_right fun _ => ?_
    cases hok : w.isSuccessful <;> simp [Matcher.repeated, hok]
  · rw [repeating_gives_iff, repeating_gives_iff]
    refine exists_congr fun vs => exists_congr fun stop => exists_congr fun d =>
      exists_congr fun u => and_congr_right fun hstrides => and_congr_right fun hu =>
        and_congr_right fun _ => ?_
    rw [hw.repeated_eq hok hstrides hu]
  · rw [repeating_gives_iff]
    constructor
    · rintro ⟨vs, stop, d', u, hstrides, hu, -, rfl⟩
      obtain ⟨rfl, rfl, rfl⟩ := hw.strides_nil hfail hstrides
      obtain ⟨rfl, rfl⟩ := hw.unique hu
      exact ⟨by simp [Matcher.repeated, hfail], rfl⟩
    · rintro ⟨rfl, rfl⟩
      refine ⟨[], start, c, w, .nil start c, hw, fun hok => ?_, by simp [Matcher.repeated, hfail]⟩
      exact absurd (hfail.symm.trans hok) (by decide)

/-- Two characters are captured one after another; behind them there is nothing to repeat. -/
theorem repetition_is_greedy_captures :
    let rule : Rule := .set "x" (.length 1)
    let input := ['é', 'b']
    (∃ v c', Gives input (.repeating rule false) 0 {} v c' ∧ c'.captured? "x" = some "b" ∧
      ∃ vs stop d w, Strides (Gives input rule) 0 {} vs stop d ∧ Gives input rule stop d w c' ∧
        (w.isSuccessful = false ∧ v = { success stop with parts := vs ++ [w.setAside] } ∨
          w.isSuccessful = true ∧ w.stop = stop ∧ v = { success stop with parts := vs ++ [w] })) ∧
    (∃ w d, Gives input rule 0 {} w d ∧ w.isSuccessful = true ∧ ∀ v c',
      Gives input (.repeating rule true) 0 {} v c' ↔
        Gives input (.repeating rule false) 0 {} v c') ∧
    ∃ w d, Gives input rule 3 {} w d ∧ w.isSuccessful = false ∧ ∀ v c',
      Gives input (.repeating rule true) 3 {} v c' ↔
        v = .syntaxError "Expected at least one repetition" 3 [w] ∧ c' = d := by
  intro rule input
  obtain ⟨⟨v, c'⟩, hv, hcaptured⟩ : ∃ x, matchAt 8 (.repeating rule false) input 0 {} = some x ∧
      x.2.captured? "x" = some "b" := Option.map_eq_some_iff.1 (by decide +kernel)
  obtain ⟨⟨w, d⟩, hw, hok⟩ : ∃ x, matchAt 8 rule input 0 {} = some x ∧ x.1.isSuccessful = true :=
    Option.map_eq_some_iff.1 (by decide +kernel)
  obtain ⟨⟨w', d'⟩, hw', hfail⟩ : ∃ x, matchAt 8 rule input 3 {} = some x ∧
      x.1.isSuccessful = false := Option.map_eq_some_iff.1 (by decide +kernel)
  have hstart := repetition_is_greedy input rule 0 {}
  have hend := repetition_is_greedy input rule 3 {}
  exact ⟨⟨v, c', ⟨8, hv⟩, hcaptured, (hstart.1 v c').1 ⟨8, hv⟩⟩,
    ⟨w, d, ⟨8, hw⟩, hok, (hstart.2 w d ⟨8, hw⟩).1 hok⟩,
    w', d', ⟨8, hw'⟩, hfail, (hend.2 w' d' ⟨8, hw'⟩).2 hfail⟩

def Unstopped (input : List Char) (rule stop : Rule) (pos : Nat) (c : Context) (v : Verdict)
    (c' : Context) : Prop :=
  ∃ u d, Gives input stop pos c u d ∧ u.isSuccessful = false ∧ Gives input rule pos d v c'

private theorem asks_holds_iff {stopped : Bool} :
    Matcher.Asks (fun fuel => holds (eval input fuel stop)) pos c stopped d ↔
      ∃ u, Gives input stop pos c u d ∧ u.isSuccessful = stopped := by
  simp only [gives_eq_eval, Matcher.Asks, Matcher.Gives, holds, Option.map_eq_some_iff, Prod.exists,
    Prod.mk.injEq]
  constructor
  · rintro ⟨fuel, a, _, ha, hstopped, rfl⟩
    exact ⟨a.verdict, ⟨fuel, a, ha, rfl⟩, hstopped⟩
  · rintro ⟨_, ⟨fuel, a, ha, rfl⟩, hstopped⟩
    exact ⟨fuel, a, d, ha, hstopped, rfl⟩

private theorem unstopped_holds_eq (input : List Char) (rule stop : Rule) :
    Matcher.Unstopped (fun fuel => holds (eval input fuel stop))
        (fun fuel => eval input fuel rule) =
      Unstopped input rule stop := by
  funext pos c v c'
  simp only [Matcher.Unstopped, asks_holds_iff, ← gives_eq_eval, Unstopped, eq_iff_iff]
  constructor
  · rintro ⟨d, ⟨u, hu, hfail⟩, hv⟩
    exact ⟨u, d, hu, hfail, hv⟩
  · rintro ⟨u, d, hu, hfail, hv⟩
    exact ⟨d, ⟨u, hu, hfail⟩, hv⟩

theorem nonGreedy_gives_iff {atLeastOne : Bool} :
    Gives input (.nonGreedy rule stop atLeastOne) pos c v c' ↔
      ∃ vs e d, Strides (Unstopped input rule stop) pos c vs e d ∧
        ((∃ u, Gives input stop e d u c' ∧ u.isSuccessful = true ∧
            v = Matcher.repeatedUntil atLeastOne pos vs e none) ∨
          ∃ w, Unstopped input rule stop e d w c' ∧ (w.isSuccessful = true → w.stop = e) ∧
            v = Matcher.repeatedUntil atLeastOne pos vs e (some w)) := by
  have hask (pos : Nat) (c : Context) : Steady fun fuel => holds (eval input fuel stop) pos c :=
    fun _ _ hle => holds_extends (eval_extends input hle stop) pos c
  rw [gives_eq_of_eval_succ fun fuel => by rw [eval],
    Matcher.nonGreedy_gives_iff hask (eval_steady input rule), unstopped_holds_eq]
  refine exists_congr fun vs => exists_congr fun e => exists_congr fun d => ?_
  constructor
  · rintro ⟨last, hstrides, hlast, rfl⟩
    refine ⟨hstrides, ?_⟩
    cases hlast with
    | reached hstop =>
        obtain ⟨u, hu, hok⟩ := asks_holds_iff.1 hstop
        exact .inl ⟨u, hu, hok, rfl⟩
    | given hw hstay =>
        rw [unstopped_holds_eq] at hw
        exact .inr ⟨_, hw, hstay, rfl⟩
  · rintro ⟨hstrides, ⟨u, hu, hok, rfl⟩ | ⟨w, hw, hstay, rfl⟩⟩
    · exact ⟨none, hstrides, .reached (asks_holds_iff.2 ⟨u, hu, hok⟩), rfl⟩
    · rw [← unstopped_holds_eq] at hw
      exact ⟨some w, hstrides, .given hw hstay, rfl⟩

end Laws

end TextGrammar.Rule
