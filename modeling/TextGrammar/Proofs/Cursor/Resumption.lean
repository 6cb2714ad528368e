import TextGrammar.Proofs.Escape.Resolution
import TextGrammar.Proofs.Escape.Significance
import TextGrammar.Proofs.Escape.Stopping

/-!
# Resuming a scan

A scan that stops leaves its engine behind the character in front of which the cursor stands, so
that the engine reads this character again when the scan is resumed.  The text that comes of it is
that of a scan without the stop, and unless the character is a quote or a bracket, so is the engine.
-/

namespace TextGrammar

open Escape

namespace Escape.Engine

variable {e : Engine} {x : Char}

theorem plain_of_shouldConsider (h : e.WellFormed) (hx : (e.consider x).2.shouldConsider = true) :
    e.phase = .plain ∧ e.format.trigger ≠ some x := by
  simp only [shouldConsider, Bool.and_eq_true, decide_eq_true_eq, Bool.not_eq_true'] at hx
  obtain ⟨⟨⟨hphase, hprev⟩, -⟩, -⟩ := hx
  cases hbefore : e.phase with
  | plain =>
      refine ⟨rfl, fun htrigger => ?_⟩
      rw [consider_trigger hbefore htrigger] at hphase
      cases hphase
  | escaped =>
      by_cases hcode : x = e.format.unicodeCode
      · rw [consider_unicodeCode hbefore hcode] at hphase
        cases hphase
      · rw [consider_code hbefore hcode] at hprev
        cases hprev
  | unicode =>
      -- The flag set by the code outlasts the digits, also the last of them.
      have hescaped := h.prevEscaped_of_unicode hbefore
      by_cases hdigits : e.pending.length < 3
      · rw [consider_digit hbefore hdigits] at hprev
        exact Bool.noConfusion (hescaped.symm.trans hprev)
      · rw [consider_lastDigit hbefore (Nat.not_lt.1 hdigits)] at hprev
        exact Bool.noConfusion (hescaped.symm.trans hprev)

theorem consider_plain_sameEscape (hphase : e.phase = .plain) (hx : e.format.trigger ≠ some x) :
    (e.consider x).1 = [x] ∧ SameEscape (e.consider x).2 e := by
  rw [consider_plain hphase hx]
  exact ⟨rfl, by simp, by simp, by simp⟩

theorem consider_eq_self (h : e.shouldConsider = true) (htrigger : e.format.trigger ≠ some x)
    (hx : e.format.IsOrdinary x) : (e.consider x).2 = e := by
  simp only [shouldConsider, Bool.and_eq_true, decide_eq_true_eq, Bool.not_eq_true'] at h
  obtain ⟨⟨⟨hphase, hprev⟩, hquotes⟩, -⟩ := h
  have hclosed : e.openQuotes.findIdx? id = none := by
    rw [← Option.not_isSome_iff_eq_none, List.findIdx?_isSome]
    simpa [inQuotes] using hquotes
  have hsame : { e with prevEscaped := false } = e := by rw [← hprev]
  rw [consider_plain hphase htrigger, hsame]
  simp only [track, hclosed, trackOutside_of_isOrdinary hx]

theorem complete_append (e : Engine) (a b : List Char) :
    e.complete (a ++ b) = (e.feed a).1 ++ (e.feed a).2.complete b := by
  simp [complete, feed_append, List.append_assoc]

end Escape.Engine

namespace Cursor

private theorem remainingConsidering_snd (c : Cursor) (e : Engine) :
    (c.remainingConsidering e).2 = ((e.feed c.ahead).2, c.advance c.ahead.length) := by
  simp [remainingConsidering, readUntilConsidering, scanned, Engine.scanResolved, scanFrom_never]

/-- How a resolved scan of the text ahead ends: in front of a character that is considered, or
behind the whole text.  The context is then `k`. -/
inductive Resolves (c : Cursor) (e : Engine) (k : Context) : List Char × Engine × Cursor → Prop
  | stopped {front rest : List Char} {x : Char} (hahead : c.ahead = front ++ x :: rest)
      (considered : ((e.feed front).2.consider x).2.shouldConsider = true) :
      Resolves c e k ((e.feed front).1, ((e.feed front).2.consider x).2,
        { c.advance front.length with context := k })
  | exhausted :
      Resolves c e k (e.complete c.ahead, (e.feed c.ahead).2,
        { c.advance c.ahead.length with context := k })

theorem resolves_scanned {σ : Type} (c : Cursor) (e : Engine) (k : Context) (stop : StopCondition σ)
    (s : σ) : c.Resolves e k ({ c with context := k }.scanned (e.scanResolved stop s c.ahead)) := by
  have hends := e.scanFrom_ends true stop s c.ahead
  simp only [scanned, Engine.scanResolved]
  generalize e.scanFrom true stop [] 0 s c.ahead = scan at hends
  cases hends with
  | @stopped n _ inside considered =>
      have hahead : c.ahead = c.ahead.take n ++ c.ahead[n] :: c.ahead.drop (n + 1) := by
        rw [← List.drop_eq_getElem_cons inside, List.take_append_drop]
      have hlength : (c.ahead.take n).length = n := List.length_take_of_le (Nat.le_of_lt inside)
      have hflush := Engine.trailing_of_shouldConsider considered
      have hbehind := Engine.behind_succ (e := e) inside
      rw [Engine.considers, hbehind] at considered
      simp only [hflush, List.append_nil]
      rw [hbehind]
      have hstopped : c.Resolves e k _ := .stopped hahead considered
      rwa [hlength] at hstopped
  | exhausted =>
      simp only [Engine.gathered, Engine.behind, List.take_length, if_true]
      exact .exhausted

private theorem exists_of_hasNext {c c' : Cursor} {e e' : Engine} {p : Char → Bool}
    {text : List Char}
    (h : c.readUntilConsidering e p = (text, e', c')) (hnext : c'.hasNext = true) :
    ∃ front x rest, c.ahead = front ++ x :: rest ∧ c' = c.advance front.length ∧
      text = (e.feed front).1 ∧ e' = ((e.feed front).2.consider x).2 ∧
      e'.shouldConsider = true := by
  have hresolves := c.resolves_scanned e c.context (Engine.stopAt p) ()
  rw [show c.scanned _ = (text, e', c') from h] at hresolves
  cases hresolves with
  | stopped hahead considered => exact ⟨_, _, _, hahead, rfl, rfl, rfl, considered⟩
  | exhausted =>
      simp only [hasNext, advance, length, ahead, List.length_drop, decide_eq_true_eq] at hnext
      omega

theorem resumed_scan_reads_same {c c' : Cursor} {e e' : Engine} (he : e.Reachable)
    {p : Char → Bool} {text : List Char} (h : c.readUntilConsidering e p = (text, e', c'))
    (hnext : c'.hasNext = true) :
    text ++ (c'.remainingConsidering e').1 = (c.remainingConsidering e).1 ∧
    ((∀ x, c'.peek = some x → e.format.IsOrdinary x) →
      (c'.remainingConsidering e').2 = (c.remainingConsidering e).2) := by
  obtain ⟨front, x, rest, hahead, rfl, rfl, rfl, hconsider⟩ := exists_of_hasNext h hnext
  have hahead' : (c.advance front.length).ahead = x :: rest := by
    simp only [ahead, advance, ← List.drop_drop] at hahead ⊢
    rw [hahead, List.drop_left]
  obtain ⟨hphase, htrigger⟩ :=
    Engine.plain_of_shouldConsider (he.wellFormed.feed front) hconsider
  obtain ⟨hfirst, hsame⟩ := Engine.consider_plain_sameEscape hphase htrigger
  have htrigger' : ((e.feed front).2.consider x).2.format.trigger ≠ some x := by
    simpa using htrigger
  -- The second time the quotes and counts may differ, but not what is read.
  obtain ⟨hagain, hsame'⟩ :=
    Engine.consider_plain_sameEscape (hsame.phase.trans hphase) htrigger'
  constructor
  · rw [remainingConsidering_eq_complete, remainingConsidering_eq_complete, hahead, hahead',
      Engine.complete_append, Engine.complete_cons, Engine.complete_cons, hagain, hfirst,
      hsame'.complete]
  · intro hordinary
    have hpeek : (c.advance front.length).peek = some x := by
      have hhead := congrArg List.head? hahead'
      simpa [ahead, peek] using hhead
    have hself := Engine.consider_eq_self hconsider htrigger' (by simpa using hordinary x hpeek)
    rw [remainingConsidering_snd, remainingConsidering_snd, hahead, hahead', Engine.feed_append]
    simp [Engine.feed, hself, advance, Nat.add_assoc]

/-- A comma that is read again between a quoted one and an escaped one. -/
theorem resumed_scan_reads_same_quoted :
    let c : Cursor := { content := ['"', ',', '"', ',', '\\', ',', '"'] }
    let e : Engine := .start (.ofSettings [.trigger '\\', .quote '"'])
    ∃ text e' c', e.Reachable ∧ c.readUntilConsidering e (· = ',') = (text, e', c') ∧
      c'.index = 3 ∧ c'.hasNext = true ∧
      text ++ (c'.remainingConsidering e').1 = (c.remainingConsidering e).1 ∧
      (c'.remainingConsidering e').2 = (c.remainingConsidering e).2 := by
  intro c e
  have he : e.Reachable :=
    ⟨[.configure 0 (.trigger '\\'), .configure 0 (.quote '"')], _, .head _, rfl⟩
  have hplace : (c.readUntilConsidering e (· = ',')).2.2.index = 3 := by decide +kernel
  have hnext : (c.readUntilConsidering e (· = ',')).2.2.hasNext = true := by decide +kernel
  have hpeek : (c.readUntilConsidering e (· = ',')).2.2.peek = some ',' := by decide +kernel
  obtain ⟨hsame, hbehind⟩ := resumed_scan_reads_same he rfl hnext
  refine ⟨_, _, _, he, rfl, hplace, hnext, hsame, hbehind fun x hx => ?_⟩
  obtain rfl : ',' = x := Option.some.inj (hpeek.symm.trans hx)
  exact ⟨by decide, by decide⟩

end Cursor

end TextGrammar
