import TextGrammar.Proofs.Cursor.Consumption
import TextGrammar.Proofs.Cursor.Exhaustion
import TextGrammar.Proofs.Cursor.Stopping
import TextGrammar.Proofs.Rule.Stepwise

/-!
# Scans without a format

A format without a trigger gives no text another meaning: whatever the quotes and brackets, a
resolved scan returns the characters it passes over.  Without quotes and brackets the engine
considers every character and never changes, and the scans under it are plain ones.
-/

namespace TextGrammar

open Escape

namespace Escape

private theorem inherited_untriggered : Inherited fun x =>
    x.engine.format.trigger = none → x.engine.phase = .plain ∧ x.engine.prevEscaped = false where
  configure x s h htrigger := by
    cases s with
    | trigger c => cases htrigger
    | unicodeCode c | escape code literal | quote c | brackets left right => exact h htrigger
  consider x c h htrigger := by
    have htrigger : x.engine.format.trigger = none := by
      simpa [Configured.consider] using htrigger
    have hphase := (h htrigger).1
    simp [Configured.consider, Engine.consider_plain hphase (c := c) (by simp [htrigger]), hphase]
  reset x h htrigger := ⟨rfl, rfl⟩

namespace Engine

variable {e : Engine}

theorem Reachable.plain_of_trigger_none (h : e.Reachable) (htrigger : e.format.trigger = none) :
    e.phase = .plain ∧ e.prevEscaped = false := by
  obtain ⟨operations, x, hx, rfl⟩ := h
  exact inherited_untriggered.enginesAfter (fun _ => ⟨rfl, rfl⟩) operations x hx htrigger

private theorem feed_of_trigger_none (htrigger : e.format.trigger = none)
    (hphase : e.phase = .plain)
    (text : List Char) : (e.feed text).1 = text ∧ (e.feed text).2.phase = .plain := by
  induction text generalizing e with
  | nil => exact ⟨rfl, hphase⟩
  | cons x text ih =>
      obtain ⟨hfirst, hsame⟩ := consider_plain_sameEscape (x := x) hphase (by simp [htrigger])
      obtain ⟨htext, hrest⟩ := ih (hsame.format ▸ htrigger) (hsame.phase.trans hphase)
      exact ⟨by simp [feed, hfirst, htext], hrest⟩

private theorem complete_of_trigger_none (htrigger : e.format.trigger = none)
    (hphase : e.phase = .plain) (text : List Char) :
    e.complete text = text := by
  obtain ⟨htext, hrest⟩ := feed_of_trigger_none htrigger hphase text
  simp [complete, htext, trailing, hrest]

/-- Every character is considered and none has a meaning of its own. -/
structure Transparent (e : Engine) : Prop where
  considers : e.shouldConsider = true
  untriggered : e.format.trigger = none
  ordinary : ∀ x, e.format.IsOrdinary x

namespace Transparent

theorem of_reachable (h : e.Reachable) (htrigger : e.format.trigger = none)
    (hquotes : e.format.quotes = []) (hbrackets : e.format.brackets = []) : e.Transparent where
  considers := by
    obtain ⟨hphase, hprev⟩ := h.plain_of_trigger_none htrigger
    have hopen : e.openQuotes = [] := by
      rw [← List.length_eq_zero_iff, h.wellFormed.openQuotes, hquotes, List.length_nil]
    have hcounts : e.counts = [] := by
      rw [← List.length_eq_zero_iff, h.wellFormed.counts, hbrackets, List.length_nil]
    simp [shouldConsider, hphase, hprev, inQuotes, inBrackets, hopen, hcounts]
  untriggered := htrigger
  ordinary x := by simp [Format.IsOrdinary, hquotes, hbrackets]

theorem consider (h : e.Transparent) (x : Char) : e.consider x = ([x], e) := by
  have hphase : e.phase = .plain := by
    have hconsiders := h.considers
    simp only [shouldConsider, Bool.and_eq_true, decide_eq_true_eq] at hconsiders
    exact hconsiders.1.1.1
  have hx : e.format.trigger ≠ some x := by simp [h.untriggered]
  apply Prod.ext
  · exact (consider_plain_sameEscape hphase hx).1
  · exact consider_eq_self h.considers hx (h.ordinary x)

theorem feed (h : e.Transparent) (text : List Char) : e.feed text = (text, e) := by
  induction text with
  | nil => rfl
  | cons x text ih => simp [Engine.feed, h.consider, ih]

theorem considers_at (h : e.Transparent) (text : List Char) (n : Nat) :
    e.considers text n = true := by
  simp [Engine.considers, behind, h.feed, h.considers]

theorem gathered (h : e.Transparent) (resolved : Bool) (text : List Char) (n : Nat) :
    e.gathered resolved text n = text.take n := by
  simp [Engine.gathered, h.feed]

theorem scanFrom_stopAt (h : e.Transparent) (resolved : Bool) (p : Char → Bool)
    (sofar : List Char) (length : Nat) (text : List Char) :
    e.scanFrom resolved (stopAt p) sofar length () text =
      let taken := text.takeWhile fun x => !p x
      ⟨sofar ++ taken, length + taken.length, e, ()⟩ := by
  induction text generalizing sofar length with
  | nil => simp [scanFrom]
  | cons x text ih =>
      simp only [scanFrom, h.consider, h.considers, if_true, stopAt]
      cases hx : p x with
      | true => simp [hx]
      | false =>
          simp only [ite_self, ih, hx, List.takeWhile_cons, Bool.not_false, if_true,
            List.append_assoc, List.singleton_append, List.length_cons]
          rw [Nat.add_assoc, Nat.add_comm 1]

end Transparent

end Engine

end Escape

namespace Cursor

open Engine (Transparent)

inductive FailsUpTo (c : Cursor) (rule : Rule) : Nat → Context → Prop
  | start : FailsUpTo c rule 0 c.context
  | next {n : Nat} {k k' : Context} {v : Verdict} (before : FailsUpTo c rule n k)
      (attempt : Rule.Gives c.content rule (c.advance n).byteOffset k v k')
      (fails : v.isSuccessful = false) : FailsUpTo c rule (n + 1) k'

inductive ReadsUpTo (c : Cursor) (rule : Rule) : List Char × Cursor → Prop
  | found {n : Nat} {k k' : Context} {v : Verdict} (inside : n < c.ahead.length)
      (before : c.FailsUpTo rule n k)
      (attempt : Rule.Gives c.content rule (c.advance n).byteOffset k v k')
      (matched : v.isSuccessful = true) :
      ReadsUpTo c rule (c.ahead.take n, { c with index := c.index + n, context := k' })
  | absent {k : Context} (before : c.FailsUpTo rule c.ahead.length k) :
      ReadsUpTo c rule (c.ahead, { c with index := c.length, context := k })

section Rules

variable {c : Cursor} {e : Engine} {rule : Rule} {n : Nat} {k k' : Context}

theorem ContextBefore.unique (h : c.ContextBefore e rule n k) (h' : c.ContextBefore e rule n k') :
    k = k' :=
  Engine.threaded_unique (matchAttempt_steady rule c.content) (threaded_iff_contextBefore.2 h)
    (threaded_iff_contextBefore.2 h')

private theorem failsUpTo_iff (h : e.Transparent) : c.FailsUpTo rule n k ↔
    c.ContextBefore e rule n k ∧ ∀ i < n, c.MatchAnswers e rule i false := by
  constructor
  · intro hfails
    induction hfails with
    | start => exact ⟨.start, nofun⟩
    | @next n k k' v _ attempt fails ih =>
        obtain ⟨hbefore, hnone⟩ := ih
        obtain ⟨fuel, hattempt⟩ := attempt
        refine ⟨.tried hbefore (h.considers_at _ _) hattempt, fun i hi => ?_⟩
        rcases Nat.lt_succ_iff_lt_or_eq.1 hi with hlt | rfl
        · exact hnone i hlt
        · exact ⟨k, fuel, v, k', hbefore, hattempt, fails⟩
  · rintro ⟨hbefore, hnone⟩
    induction hbefore with
    | start => exact .start
    | skipped _ hskipped => simp [h.considers_at] at hskipped
    | @tried n fuel k k' v hbefore _ hattempt ih =>
        obtain ⟨d, fuel', w, d', hbefore', hattempt', hfails⟩ := hnone n (Nat.lt_succ_self n)
        obtain rfl := hbefore.unique hbefore'
        obtain ⟨rfl, rfl⟩ := Prod.mk.inj
          ((rule.matchAt_steady _ _ k).unique ⟨fuel, hattempt⟩ ⟨fuel', hattempt'⟩)
        have hstart := ih fun i hi => hnone i (Nat.lt_succ_of_lt hi)
        exact .next hstart ⟨fuel, hattempt⟩ hfails

private theorem readUntilRule_iff_readsUpTo (h : e.Transparent) (hc : c.index ≤ c.length)
    (r : List Char × Engine × Cursor) :
    (∃ fuel, c.readUntilRule fuel e rule = some r) ↔
      ∃ taken c', c.ReadsUpTo rule (taken, c') ∧ r = (taken, e, c') := by
  have hbehind : ∀ n, e.behind c.ahead n = e := fun n => by simp [Engine.behind, h.feed]
  have hflush : e.trailing = [] := Engine.trailing_of_shouldConsider h.considers
  rw [readUntilRule_iff hc]
  constructor
  · intro hstops
    cases hstops with
    | @stopped n k inside considered holds first context =>
        obtain ⟨d, fuel, v, d', hbefore, hattempt, hmatched⟩ := holds
        have hfails := (failsUpTo_iff h).2
          ⟨hbefore, fun i hi => first i hi (h.considers_at _ _)⟩
        obtain rfl := context.unique (.tried hbefore considered hattempt)
        exact ⟨_, _, .found inside hfails ⟨fuel, hattempt⟩ hmatched, by rw [h.gathered, hbehind]⟩
    | exhausted never context =>
        have hfails := (failsUpTo_iff h).2
          ⟨context, fun i hi => never i hi (h.considers_at _ _)⟩
        exact ⟨_, _, .absent hfails, by simp [h.gathered, hbehind, hflush]⟩
  · rintro ⟨taken, c', hreads, rfl⟩
    cases hreads with
    | @found n k k' v inside before attempt matched =>
        obtain ⟨hbefore, hnone⟩ := (failsUpTo_iff h).1 before
        obtain ⟨fuel, hattempt⟩ := attempt
        have hstops : c.StopsFirst e true (c.MatchAnswers e rule) (c.ContextBefore e rule) _ :=
          .stopped inside (h.considers_at _ _) ⟨k, fuel, v, k', hbefore, hattempt, matched⟩
            (fun i hi _ => hnone i hi) (.tried hbefore (h.considers_at _ _) hattempt)
        rwa [h.gathered, hbehind] at hstops
    | absent before =>
        obtain ⟨hbefore, hnone⟩ := (failsUpTo_iff h).1 before
        have hstops : c.StopsFirst e true (c.MatchAnswers e rule) (c.ContextBefore e rule) _ :=
          .exhausted (fun i hi _ => hnone i hi) hbefore
        simpa [h.gathered, hbehind, hflush] using hstops

end Rules

private theorem readUntilConsidering_transparent {e : Engine} (h : e.Transparent) (c : Cursor)
    (p : Char → Bool) :
    c.readUntilConsidering e p = ((c.readUntil p).1, e, (c.readUntil p).2) ∧
      c.readRawUntilConsidering e p = ((c.readUntil p).1, e, (c.readUntil p).2) := by
  have hflush : e.trailing = [] := Engine.trailing_of_shouldConsider h.considers
  constructor
  · simp [readUntilConsidering, scanned, Engine.scanResolved, h.scanFrom_stopAt, hflush, readUntil,
      reading]
  · simp [readRawUntilConsidering, scanned, Engine.scanRaw, h.scanFrom_stopAt, readUntil, reading]

theorem Resolves.reads {c c' : Cursor} {e e' : Engine} {k : Context} {text : List Char}
    (h : c.Resolves e k (text, e', c')) (htrigger : e.format.trigger = none)
    (hphase : e.phase = .plain) : Reads c text c' := by
  cases h with
  | @stopped front rest x hahead =>
      have hfront := (Engine.feed_of_trigger_none htrigger hphase front).1
      rw [hfront]
      exact ⟨rfl, rfl, x :: rest, hahead.symm⟩
  | exhausted =>
      rw [Engine.complete_of_trigger_none htrigger hphase]
      exact ⟨rfl, rfl, List.prefix_rfl⟩

theorem untriggered_scans_are_plain {e : Engine} (he : e.Reachable)
    (htrigger : e.format.trigger = none) :
    (e.format.quotes = [] → e.format.brackets = [] →
      (∀ text, e.complete text = text) ∧
      ∀ c : Cursor,
        (∀ p, c.readUntilConsidering e p = ((c.readUntil p).1, e, (c.readUntil p).2) ∧
          c.readRawUntilConsidering e p = ((c.readUntil p).1, e, (c.readUntil p).2)) ∧
        c.remainingConsidering e = (c.remaining.1, e, c.remaining.2) ∧
        (c.index ≤ c.length → ∀ rule r, (∃ fuel, c.readUntilRule fuel e rule = some r) ↔
          ∃ taken c', c.ReadsUpTo rule (taken, c') ∧ r = (taken, e, c'))) ∧
    ∀ (c : Cursor) (read : ResolvedRead) taken e' c', read.perform c e = some (taken, e', c') →
      taken = (c.content.take c'.index).drop c.index := by
  have hphase := (he.plain_of_trigger_none htrigger).1
  constructor
  · intro hquotes hbrackets
    have h : e.Transparent := .of_reachable he htrigger hquotes hbrackets
    refine ⟨Engine.complete_of_trigger_none htrigger hphase, fun c => ⟨?_, ?_, ?_⟩⟩
    · exact readUntilConsidering_transparent h c
    · exact (readUntilConsidering_transparent h c fun _ => false).1
    · exact fun hc rule r => readUntilRule_iff_readsUpTo h hc r
  · intro c read taken e' c' hread
    obtain ⟨k, hresolves⟩ := ResolvedRead.resolves hread
    exact (hresolves.reads htrigger hphase).between

/-- A backslash is no escape here, whatever the table says of the code behind it. -/
theorem untriggered_scans_are_plain_backslash :
    let c : Cursor := { content := ['a', '\\', 'n', ',', 'b'], index := 1 }
    let e : Engine := ((Engine.start (.ofSettings [.escape 'n' ['\n']])).consider '\\').2
    let quoting : Engine := ((Engine.start (.ofSettings [.quote ','])).consider ',').2
    e.Reachable ∧ c.readUntilConsidering e (· = ',') = (['\\', 'n'], e, c.advance 2) ∧
      (∃ taken c', c.ReadsUpTo (.literal ",") (taken, c') ∧
        c.readUntilRule 1 e (.literal ",") = some (taken, e, c')) ∧
      quoting.Reachable ∧ ∃ taken e' c',
        (ResolvedRead.readUntilConsidering (· = ',')).perform c quoting = some (taken, e', c') ∧
        taken = (c.content.take c'.index).drop c.index := by
  intro c e quoting
  have he : e.Reachable :=
    ⟨[.configure 0 (.escape 'n' ['\n']), .consider 0 '\\'], _, .head _, rfl⟩
  have hquoting : quoting.Reachable :=
    ⟨[.configure 0 (.quote ','), .consider 0 ','], _, .head _, rfl⟩
  obtain ⟨hplain, -⟩ := untriggered_scans_are_plain he rfl
  obtain ⟨-, hscans⟩ := hplain rfl rfl
  obtain ⟨huntil, -, hrule⟩ := hscans c
  obtain ⟨taken, c', hreads, hr⟩ := (hrule (by decide) (.literal ",") _).1 ⟨1, rfl⟩
  obtain ⟨-, hraw⟩ := untriggered_scans_are_plain hquoting rfl
  exact ⟨he, (huntil (· = ',')).1, ⟨taken, c', hreads, congrArg some hr⟩, hquoting, _, _, _, rfl,
    hraw c (.readUntilConsidering (· = ',')) _ _ _ rfl⟩

end Cursor

end TextGrammar
