import TextGrammar.Proofs.Escape.Reachability

/-!
# Significant characters

Which characters change an engine depends on where it stands.  Inside a quote only the quote's own
character has an effect, and behind an escape every character has one, since the engine is not
behind an escape any more.  A significant character is one that the format gives a meaning, whether
or not a quote is open; everywhere else these are the characters that change the engine.
-/

namespace TextGrammar.Escape

def Format.IsOrdinary (f : Format) (x : Char) : Prop :=
  x ∉ f.quotes ∧ ∀ pair ∈ f.brackets, pair.1 ≠ x ∧ pair.2 ≠ x

namespace Engine

variable {e : Engine} {x : Char}

theorem trackOutside_of_isOrdinary (hx : e.format.IsOrdinary x) : e.trackOutside x = e := by
  have hleft : e.format.brackets.findIdx? (·.1 = x) = none :=
    List.findIdx?_eq_none_iff.2 fun pair hmem => decide_eq_false (hx.2 pair hmem).1
  have hright : e.format.brackets.findIdx? (·.2 = x) = none :=
    List.findIdx?_eq_none_iff.2 fun pair hmem => decide_eq_false (hx.2 pair hmem).2
  have hquote : e.format.quotes.findIdx? (· = x) = none := by
    refine List.findIdx?_eq_none_iff.2 fun q hmem => decide_eq_false ?_
    rintro rfl
    exact hx.1 hmem
  simp only [trackOutside, hleft, hright, hquote]

private theorem ne_of_entry_ne {α : Type} {entries changed : List α} {i : Nat} {a : α}
    (hi : i < entries.length) (hchanged : changed[i]? = some a) (ha : a ≠ entries[i]) :
    changed ≠ entries := by
  rintro rfl
  rw [List.getElem?_eq_getElem hi] at hchanged
  exact ha (Option.some.inj hchanged).symm

private theorem trackOutside_ne_self (h : InStep e) (hclosed : e.openQuotes.findIdx? id = none)
    (hx : ¬e.format.IsOrdinary x) : e.trackOutside x ≠ e := by
  unfold trackOutside
  cases hleft : e.format.brackets.findIdx? (·.1 = x) with
  | some i =>
      have hi : i < e.counts.length := h.counts ▸ lt_length_of_findIdx? hleft
      intro hsame
      apply ne_of_entry_ne hi (a := (e.counts[i].1 + 1, e.counts[i].2)) _ _
        (congrArg Engine.counts hsame)
      · simp [hi]
      · simp [Prod.ext_iff]
  | none =>
  cases hright : e.format.brackets.findIdx? (·.2 = x) with
  | some i =>
      have hi : i < e.counts.length := h.counts ▸ lt_length_of_findIdx? hright
      intro hsame
      apply ne_of_entry_ne hi (a := (e.counts[i].1, e.counts[i].2 + 1)) _ _
        (congrArg Engine.counts hsame)
      · simp [hi]
      · simp [Prod.ext_iff]
  | none =>
  cases hquote : e.format.quotes.findIdx? (· = x) with
  | some i =>
      have hi : i < e.openQuotes.length := h.openQuotes ▸ lt_length_of_findIdx? hquote
      have hflag : e.openQuotes[i] = false :=
        List.findIdx?_eq_none_iff.1 hclosed _ (List.getElem_mem hi)
      intro hsame
      apply ne_of_entry_ne hi (a := true) _ _ (congrArg Engine.openQuotes hsame)
      · simp [hi]
      · simp [hflag]
  | none =>
      refine absurd ⟨fun hmem => ?_, fun pair hmem => ⟨?_, ?_⟩⟩ hx
      · simpa using List.findIdx?_eq_none_iff.1 hquote x hmem
      · simpa using List.findIdx?_eq_none_iff.1 hleft pair hmem
      · simpa using List.findIdx?_eq_none_iff.1 hright pair hmem

def openQuote? (e : Engine) : Option Char :=
  (e.openQuotes.findIdx? id).bind fun i => e.format.quotes[i]?

def Overlooks (e : Engine) (c : Char) : Prop :=
  match e.openQuote? with
  | some mark => c ≠ mark
  | none => e.format.IsOrdinary c

private theorem track_eq_self_iff (h : InStep e) (c : Char) : e.track c = e ↔ e.Overlooks c := by
  cases hopen : e.openQuotes.findIdx? id with
  | none =>
      simp only [track, Overlooks, openQuote?, hopen, Option.bind_none]
      constructor
      · intro hsame
        by_cases hx : e.format.IsOrdinary c
        · exact hx
        · exact absurd hsame (trackOutside_ne_self h hopen hx)
      · exact trackOutside_of_isOrdinary
  | some i =>
      have hi : i < e.openQuotes.length := lt_length_of_findIdx? hopen
      have hi' : i < e.format.quotes.length := h.openQuotes ▸ hi
      have hflag : e.openQuotes[i] = true := (List.findIdx?_eq_some_iff_getElem.1 hopen).2.1
      simp only [track, Overlooks, openQuote?, hopen, Option.bind_some,
        List.getElem?_eq_getElem hi', Option.some.injEq]
      split
      · rename_i hmark
        refine iff_of_false (fun hsame => ?_) fun hne => hne hmark.symm
        apply ne_of_entry_ne hi (a := false) _ _ (congrArg Engine.openQuotes hsame)
        · simp [hi]
        · simp [hflag]
      · rename_i hmark
        exact iff_of_true rfl (Ne.symm hmark)

private theorem consider_eq_self_iff (h : WellFormed e) (c : Char) :
    (e.consider c).2 = e ↔ e.phase = .plain ∧ e.prevEscaped = false ∧
      e.format.trigger ≠ some c ∧ e.Overlooks c := by
  cases hphase : e.phase with
  | plain =>
      by_cases htrigger : e.format.trigger = some c
      · rw [consider_trigger hphase htrigger]
        refine iff_of_false (fun hsame => ?_) fun hplain => hplain.2.2.1 htrigger
        have hmoved := (congrArg Engine.phase hsame).trans hphase
        cases hmoved
      rw [consider_plain hphase htrigger]
      cases hprev : e.prevEscaped with
      | true =>
          refine iff_of_false (fun hsame => ?_) fun hplain => Bool.noConfusion hplain.2.1
          have hflag := (congrArg Engine.prevEscaped hsame).trans hprev
          rw [track_prevEscaped] at hflag
          cases hflag
      | false =>
          have hsame : { e with prevEscaped := false } = e := by rw [← hprev]
          simp [hsame, track_eq_self_iff h.toInStep, htrigger]
  | escaped =>
      refine iff_of_false (fun hsame => ?_) fun hplain => nomatch hplain.1
      have hmoved := (congrArg Engine.phase hsame).trans hphase
      by_cases hcode : c = e.format.unicodeCode
      · rw [consider_unicodeCode hphase hcode] at hmoved
        cases hmoved
      · rw [consider_code hphase hcode] at hmoved
        cases hmoved
  | unicode =>
      refine iff_of_false (fun hsame => ?_) fun hplain => nomatch hplain.1
      by_cases hdigits : e.pending.length < 3
      · rw [consider_digit hphase hdigits] at hsame
        have hlonger := congrArg (fun e : Engine => e.pending.length) hsame
        simp at hlonger
      · have hmoved := (congrArg Engine.phase hsame).trans hphase
        rw [consider_lastDigit hphase (Nat.not_lt.1 hdigits)] at hmoved
        cases hmoved

private theorem isSignificant_eq_false_iff (e : Engine) (c : Char) : e.isSignificant c = false ↔
    e.phase = .plain ∧ e.format.trigger ≠ some c ∧ e.format.IsOrdinary c := by
  simp [isSignificant, inEscape, Format.IsOrdinary, and_assoc]

private theorem not_isOrdinary_of_openQuote? {mark : Char} (h : e.openQuote? = some mark) :
    ¬e.format.IsOrdinary mark := by
  obtain ⟨i, -, hmark⟩ := Option.bind_eq_some_iff.1 h
  exact fun hordinary => hordinary.1 (List.mem_of_getElem? hmark)

private theorem overlooks_of_isOrdinary (hx : e.format.IsOrdinary x) : e.Overlooks x := by
  unfold Overlooks
  cases hopen : e.openQuote? with
  | none => exact hx
  | some mark =>
      rintro rfl
      exact not_isOrdinary_of_openQuote? hopen hx

private theorem overlooks_iff_of_not_isOrdinary (hx : ¬e.format.IsOrdinary x) :
    e.Overlooks x ↔ ∃ mark, e.openQuote? = some mark ∧ x ≠ mark := by
  unfold Overlooks
  cases hopen : e.openQuote? with
  | none => simpa using hx
  | some mark => simp

private theorem significant_without_effect_iff (h : WellFormed e) (c : Char) :
    e.isSignificant c = true ∧ (e.consider c).2 = e ↔
      e.phase = .plain ∧ e.prevEscaped = false ∧ e.format.trigger ≠ some c ∧
        ¬e.format.IsOrdinary c ∧ ∃ mark, e.openQuote? = some mark ∧ c ≠ mark := by
  rw [consider_eq_self_iff h, ← Bool.not_eq_false, isSignificant_eq_false_iff]
  constructor
  · rintro ⟨hsignificant, hphase, hprev, htrigger, hoverlooks⟩
    have hordinary : ¬e.format.IsOrdinary c := fun hx => hsignificant ⟨hphase, htrigger, hx⟩
    exact ⟨hphase, hprev, htrigger, hordinary,
      (overlooks_iff_of_not_isOrdinary hordinary).1 hoverlooks⟩
  · rintro ⟨hphase, hprev, htrigger, hordinary, hquoted⟩
    exact ⟨fun hplain => hordinary hplain.2.2, hphase, hprev, htrigger,
      (overlooks_iff_of_not_isOrdinary hordinary).2 hquoted⟩

private theorem effect_without_significance_iff (h : WellFormed e) (c : Char) :
    e.isSignificant c = false ∧ (e.consider c).2 ≠ e ↔
      e.phase = .plain ∧ e.prevEscaped = true ∧ e.format.trigger ≠ some c ∧
        e.format.IsOrdinary c := by
  rw [Ne, consider_eq_self_iff h, isSignificant_eq_false_iff]
  constructor
  · rintro ⟨⟨hphase, htrigger, hordinary⟩, heffect⟩
    refine ⟨hphase, ?_, htrigger, hordinary⟩
    cases hprev : e.prevEscaped with
    | true => rfl
    | false => exact absurd ⟨hphase, hprev, htrigger, overlooks_of_isOrdinary hordinary⟩ heffect
  · rintro ⟨hphase, hprev, htrigger, hordinary⟩
    exact ⟨⟨hphase, htrigger, hordinary⟩, fun hsame => by simp [hprev] at hsame⟩

/-- A significant character leaves an engine as it is only inside a quote that it does not close; a
character that is not significant changes one only behind an escape. -/
theorem changes_against_significance (h : e.Reachable) (c : Char) :
    ((e.consider c).2 = e ↔ e.phase = .plain ∧ e.prevEscaped = false ∧
      e.format.trigger ≠ some c ∧ e.Overlooks c) ∧
    (e.isSignificant c = true ∧ (e.consider c).2 = e ↔
      e.phase = .plain ∧ e.prevEscaped = false ∧ e.format.trigger ≠ some c ∧
        ¬e.format.IsOrdinary c ∧ ∃ mark, e.openQuote? = some mark ∧ c ≠ mark) ∧
    (e.isSignificant c = false ∧ (e.consider c).2 ≠ e ↔
      e.phase = .plain ∧ e.prevEscaped = true ∧ e.format.trigger ≠ some c ∧
        e.format.IsOrdinary c) :=
  ⟨consider_eq_self_iff h.wellFormed c, significant_without_effect_iff h.wellFormed c,
    effect_without_significance_iff h.wellFormed c⟩

/-- A bracket and a quotation mark behind an opening quotation mark. -/
theorem changes_against_significance_quoted :
    let f : Format := .ofSettings [.quote '"', .brackets '(' ')']
    let e : Engine := ((start f).consider '"').2
    e.Reachable ∧ e.isSignificant '(' = true ∧ (e.consider '(').2 = e ∧
      e.isSignificant '"' = true ∧ (e.consider '"').2 ≠ e := by
  intro f e
  have he : e.Reachable :=
    ⟨[.configure 0 (.quote '"'), .configure 0 (.brackets '(' ')'), .consider 0 '"'],
      _, .head _, rfl⟩
  have hopen : e.openQuote? = some '"' := by decide
  obtain ⟨-, hbracket, -⟩ := changes_against_significance he '('
  obtain ⟨hmark, -⟩ := changes_against_significance he '"'
  obtain ⟨hsignificant, hsame⟩ :=
    hbracket.2
      ⟨rfl, rfl, nofun, fun hx => (hx.2 ('(', ')') (by decide)).1 rfl, '"', hopen, by decide⟩
  refine ⟨he, hsignificant, hsame, by decide, fun hquote => ?_⟩
  have hoverlooks := (hmark.1 hquote).2.2.2
  simp only [Overlooks, hopen] at hoverlooks
  exact hoverlooks rfl

/-- A bracket in a quote is significant and changes nothing.  Behind an escape the character `x` is
not significant, but the engine is not behind an escape any more. -/
theorem significance_is_no_change :
    let f : Format := .ofSettings [.trigger '\\', .quote '"', .brackets '(' ')']
    let quoted : Engine := ((start f).consider '"').2
    let escaped : Engine := ((start f).feed ['\\', 'n']).2
    (quoted.Reachable ∧ quoted.isSignificant '(' = true ∧ (quoted.consider '(').2 = quoted) ∧
      escaped.Reachable ∧ escaped.isSignificant 'x' = false ∧
        (escaped.consider 'x').2 ≠ escaped := by
  intro f quoted escaped
  have hquoted : quoted.Reachable :=
    ⟨[.configure 0 (.trigger '\\'), .configure 0 (.quote '"'), .configure 0 (.brackets '(' ')'),
      .consider 0 '"'], _, .head _, rfl⟩
  have hescaped : escaped.Reachable :=
    ⟨[.configure 0 (.trigger '\\'), .configure 0 (.quote '"'), .configure 0 (.brackets '(' ')'),
      .consider 0 '\\', .consider 0 'n'], _, .head _, rfl⟩
  refine ⟨⟨hquoted, by decide, rfl⟩, hescaped, by decide, fun hsame => ?_⟩
  have hprev := congrArg Engine.prevEscaped hsame
  cases hprev

end Engine

end TextGrammar.Escape
