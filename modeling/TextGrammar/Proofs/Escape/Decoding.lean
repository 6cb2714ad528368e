import TextGrammar.Escape.Codec

/-!
# Resolving escapes unit by unit

What an engine answers depends on its format and on the escape it stands in, not on quotes and
brackets.  So decoding takes a text apart from the left: a plain character stands for itself, a
trigger takes the code behind it along, and the code of an escape by code point four more
characters.
-/

namespace TextGrammar.Escape

namespace Engine

private theorem exists_trackOutside_eq (e : Engine) (c : Char) : ∃ quotes counts,
    e.trackOutside c = { e with openQuotes := quotes, counts := counts } := by
  unfold trackOutside
  repeat' split
  all_goals exact ⟨_, _, rfl⟩

private theorem exists_track_eq (e : Engine) (c : Char) : ∃ quotes counts,
    e.track c = { e with openQuotes := quotes, counts := counts } := by
  unfold track
  split
  · exact e.exists_trackOutside_eq c
  split
  · exact ⟨_, _, rfl⟩
  · exact ⟨_, _, rfl⟩

section Track

variable (e : Engine) (c : Char)

@[simp] theorem track_format : (e.track c).format = e.format := by
  obtain ⟨quotes, counts, h⟩ := e.exists_track_eq c
  rw [h]

@[simp] theorem track_phase : (e.track c).phase = e.phase := by
  obtain ⟨quotes, counts, h⟩ := e.exists_track_eq c
  rw [h]

@[simp] theorem track_pending : (e.track c).pending = e.pending := by
  obtain ⟨quotes, counts, h⟩ := e.exists_track_eq c
  rw [h]

@[simp] theorem track_prevEscaped : (e.track c).prevEscaped = e.prevEscaped := by
  obtain ⟨quotes, counts, h⟩ := e.exists_track_eq c
  rw [h]

end Track

section Consider

variable {e : Engine} {c : Char}

theorem consider_plain (hphase : e.phase = .plain) (h : e.format.trigger ≠ some c) :
    e.consider c = ([c], { e with prevEscaped := false }.track c) := by
  simp [consider, hphase, h]

theorem consider_trigger (hphase : e.phase = .plain) (h : e.format.trigger = some c) :
    e.consider c = ([], { e with phase := .escaped, prevEscaped := false }) := by
  simp [consider, hphase, h]

theorem consider_code (hphase : e.phase = .escaped) (h : c ≠ e.format.unicodeCode) :
    e.consider c = (decodeCode e.format c, { e with phase := .plain, prevEscaped := true }) := by
  simp [consider, hphase, h]

theorem consider_unicodeCode (hphase : e.phase = .escaped) (h : c = e.format.unicodeCode) :
    e.consider c = ([], { e with phase := .unicode, prevEscaped := true }) := by
  simp [consider, hphase, h]

theorem consider_digit (hphase : e.phase = .unicode) (h : e.pending.length < 3) :
    e.consider c = ([], { e with pending := e.pending ++ [c] }) := by
  have hlt : e.pending.length + 1 < 4 := by omega
  simp [consider, hphase, hlt]

theorem consider_lastDigit (hphase : e.phase = .unicode) (h : 3 ≤ e.pending.length) :
    e.consider c =
      (decodeDigits e.format (e.pending ++ [c]), { e with phase := .plain, pending := [] }) := by
  have hge : ¬e.pending.length + 1 < 4 := by omega
  simp [consider, hphase, hge]

end Consider

theorem consider_cases (e : Engine) (c : Char) :
    (e.phase = .plain ∧ e.format.trigger ≠ some c ∧
      (e.consider c).2 = { e with prevEscaped := false }.track c) ∨
    ∃ phase prev pending,
      (e.consider c).2 = { e with phase := phase, prevEscaped := prev, pending := pending } := by
  cases hphase : e.phase with
  | plain =>
      by_cases h : e.format.trigger = some c
      · exact .inr ⟨.escaped, false, e.pending, by rw [consider_trigger hphase h]⟩
      · exact .inl ⟨rfl, h, by rw [consider_plain hphase h, hphase]⟩
  | escaped =>
      by_cases h : c = e.format.unicodeCode
      · exact .inr ⟨.unicode, true, e.pending, by rw [consider_unicodeCode hphase h]⟩
      · exact .inr ⟨.plain, true, e.pending, by rw [consider_code hphase h]⟩
  | unicode =>
      by_cases h : e.pending.length < 3
      · exact .inr ⟨e.phase, e.prevEscaped, e.pending ++ [c], by rw [consider_digit hphase h]⟩
      · exact .inr ⟨.plain, e.prevEscaped, [], by rw [consider_lastDigit hphase (Nat.not_lt.1 h)]⟩

@[simp] theorem consider_format (e : Engine) (c : Char) : (e.consider c).2.format = e.format := by
  obtain ⟨-, -, h⟩ | ⟨phase, prev, pending, h⟩ := e.consider_cases c
  · rw [h, track_format]
  · rw [h]

structure SameEscape (e e' : Engine) : Prop where
  format : e.format = e'.format
  phase : e.phase = e'.phase
  pending : e.pending = e'.pending

namespace SameEscape

variable {e e' : Engine}

theorem consider (h : SameEscape e e') (c : Char) :
    (e.consider c).1 = (e'.consider c).1 ∧ SameEscape (e.consider c).2 (e'.consider c).2 := by
  obtain ⟨hformat, hphase, hpending⟩ := h
  cases hp : e.phase with
  | plain =>
      by_cases ht : e.format.trigger = some c
      · rw [consider_trigger hp ht, consider_trigger (hphase ▸ hp) (hformat ▸ ht)]
        exact ⟨rfl, hformat, rfl, hpending⟩
      · rw [consider_plain hp ht, consider_plain (hphase ▸ hp) (hformat ▸ ht)]
        exact ⟨rfl, by simpa, by simpa, by simpa⟩
  | escaped =>
      by_cases hu : c = e.format.unicodeCode
      · rw [consider_unicodeCode hp hu, consider_unicodeCode (hphase ▸ hp) (hformat ▸ hu)]
        exact ⟨rfl, hformat, rfl, hpending⟩
      · rw [consider_code hp hu, consider_code (hphase ▸ hp) (hformat ▸ hu)]
        exact ⟨by rw [hformat], hformat, rfl, hpending⟩
  | unicode =>
      have hp' := hphase ▸ hp
      by_cases hd : e.pending.length < 3
      · rw [consider_digit hp hd, consider_digit hp' (hpending ▸ hd)]
        exact ⟨rfl, hformat, hphase, by simp [hpending]⟩
      · have hd' := Nat.not_lt.1 hd
        rw [consider_lastDigit hp hd', consider_lastDigit hp' (hpending ▸ hd')]
        exact ⟨by rw [hformat, hpending], hformat, rfl, rfl⟩

theorem complete (h : SameEscape e e') (text : List Char) : e.complete text = e'.complete text := by
  induction text generalizing e e' with
  | nil =>
      obtain ⟨hformat, hphase, hpending⟩ := h
      simp only [Engine.complete, Engine.feed, Engine.trailing, hformat, hphase, hpending]
  | cons c cs ih =>
      obtain ⟨hemitted, hnext⟩ := h.consider c
      have hrest := ih hnext
      simp only [Engine.complete, Engine.feed] at hrest ⊢
      rw [hemitted, List.append_assoc, List.append_assoc, hrest]

end SameEscape

theorem complete_cons (e : Engine) (c : Char) (text : List Char) :
    e.complete (c :: text) = (e.consider c).1 ++ (e.consider c).2.complete text := by
  simp [complete, feed, List.append_assoc]

private theorem complete_eq_decode {e : Engine} (hphase : e.phase = .plain)
    (hpending : e.pending = []) (text : List Char) :
    e.complete text = decode e.format text := by
  have h : SameEscape e (start e.format) := ⟨rfl, hphase, hpending⟩
  exact h.complete text

end Engine

open Engine

@[simp] theorem decode_nil (f : Format) : decode f [] = [] := rfl

theorem decode_plain {f : Format} {c : Char} (h : f.trigger ≠ some c) (text : List Char) :
    decode f (c :: text) = c :: decode f text := by
  have hstep := consider_plain (e := start f) rfl h
  rw [decode, complete_cons, hstep]
  rw [complete_eq_decode (by simp [start]) (by simp [start])]
  simp [start]

section Trigger

variable {f : Format} {trigger : Char} (htrigger : f.trigger = some trigger)

include htrigger

private theorem decode_trigger_cons (text : List Char) :
    decode f (trigger :: text) = { start f with phase := .escaped }.complete text := by
  rw [decode, complete_cons, consider_trigger rfl htrigger, List.nil_append]
  apply SameEscape.complete
  exact ⟨rfl, rfl, rfl⟩

@[simp] theorem decode_trigger : decode f [trigger] = [trigger] := by
  rw [decode_trigger_cons htrigger]
  simp [complete, feed, trailing, start, htrigger]

theorem decode_code {code : Char} (h : code ≠ f.unicodeCode) (text : List Char) :
    decode f (trigger :: code :: text) = decodeCode f code ++ decode f text := by
  rw [decode_trigger_cons htrigger, complete_cons, consider_code rfl h]
  rw [complete_eq_decode rfl rfl]
  rfl

private theorem decode_unicode_cons (text : List Char) :
    decode f (trigger :: f.unicodeCode :: text) =
      { start f with phase := .unicode }.complete text := by
  have hstep :=
    consider_unicodeCode (e := { start f with phase := .escaped }) (c := f.unicodeCode) rfl rfl
  rw [decode_trigger_cons htrigger, complete_cons, hstep, List.nil_append]
  apply SameEscape.complete
  exact ⟨rfl, rfl, rfl⟩

theorem decode_codePoint (a b c d : Char) (text : List Char) :
    decode f (trigger :: f.unicodeCode :: a :: b :: c :: d :: text) =
      decodeDigits f [a, b, c, d] ++ decode f text := by
  rw [decode_unicode_cons htrigger]
  rw [complete_cons, consider_digit rfl (by simp [start])]
  rw [complete_cons, consider_digit rfl (by simp [start])]
  rw [complete_cons, consider_digit rfl (by simp [start])]
  rw [complete_cons, consider_lastDigit rfl (by simp [start])]
  rw [complete_eq_decode rfl rfl]
  rfl

theorem decode_unfinished {digits : List Char} (h : digits.length < 4) :
    decode f (trigger :: f.unicodeCode :: digits) = trigger :: f.unicodeCode :: digits := by
  rw [decode_unicode_cons htrigger]
  match digits, h with
  | [], _ | [_], _ | [_, _], _ | [_, _, _], _ =>
      simp [complete, feed, Engine.consider, trailing, Format.unicodeStart, start, htrigger]

end Trigger

end TextGrammar.Escape
