import TextGrammar.Proofs.Escape.Decoding
import TextGrammar.Escape.Scan

/-!
# Accesses within bounds

An engine keeps a flag for each quote of its format and two counters for each pair of brackets, and
looks both up by the index of the quote or pair.  Here an access out of bounds has no answer.  An
engine that was reset finds everything it looks up, whatever it is fed, and so do the scans.
-/

namespace TextGrammar.Escape.Engine

def modify? {α : Type} (entries : List α) (i : Nat) (f : α → α) : Option (List α) :=
  if i < entries.length then some (entries.modify i f) else none

def trackOutside? (e : Engine) (c : Char) : Option Engine :=
  match e.format.brackets.findIdx? (·.1 = c) with
  | some i => do
      let counts ← modify? e.counts i fun count => (count.1 + 1, count.2)
      return { e with counts := counts }
  | none =>
      match e.format.brackets.findIdx? (·.2 = c) with
      | some i => do
          let counts ← modify? e.counts i fun count => (count.1, count.2 + 1)
          return { e with counts := counts }
      | none =>
          match e.format.quotes.findIdx? (· = c) with
          | some i => do
              let openQuotes ← modify? e.openQuotes i fun _ => true
              return { e with openQuotes := openQuotes }
          | none => some e

def track? (e : Engine) (c : Char) : Option Engine :=
  match e.openQuotes.findIdx? id with
  | none => e.trackOutside? c
  | some i => do
      let quote ← e.format.quotes[i]?
      if quote = c then
        let openQuotes ← modify? e.openQuotes i fun _ => false
        return { e with openQuotes := openQuotes }
      else some e

def consider? (e : Engine) (c : Char) : Option (List Char × Engine) :=
  if e.phase = .plain ∧ e.format.trigger ≠ some c then
    ({ e with prevEscaped := false }.track? c).map fun e => ([c], e)
  else some (e.consider c)

def feed? (e : Engine) : List Char → Option (List Char × Engine)
  | [] => some ([], e)
  | c :: text => do
      let (emitted, e) ← e.consider? c
      let (more, e) ← e.feed? text
      return (emitted ++ more, e)

def balanced? (e : Engine) : List Char → Option (List Char × Engine)
  | [] => some ([], e)
  | c :: text => do
      let (_, e) ← e.consider? c
      if e.shouldConsider then return ([c], e)
      let (taken, e) ← e.balanced? text
      return (c :: taken, e)

def splitFrom? (separator : Char) (e : Engine) : List Char → Option (List (List Char))
  | [] => some [[]]
  | c :: text => do
      let (_, e) ← e.consider? c
      if e.shouldConsider && c = separator then
        let pieces ← splitFrom? separator e.reset text
        return [] :: pieces
      match ← splitFrom? separator e text with
      | [] => return [[c]]
      | piece :: pieces => return (c :: piece) :: pieces

/-- One flag for each quote and one pair of counters for each pair of brackets. -/
structure InStep (e : Engine) : Prop where
  openQuotes : e.openQuotes.length = e.format.quotes.length
  counts : e.counts.length = e.format.brackets.length

private theorem modify?_of_lt {α : Type} {entries : List α} {i : Nat} (h : i < entries.length)
    (f : α → α) : modify? entries i f = some (entries.modify i f) := if_pos h

theorem lt_length_of_findIdx? {α : Type} {p : α → Bool} {entries : List α} {i : Nat}
    (h : entries.findIdx? p = some i) : i < entries.length :=
  (List.findIdx?_eq_some_iff_getElem.1 h).1

namespace InStep

variable {e : Engine}

theorem start (f : Format) : InStep (start f) := ⟨by simp [Engine.start], by simp [Engine.start]⟩

theorem trackOutside (h : InStep e) (c : Char) :
    e.trackOutside? c = some (e.trackOutside c) ∧ InStep (e.trackOutside c) := by
  unfold Engine.trackOutside? Engine.trackOutside
  cases hleft : e.format.brackets.findIdx? (·.1 = c) with
  | some i =>
      have hi : i < e.counts.length := by rw [h.counts]; exact lt_length_of_findIdx? hleft
      exact ⟨by simp [modify?_of_lt hi], h.openQuotes, by simpa using h.counts⟩
  | none =>
  cases hright : e.format.brackets.findIdx? (·.2 = c) with
  | some i =>
      have hi : i < e.counts.length := by rw [h.counts]; exact lt_length_of_findIdx? hright
      exact ⟨by simp [modify?_of_lt hi], h.openQuotes, by simpa using h.counts⟩
  | none =>
  cases hquote : e.format.quotes.findIdx? (· = c) with
  | some i =>
      have hi : i < e.openQuotes.length := by rw [h.openQuotes]; exact lt_length_of_findIdx? hquote
      exact ⟨by simp [modify?_of_lt hi, List.modify_eq_set], by simpa using h.openQuotes, h.counts⟩
  | none => exact ⟨rfl, h⟩

theorem track (h : InStep e) (c : Char) :
    e.track? c = some (e.track c) ∧ InStep (e.track c) := by
  unfold Engine.track? Engine.track
  cases hopen : e.openQuotes.findIdx? id with
  | none => exact h.trackOutside c
  | some i =>
      have hi := lt_length_of_findIdx? hopen
      have hi' : i < e.format.quotes.length := h.openQuotes ▸ hi
      simp only [List.getElem?_eq_getElem hi', Option.some.injEq]
      by_cases hc : e.format.quotes[i] = c
      · simp only [if_pos hc]
        exact ⟨by simp [hc, modify?_of_lt hi, List.modify_eq_set], by simpa using h.openQuotes,
          h.counts⟩
      · simp only [if_neg hc]
        exact ⟨by simp [hc], h⟩

theorem withEscape (h : InStep e) (phase : Phase) (prev : Bool) (pending : List Char) :
    InStep { e with phase := phase, prevEscaped := prev, pending := pending } :=
  ⟨h.openQuotes, h.counts⟩

theorem consider (h : InStep e) (c : Char) : InStep (e.consider c).2 := by
  obtain ⟨-, -, hstep⟩ | ⟨phase, prev, pending, hstep⟩ := e.consider_cases c
  · rw [hstep]
    exact ((h.withEscape e.phase false e.pending).track c).2
  · rw [hstep]
    exact h.withEscape phase prev pending

theorem consider?_eq (h : InStep e) (c : Char) : e.consider? c = some (e.consider c) := by
  unfold Engine.consider?
  by_cases hplain : e.phase = .plain ∧ e.format.trigger ≠ some c
  · have htrack := ((h.withEscape e.phase false e.pending).track c).1
    rw [if_pos hplain, htrack, consider_plain hplain.1 hplain.2]
    rfl
  · rw [if_neg hplain]

theorem feed?_eq (h : InStep e) (text : List Char) : e.feed? text = some (e.feed text) := by
  induction text generalizing e with
  | nil => rfl
  | cons c text ih => simp [Engine.feed?, Engine.feed, h.consider?_eq, ih (h.consider c)]

theorem balanced?_eq (h : InStep e) (text : List Char) :
    e.balanced? text = some (e.balanced text) := by
  induction text generalizing e with
  | nil => rfl
  | cons c text ih =>
      simp only [Engine.balanced?, Engine.balanced, h.consider?_eq]
      cases hstop : (e.consider c).2.shouldConsider with
      | true => simp [hstop]
      | false => simp [hstop, ih (h.consider c)]

theorem splitFrom?_eq (separator : Char) (h : InStep e) (text : List Char) :
    splitFrom? separator e text = some (splitFrom separator e text) := by
  induction text generalizing e with
  | nil => rfl
  | cons c text ih =>
      simp only [Engine.splitFrom?, Engine.splitFrom, h.consider?_eq]
      by_cases hstop : (e.consider c).2.shouldConsider = true ∧ c = separator
      · obtain ⟨hconsider, rfl⟩ := hstop
        simp [hconsider, reset, ih (InStep.start _)]
      · have hrest := ih (h.consider c)
        cases hpieces : splitFrom separator (e.consider c).2 text <;>
          simp [hstop, hrest, hpieces]

end InStep

end TextGrammar.Escape.Engine
