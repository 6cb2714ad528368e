import TextGrammar.Proofs.Escape.Decoding

/-!
# When a character may be a delimiter

The engine decides from five pieces of state whether it considers the character it read last.  What
they come to is said here of the text alone: cut into units, it has to end with a plain character
outside quotes, with every pair of brackets met as often on the left as on the right.
-/

namespace TextGrammar.Escape

/-- A plain character, or an escape with what its trigger takes along. -/
inductive EscapeUnit where
  | plain (c : Char)
  | escape (text : List Char)
  deriving DecidableEq, Repr

namespace EscapeUnit

def plain? : EscapeUnit → Option Char
  | .plain c => some c
  | .escape _ => none

def isPlain : EscapeUnit → Bool
  | .plain _ => true
  | .escape _ => false

end EscapeUnit

/-- Cuts a text into units from the left.  The last escape may be unfinished. -/
def units (f : Format) : List Char → List EscapeUnit
  | [] => []
  | c :: text =>
      if f.trigger ≠ some c then .plain c :: units f text
      else
        match text with
        | [] => [.escape [c]]
        | code :: text =>
            if code ≠ f.unicodeCode then .escape [c, code] :: units f text
            else .escape (c :: code :: text.take 4) :: units f (text.drop 4)
termination_by text => text.length

/-- What plain characters lead to: the quote that is open, and the characters outside quotes, those
that open one included. -/
structure Quoting where
  openQuote : Option Char := none
  outside : List Char := []

/-- Inside a quote only its own character has an effect.  Outside, a character that is no bracket
opens the quote it equals. -/
def Quoting.read (f : Format) (q : Quoting) (c : Char) : Quoting :=
  match q.openQuote with
  | some mark => if c = mark then { q with openQuote := none } else q
  | none =>
      let isBracket := f.brackets.any (·.1 = c) || f.brackets.any (·.2 = c)
      let opens := f.quotes.any (· = c) && !isBracket
      { openQuote := if opens then some c else none, outside := q.outside ++ [c] }

def Quoting.readUnits (f : Format) (q : Quoting) (us : List EscapeUnit) : Quoting :=
  (us.filterMap EscapeUnit.plain?).foldl (Quoting.read f) q

def quoting (f : Format) (text : List Char) : Quoting := Quoting.readUnits f {} (units f text)

def isLeftOf (f : Format) (i : Nat) (c : Char) : Bool := f.brackets.findIdx? (·.1 = c) = some i

def isRightOf (f : Format) (i : Nat) (c : Char) : Bool :=
  f.brackets.findIdx? (·.1 = c) = none ∧ f.brackets.findIdx? (·.2 = c) = some i

/-! ## The engine follows quotes and brackets -/

inductive QuoteFlags (f : Format) : Option Char → List Bool → Prop
  | closed : QuoteFlags f none (List.replicate f.quotes.length false)
  | opened {mark : Char} {i : Nat} (hi : f.quotes.findIdx? (· = mark) = some i) :
      QuoteFlags f (some mark) ((List.replicate f.quotes.length false).set i true)

def bracketCounts (f : Format) (outside : List Char) : List (Nat × Nat) :=
  (List.range f.brackets.length).map fun i =>
    (outside.countP (isLeftOf f i), outside.countP (isRightOf f i))

structure Follows (f : Format) (q : Quoting) (e : Engine) : Prop where
  format : e.format = f
  openQuotes : QuoteFlags f q.openQuote e.openQuotes
  counts : e.counts = bracketCounts f q.outside

private theorem modify_map_range {α : Type} {g : α → α} {v w : Nat → α} {n i : Nat}
    (hi : w i = g (v i)) (hne : ∀ j, j ≠ i → w j = v j) :
    ((List.range n).map v).modify i g = (List.range n).map w := by
  apply List.ext_getElem
  · simp
  intro j _ _
  by_cases hj : j = i
  · simp [hj, hi]
  · simp [Ne.symm hj, hne j hj]

section Brackets

variable {f : Format} {c : Char} {i : Nat}

private theorem bracketCounts_left (h : f.brackets.findIdx? (·.1 = c) = some i)
    (outside : List Char) :
    (bracketCounts f outside).modify i (fun count => (count.1 + 1, count.2)) =
      bracketCounts f (outside ++ [c]) := by
  apply modify_map_range
  · simp [isLeftOf, isRightOf, h]
  · intro j hj
    simp [isLeftOf, isRightOf, h, Ne.symm hj]

private theorem bracketCounts_right (hleft : f.brackets.findIdx? (·.1 = c) = none)
    (h : f.brackets.findIdx? (·.2 = c) = some i) (outside : List Char) :
    (bracketCounts f outside).modify i (fun count => (count.1, count.2 + 1)) =
      bracketCounts f (outside ++ [c]) := by
  apply modify_map_range
  · simp [isLeftOf, isRightOf, hleft, h]
  · intro j hj
    simp [isLeftOf, isRightOf, hleft, h, Ne.symm hj]

private theorem bracketCounts_other (hleft : f.brackets.findIdx? (·.1 = c) = none)
    (h : f.brackets.findIdx? (·.2 = c) = none) (outside : List Char) :
    bracketCounts f outside = bracketCounts f (outside ++ [c]) := by
  simp [bracketCounts, isLeftOf, isRightOf, hleft, h]

end Brackets

namespace QuoteFlags

variable {f : Format} {flags : List Bool} {mark : Char} {i : Nat}

theorem eq_replicate (h : QuoteFlags f none flags) :
    flags = List.replicate f.quotes.length false := by
  cases h with
  | closed => rfl

theorem set_true (h : QuoteFlags f none flags) (hi : f.quotes.findIdx? (· = mark) = some i) :
    QuoteFlags f (some mark) (flags.set i true) := by
  rw [h.eq_replicate]
  exact .opened hi

theorem exists_set (h : QuoteFlags f (some mark) flags) : ∃ i, flags.findIdx? id = some i ∧
    f.quotes[i]? = some mark ∧ QuoteFlags f none (flags.set i false) := by
  cases h with
  | @opened _ i hi =>
      obtain ⟨hlt, hmark, -⟩ := List.findIdx?_eq_some_iff_getElem.1 hi
      refine ⟨i, ?_, ?_, ?_⟩
      · rw [List.findIdx?_eq_some_iff_getElem]
        refine ⟨by simpa using hlt, by simp, fun j hj => ?_⟩
        simp [Nat.ne_of_gt hj]
      · rw [List.getElem?_eq_getElem hlt]
        simpa using hmark
      · rw [List.set_set, List.set_replicate_self]
        exact .closed

theorem any_eq {mark : Option Char} (h : QuoteFlags f mark flags) :
    flags.any id = mark.isSome := by
  cases mark with
  | none => simp [h.eq_replicate]
  | some mark =>
      obtain ⟨i, hi, -⟩ := h.exists_set
      rw [← List.findIdx?_isSome, hi]
      rfl

end QuoteFlags

namespace Follows

variable {f : Format} {q : Quoting} {e : Engine}

theorem trackOutside (h : Follows f q e) (hclosed : q.openQuote = none) (c : Char) :
    Follows f (q.read f c) (e.trackOutside c) := by
  obtain ⟨rfl, hquotes, hcounts⟩ := h
  rw [hclosed] at hquotes
  simp only [Quoting.read, hclosed, Engine.trackOutside, ← List.findIdx?_isSome]
  cases hleft : e.format.brackets.findIdx? (·.1 = c) with
  | some i =>
      refine ⟨rfl, by simpa using hquotes, ?_⟩
      simpa [hcounts] using bracketCounts_left hleft q.outside
  | none =>
  cases hright : e.format.brackets.findIdx? (·.2 = c) with
  | some i =>
      refine ⟨rfl, by simpa using hquotes, ?_⟩
      simpa [hcounts] using bracketCounts_right hleft hright q.outside
  | none =>
  have hother := hcounts.trans (bracketCounts_other hleft hright q.outside)
  cases hquote : e.format.quotes.findIdx? (· = c) with
  | some i => exact ⟨rfl, hquotes.set_true hquote, hother⟩
  | none => exact ⟨rfl, hquotes, hother⟩

theorem track (h : Follows f q e) (c : Char) : Follows f (q.read f c) (e.track c) := by
  cases hopen : q.openQuote with
  | none =>
      have hflags := h.openQuotes
      rw [hopen] at hflags
      have htrack : e.track c = e.trackOutside c := by
        simp [Engine.track, hflags.eq_replicate]
      rw [htrack]
      exact h.trackOutside hopen c
  | some mark =>
      obtain ⟨rfl, hflags, hcounts⟩ := h
      obtain ⟨i, hi, hmark, hclosed⟩ := (hopen ▸ hflags).exists_set
      simp only [Quoting.read, hopen, Engine.track, hi, hmark]
      by_cases hc : c = mark
      · simpa [hc] using ⟨rfl, hclosed, hcounts⟩
      · simpa [hc, Ne.symm hc] using ⟨rfl, hflags, hcounts⟩

theorem withEscape (h : Follows f q e) (phase : Phase) (prev : Bool) (pending : List Char) :
    Follows f q { e with phase := phase, prevEscaped := prev, pending := pending } :=
  ⟨h.format, h.openQuotes, h.counts⟩

theorem inBrackets_eq_false_iff (h : Follows f q e) : e.inBrackets = false ↔
    ∀ i < f.brackets.length,
      q.outside.countP (isLeftOf f i) = q.outside.countP (isRightOf f i) := by
  simp [Engine.inBrackets, h.counts, bracketCounts]

theorem inQuotes_eq (h : Follows f q e) : e.inQuotes = q.openQuote.isSome := h.openQuotes.any_eq

end Follows

/-! ## Units from the left -/

section Units

variable {f : Format}

private theorem units_nil : units f [] = [] := by rw [units]

private theorem units_plain {c : Char} (h : f.trigger ≠ some c) (text : List Char) :
    units f (c :: text) = .plain c :: units f text := by
  rw [units.eq_def]
  simp [h]

variable {trigger : Char} (htrigger : f.trigger = some trigger)

include htrigger

private theorem units_trigger : units f [trigger] = [.escape [trigger]] := by
  rw [units.eq_def]
  simp [htrigger]

private theorem units_code {code : Char} (h : code ≠ f.unicodeCode) (text : List Char) :
    units f (trigger :: code :: text) = .escape [trigger, code] :: units f text := by
  rw [units.eq_def]
  simp [htrigger, h]

private theorem units_codePoint (a b c d : Char) (text : List Char) :
    units f (trigger :: f.unicodeCode :: a :: b :: c :: d :: text) =
      .escape [trigger, f.unicodeCode, a, b, c, d] :: units f text := by
  rw [units.eq_def]
  simp [htrigger]

private theorem units_unfinished {digits : List Char} (h : digits.length < 4) :
    units f (trigger :: f.unicodeCode :: digits) =
      [.escape (trigger :: f.unicodeCode :: digits)] := by
  have hlength := Nat.le_of_lt h
  rw [units.eq_def]
  simp [htrigger, List.take_of_length_le hlength, List.drop_of_length_le hlength, units_nil]

end Units

namespace Engine

variable {e : Engine} (hphase : e.phase = .plain)

include hphase

private theorem feed_plain {c : Char} (h : e.format.trigger ≠ some c) (text : List Char) :
    (e.feed (c :: text)).2 = (({ e with prevEscaped := false }.track c).feed text).2 := by
  simp [feed, consider_plain hphase h]

variable {trigger : Char} (htrigger : e.format.trigger = some trigger)

include htrigger

private theorem feed_trigger :
    (e.feed [trigger]).2 = { e with phase := .escaped, prevEscaped := false } := by
  simp [feed, consider_trigger hphase htrigger]

private theorem feed_code {code : Char} (h : code ≠ e.format.unicodeCode) (text : List Char) :
    (e.feed (trigger :: code :: text)).2 =
      ({ e with phase := .plain, prevEscaped := true }.feed text).2 := by
  simp [feed, consider, hphase, htrigger, h]

variable (hpending : e.pending = [])

include hpending

private theorem feed_codePoint (a b c d : Char) (text : List Char) :
    (e.feed (trigger :: e.format.unicodeCode :: a :: b :: c :: d :: text)).2 =
      ({ e with phase := .plain, prevEscaped := true, pending := [] }.feed text).2 := by
  simp [feed, consider, hphase, htrigger, hpending]

private theorem feed_unfinished {digits : List Char} (h : digits.length < 4) :
    (e.feed (trigger :: e.format.unicodeCode :: digits)).2 =
      { e with phase := .unicode, prevEscaped := true, pending := digits } := by
  match digits, h with
  | [], _ | [_], _ | [_, _], _ | [_, _, _], _ =>
      simp [feed, consider, hphase, htrigger, hpending]

end Engine

def endsPlain (before : Bool) (us : List EscapeUnit) : Bool :=
  (us.getLast?.map EscapeUnit.isPlain).getD before

private theorem endsPlain_cons (before : Bool) (u : EscapeUnit) (us : List EscapeUnit) :
    endsPlain before (u :: us) = endsPlain u.isPlain us := by
  cases h : us.getLast? <;> simp [endsPlain, List.getLast?_cons, h]

/-- What an engine that stood between two units is like behind more of them. -/
structure Behind (f : Format) (q : Quoting) (before : Bool) (us : List EscapeUnit) (e : Engine) :
    Prop where
  follows : Follows f (q.readUnits f us) e
  plain_iff : (e.phase = .plain ∧ e.prevEscaped = false) ↔ endsPlain before us = true

namespace Behind

variable {f : Format} {q : Quoting} {e : Engine} {before : Bool} {us : List EscapeUnit}

theorem nil (h : Follows f q e) (hphase : e.phase = .plain) : Behind f q (!e.prevEscaped) [] e :=
  ⟨h, by simp [endsPlain, hphase]⟩

theorem plain {c : Char} (h : Behind f (q.read f c) true us e) :
    Behind f q before (.plain c :: us) e :=
  ⟨h.follows, by rw [endsPlain_cons]; exact h.plain_iff⟩

theorem escape {text : List Char} (h : Behind f q false us e) :
    Behind f q before (.escape text :: us) e :=
  ⟨h.follows, by rw [endsPlain_cons]; exact h.plain_iff⟩

theorem unfinished {text : List Char} (h : Follows f q e) (hphase : e.phase ≠ .plain) :
    Behind f q before [.escape text] e :=
  ⟨h, by simp [endsPlain, EscapeUnit.isPlain, hphase]⟩

end Behind

private theorem behind_feed {f : Format} {q : Quoting} {e : Engine} (h : Follows f q e)
    (hphase : e.phase = .plain) (hpending : e.pending = []) :
    ∀ text, Behind f q (!e.prevEscaped) (units f text) (e.feed text).2
  | [] => by
      rw [units_nil]
      exact .nil h hphase
  | c :: text => by
      obtain rfl := h.format
      by_cases hc : e.format.trigger = some c
      · match text with
        | [] =>
            rw [units_trigger hc, Engine.feed_trigger hphase hc]
            exact .unfinished (h.withEscape .escaped false e.pending) nofun
        | code :: text =>
            by_cases hcode : code = e.format.unicodeCode
            · subst hcode
              match text with
              | [] | [_] | [_, _] | [_, _, _] =>
                  rw [units_unfinished hc (by simp),
                    Engine.feed_unfinished hphase hc hpending (by simp)]
                  exact .unfinished (h.withEscape .unicode true _) nofun
              | a₁ :: a₂ :: a₃ :: a₄ :: text =>
                  rw [units_codePoint hc, Engine.feed_codePoint hphase hc hpending]
                  exact .escape (behind_feed (h.withEscape .plain true []) rfl rfl text)
            · rw [units_code hc hcode, Engine.feed_code hphase hc hcode]
              exact .escape (behind_feed (h.withEscape .plain true e.pending) rfl hpending text)
      · rw [units_plain hc, Engine.feed_plain hphase hc]
        have htracked := (h.withEscape e.phase false e.pending).track c
        have hrest := behind_feed htracked (by simpa using hphase) (by simpa using hpending) text
        exact .plain (by simpa using hrest)
termination_by text => text.length

private theorem follows_start (f : Format) : Follows f {} (Engine.start f) :=
  ⟨rfl, .closed, by simp [Engine.start, bracketCounts, List.map_const']⟩

private theorem units_eq_nil_iff {f : Format} {text : List Char} :
    units f text = [] ↔ text = [] := by
  constructor
  · intro h
    cases text with
    | nil => rfl
    | cons c text =>
        rw [units.eq_def] at h
        dsimp only at h
        split at h
        · cases h
        · split at h
          · cases h
          · split at h <;> cases h
  · rintro rfl
    exact units_nil

private theorem endsPlain_units_iff {f : Format} {text : List Char} :
    endsPlain true (units f text) = true ↔
      text = [] ∨ ∃ c, (units f text).getLast? = some (.plain c) := by
  rw [← units_eq_nil_iff (f := f), ← List.getLast?_eq_none_iff, endsPlain]
  cases (units f text).getLast? with
  | none => simp
  | some u => cases u <;> simp [EscapeUnit.isPlain]

theorem shouldConsider_feed_reset_iff (e : Engine) (text : List Char) :
    (e.reset.feed text).2.shouldConsider = true ↔
      (text = [] ∨ ∃ c, (units e.format text).getLast? = some (.plain c)) ∧
      (quoting e.format text).openQuote = none ∧
      ∀ i < e.format.brackets.length,
        (quoting e.format text).outside.countP (isLeftOf e.format i) =
          (quoting e.format text).outside.countP (isRightOf e.format i) := by
  have h : Behind e.format {} true (units e.format text) (e.reset.feed text).2 :=
    behind_feed (follows_start e.format) rfl rfl text
  rw [← endsPlain_units_iff, ← h.plain_iff, quoting, ← h.follows.inBrackets_eq_false_iff]
  simp [Engine.shouldConsider, h.follows.inQuotes_eq, and_assoc]

end TextGrammar.Escape
