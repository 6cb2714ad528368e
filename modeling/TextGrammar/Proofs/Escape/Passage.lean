import TextGrammar.Escape.Scan
import TextGrammar.Proofs.Escape.Decoding

/-!
# Passing over a text

A scan goes over a text that its engine passes without finding a place to stop at.  Passages are put
together from those over the parts of a text, and then say at once what splitting and cutting out a
balanced region make of the whole.
-/

namespace TextGrammar.Escape.Engine

/-- The engine goes over the text and becomes `e'`; behind each character it satisfies `p`. -/
def Passes (p : Char → Engine → Prop) (e : Engine) : List Char → Engine → Prop
  | [], e' => e = e'
  | c :: cs, e' => p c (e.consider c).2 ∧ Passes p (e.consider c).2 cs e'

namespace Passes

variable {p q : Char → Engine → Prop} {e e' e'' : Engine}

theorem cons {c : Char} {text : List Char} {emitted : List Char}
    (hstep : e.consider c = (emitted, e')) (hp : p c e') (h : e'.Passes p text e'') :
    e.Passes p (c :: text) e'' := by
  simp only [Passes, hstep]
  exact ⟨hp, h⟩

theorem append {a b : List Char} (ha : e.Passes p a e') (hb : e'.Passes p b e'') :
    e.Passes p (a ++ b) e'' := by
  induction a generalizing e with
  | nil =>
      cases ha
      exact hb
  | cons c a ih => exact ⟨ha.1, ih ha.2⟩

theorem mono {text : List Char} (h : e.Passes p text e') (hpq : ∀ c e, p c e → q c e) :
    e.Passes q text e' := by
  induction text generalizing e with
  | nil => exact h
  | cons c text ih => exact ⟨hpq _ _ h.1, ih h.2⟩

theorem feed {text : List Char} (h : e.Passes p text e') : (e.feed text).2 = e' := by
  induction text generalizing e with
  | nil => exact h
  | cons c text ih => exact ih h.2

end Passes

def NeverConsiders (_ : Char) (e : Engine) : Prop := e.shouldConsider = false

def NeverSeparates (separator : Char) (c : Char) (e : Engine) : Prop :=
  e.shouldConsider = true → c ≠ separator

theorem scanFrom_append_of_passes {separator : Char} {e e' : Engine} {text : List Char}
    (h : e.Passes (NeverSeparates separator) text e') (resolved : Bool) (sofar : List Char)
    (length : Nat) (rest : List Char) :
    e.scanFrom resolved (stopAt (· = separator)) sofar length () (text ++ rest) =
      e'.scanFrom resolved (stopAt (· = separator))
        (sofar ++ if resolved then (e.feed text).1 else text) (length + text.length) () rest := by
  induction text generalizing e sofar length with
  | nil =>
      cases h
      simp [feed]
  | cons c text ih =>
      obtain ⟨hc, htext⟩ := h
      have hrest := ih htext (sofar ++ if resolved then (e.consider c).1 else [c]) (length + 1)
      have hgathered : sofar ++ (if resolved then (e.consider c).1 else [c]) ++
          (if resolved then ((e.consider c).2.feed text).1 else text) =
            sofar ++ if resolved then (e.feed (c :: text)).1 else c :: text := by
        cases resolved <;> simp [feed]
      have hlength : length + 1 + text.length = length + (c :: text).length := by
        simp only [List.length_cons]
        omega
      rw [hgathered, hlength] at hrest
      rw [List.cons_append, scanFrom]
      cases hconsider : (e.consider c).2.shouldConsider with
      | false => simpa [hconsider] using hrest
      | true =>
          have hne : c ≠ separator := hc hconsider
          simpa [hconsider, stopAt, hne] using hrest

theorem balanced_append {e e' : Engine} {text : List Char} {c : Char}
    (h : e.Passes NeverConsiders text e') (hc : (e'.consider c).2.shouldConsider = true)
    (rest : List Char) :
    e.balanced (text ++ c :: rest) = (text ++ [c], (e'.consider c).2) := by
  induction text generalizing e with
  | nil =>
      cases h
      simp [balanced, hc]
  | cons d text ih =>
      have hd : (e.consider d).2.shouldConsider = false := h.1
      simp [balanced, hd, ih h.2]

theorem balanced_append_drop (text : List Char) :
    ∀ e : Engine, (e.balanced text).1 ++ text.drop (e.balanced text).1.length = text := by
  induction text with
  | nil => intro e; simp [balanced]
  | cons c text ih =>
      intro e
      simp only [balanced]
      split
      · simp
      · simpa using ih (e.consider c).2

section Split

variable {separator : Char}

theorem splitFrom_ne_nil (text : List Char) (e : Engine) : e.splitFrom separator text ≠ [] := by
  cases text with
  | nil => simp [splitFrom]
  | cons c text =>
      simp only [splitFrom]
      split
      · simp
      · split <;> simp

theorem splitFrom_of_passes {e e' : Engine} {text : List Char}
    (h : e.Passes (NeverSeparates separator) text e') : e.splitFrom separator text = [text] := by
  induction text generalizing e with
  | nil => rfl
  | cons c text ih =>
      have hc : ¬((e.consider c).2.shouldConsider = true ∧ c = separator) :=
        fun hstop => h.1 hstop.1 hstop.2
      simp [splitFrom, hc, ih h.2]

theorem splitFrom_append_separator {e e' : Engine} {text : List Char}
    (h : e.Passes (NeverSeparates separator) text e')
    (hseparator : (e'.consider separator).2.shouldConsider = true) (rest : List Char) :
    e.splitFrom separator (text ++ separator :: rest) =
      text :: (start e.format).splitFrom separator rest := by
  induction text generalizing e with
  | nil =>
      cases h
      simp [splitFrom, hseparator, reset]
  | cons c text ih =>
      have hc : ¬((e.consider c).2.shouldConsider = true ∧ c = separator) :=
        fun hstop => h.1 hstop.1 hstop.2
      simp [splitFrom, hc, ih h.2]

theorem intercalate_splitFrom (text : List Char) :
    ∀ e : Engine, [separator].intercalate (e.splitFrom separator text) = text := by
  induction text with
  | nil => intro e; simp [splitFrom]
  | cons c text ih =>
      intro e
      simp only [splitFrom]
      split
      · rename_i hstop
        have hc : c = separator := by simpa using (Bool.and_eq_true_iff.1 hstop).2
        have hrest := ih (e.consider c).2.reset
        cases hpieces : (e.consider c).2.reset.splitFrom separator text with
        | nil => exact absurd hpieces (splitFrom_ne_nil _ _)
        | cons piece pieces =>
            rw [hpieces] at hrest
            rw [List.intercalate_cons_cons, hrest, hc]
            rfl
      · have hrest := ih (e.consider c).2
        cases hpieces : (e.consider c).2.splitFrom separator text with
        | nil => exact absurd hpieces (splitFrom_ne_nil _ _)
        | cons piece pieces =>
            rw [hpieces] at hrest
            cases pieces with
            | nil => simpa using hrest
            | cons next pieces =>
                rw [List.intercalate_cons_cons] at hrest ⊢
                simpa using hrest

end Split

end TextGrammar.Escape.Engine
