import TextGrammar.Regex.Pattern

/-!
# Reading in front of a parenthesis

A pattern is read twice: on its own, and with a closing parenthesis behind it.  Both readings go
the same way up to the end of the pattern.  There the parenthesis is left over, or it is read: as a
part of what the pattern did not finish, or as a part of a comment.  So each reader is run on two
texts of which the second may have the parenthesis behind it.  Either both fail, or both yield the
same and leave texts of that kind, or the second alone has a result, as only it had something left
to read.
-/

namespace TextGrammar.Regex

open Text

/-- The second text is the first with or without a closing parenthesis behind it.  They have at most
`n` and `n'` characters. -/
inductive Trailed : Nat → Nat → List Char → List Char → Prop
  | ended {n n'} : Trailed n n' [] []
  | closed {n n'} : Trailed n (n' + 1) [] [')']
  | cons {n n' s s'} (c : Char) (h : Trailed n n' s s') :
      Trailed (n + 1) (n' + 1) (c :: s) (c :: s')

def AtEnd (s : List Char) : Prop := s = [] ∨ s = [')']

namespace Trailed

variable {n n' m m' : Nat} {s s' : List Char} {flags : Flags}

theorem mono (h : Trailed n n' s s') (hle : n ≤ m) (hle' : n' ≤ m') : Trailed m m' s s' := by
  induction h generalizing m m' with
  | ended => exact .ended
  | closed =>
      obtain ⟨m', rfl⟩ : ∃ k, m' = k + 1 := ⟨m' - 1, by omega⟩
      exact .closed
  | cons c _ ih =>
      obtain ⟨m, rfl⟩ : ∃ k, m = k + 1 := ⟨m - 1, by omega⟩
      obtain ⟨m', rfl⟩ : ∃ k, m' = k + 1 := ⟨m' - 1, by omega⟩
      exact .cons c (ih (by omega) (by omega))

theorem step (h : Trailed n n' s s') : Trailed (n + 1) (n' + 1) s s' :=
  h.mono (Nat.le_succ n) (Nat.le_succ n')

theorem length_le (h : Trailed n n' s s') : s.length ≤ n ∧ s'.length ≤ n' := by
  induction h with
  | ended | closed => simp
  | cons c _ ih => simpa using ih

theorem self (h : Trailed n n' s s') : Trailed s.length s'.length s s' := by
  induction h with
  | ended => exact .ended
  | closed => exact .closed
  | cons c _ ih => exact .cons c ih

theorem append_parenthesis (s : List Char) : Trailed s.length (s.length + 1) s (s ++ [')']) := by
  induction s with
  | nil => exact .closed
  | cons c s ih => exact .cons c ih

theorem tail (h : Trailed n n' s s') : Trailed n n' s.tail s'.tail := by
  cases h with
  | ended | closed => exact .ended
  | cons c h => exact h.step

theorem uncons (h : Trailed n n' s s') (c : Char) (hc : c ≠ ')') :
    (∃ t t', s = c :: t ∧ s' = c :: t' ∧ Trailed n n' t t') ∨
      ((∀ t, s ≠ c :: t) ∧ ∀ t, s' ≠ c :: t) := by
  cases h with
  | ended => exact .inr ⟨by simp, by simp⟩
  | closed => exact .inr ⟨by simp, by simp [hc.symm]⟩
  | cons d h =>
      by_cases hd : d = c
      · exact .inl ⟨_, _, by rw [hd], by rw [hd], h.step⟩
      · exact .inr ⟨by simp [hd], by simp [hd]⟩

theorem uncons_uncons (h : Trailed n n' s s') (c d : Char) (hc : c ≠ ')') (hd : d ≠ ')') :
    (∃ t t', s = c :: d :: t ∧ s' = c :: d :: t' ∧ Trailed n n' t t') ∨
      ((∀ t, s ≠ c :: d :: t) ∧ ∀ t, s' ≠ c :: d :: t) := by
  rcases h.uncons c hc with ⟨s, s', rfl, rfl, hbehind⟩ | ⟨hs, hs'⟩
  · simpa using hbehind.uncons d hd
  · exact .inr ⟨fun t => hs _, fun t => hs' _⟩

theorem atEnd_or_cons (h : Trailed n n' s s') :
    (s = [] ∧ AtEnd s') ∨ ∃ c t t', s = c :: t ∧ s' = c :: t' ∧ Trailed n n' t t' := by
  cases h with
  | ended => exact .inl ⟨rfl, .inl rfl⟩
  | closed => exact .inl ⟨rfl, .inr rfl⟩
  | cons c h => exact .inr ⟨c, _, _, rfl, rfl, h.step⟩

theorem atEnd (h : Trailed n n' [] s') : AtEnd s' := by
  cases h with
  | ended => exact .inl rfl
  | closed => exact .inr rfl

theorem dropWhile (h : Trailed n n' s s') (test : Char → Bool) :
    Trailed n n' (s.dropWhile test) (s'.dropWhile test) := by
  induction h with
  | ended => exact .ended
  | closed => cases htest : test ')' <;> simp [htest] <;> constructor
  | cons c h ih =>
      cases htest : test c <;> simp only [List.dropWhile_cons, htest]
      · exact .cons c h
      · exact ih.step

theorem trimStart (h : Trailed n n' s s') : Trailed n n' (trimStart s) (trimStart s') :=
  h.dropWhile _

theorem skipComments (h : Trailed n n' s s') (inComment : Bool) :
    Trailed n n' (skipComments inComment s) (skipComments inComment s') := by
  induction h generalizing inComment with
  | ended => exact .ended
  | closed => cases inComment <;> constructor
  | cons c h ih =>
      simp only [Regex.skipComments]
      split
      · exact (ih _).step
      · split
        · exact (ih _).step
        · split
          · exact (ih _).step
          · exact .cons c h

theorem skip (h : Trailed n n' s s') (flags : Flags) :
    Trailed n n' (skip flags s) (skip flags s') := by
  unfold Regex.skip
  split
  · exact h.skipComments false
  · exact h

end Trailed

theorem length_skip_le (flags : Flags) (s : List Char) : (skip flags s).length ≤ s.length := by
  have hcomments (inComment : Bool) : (skipComments inComment s).length ≤ s.length := by
    induction s generalizing inComment with
    | nil => exact Nat.le_refl _
    | cons c s ih =>
        simp only [skipComments, List.length_cons]
        split
        · exact Nat.le_succ_of_le (ih _)
        · split
          · exact Nat.le_succ_of_le (ih _)
          · split
            · exact Nat.le_succ_of_le (ih _)
            · exact Nat.le_refl _
  unfold skip
  split
  · exact hcomments false
  · exact Nat.le_refl _

theorem skip_nil (flags : Flags) : skip flags [] = [] :=
  List.length_eq_zero_iff.1 (Nat.le_zero.1 (length_skip_le flags []))

theorem skip_cons {c : Char} (flags : Flags) (s : List Char) (hblank : isBlank c = false)
    (hcomment : c ≠ '#') : skip flags (c :: s) = c :: s := by
  simp [skip, skipComments, hblank, hcomment]

/-! ## Outcomes of the two readings -/

/-- Both readings fail, or both succeed with results that are the `same`, or the second succeeds
`alone`. -/
inductive Agree {β : Type} (same : β → β → Prop) (alone : β → Prop) :
    Option β → Option β → Prop
  | neither : Agree same alone none none
  | both {x y} (h : same x y) : Agree same alone (some x) (some y)
  | second {y} (h : alone y) : Agree same alone none (some y)

namespace Agree

variable {β γ : Type} {same : β → β → Prop} {same' : γ → γ → Prop} {alone : β → Prop}
  {alone' : γ → Prop} {a b : Option β}

theorem bind (h : Agree same alone a b) {f g : β → Option γ}
    (hboth : ∀ x y, same x y → Agree same' alone' (f x) (g y))
    (hsecond : ∀ y, alone y → Agree same' alone' none (g y)) :
    Agree same' alone' (a.bind f) (b.bind g) := by
  cases h with
  | neither => exact .neither
  | both h => exact hboth _ _ h
  | second h => exact hsecond _ h

theorem map (h : Agree same alone a b) {f g : β → γ} (hboth : ∀ x y, same x y → same' (f x) (g y))
    (hsecond : ∀ y, alone y → alone' (g y)) : Agree same' alone' (a.map f) (b.map g) := by
  cases h with
  | neither => exact .neither
  | both h => exact .both (hboth _ _ h)
  | second h => exact .second (hsecond _ h)

theorem imp (h : Agree same alone a b) {same' : β → β → Prop} {alone' : β → Prop}
    (hsame : ∀ x y, same x y → same' x y) (halone : ∀ y, alone y → alone' y) :
    Agree same' alone' a b := by
  cases h with
  | neither => exact .neither
  | both h => exact .both (hsame _ _ h)
  | second h => exact .second (halone _ h)

end Agree

def Keeps {α β : Type} (same : β → β → Prop) (x y : α × β) : Prop := x.1 = y.1 ∧ same x.2 y.2

def Never {β : Type} (_ : β) : Prop := False

theorem Agree.mapValue {α β γ : Type} {same : β → β → Prop} {alone : α × β → Prop}
    {alone' : γ × β → Prop} {a b : Option (α × β)} (h : Agree (Keeps same) alone a b) (f : α → γ)
    (hsecond : ∀ y, alone y → alone' (f y.1, y.2)) :
    Agree (Keeps same) alone' (a.map fun (v, rest) => (f v, rest))
      (b.map fun (v, rest) => (f v, rest)) :=
  h.map (fun _ _ hxy => ⟨congrArg f hxy.1, hxy.2⟩) hsecond

theorem agree_value {α β : Type} {same : β → β → Prop} {alone : α × β → Prop} {x y : β}
    (h : same x y) (value : Option α) :
    Agree (Keeps same) alone (value.map (·, x)) (value.map (·, y)) := by
  cases value with
  | none => exact .neither
  | some v => exact .both ⟨rfl, h⟩

/-! ## Scans -/

def scan {α : Type} (flags : Flags) (next : α → Char → Option α) :
    α → Nat → List Char → α × List Char
  | value, 0, text => (value, text)
  | value, _ + 1, [] => (value, [])
  | value, fuel + 1, c :: cs =>
      match next value c with
      | some value => scan flags next value fuel (skip flags cs)
      | none => (value, c :: cs)

variable {n n' : Nat} {s s' : List Char} {flags : Flags}

theorem keeps_scan {α : Type} {next : α → Char → Option α} (hstops : ∀ value, next value ')' = none)
    {fuel fuel' : Nat} (h : Trailed n n' s s') (hfuel : s.length ≤ fuel)
    (hfuel' : s'.length ≤ fuel') (value : α) :
    Keeps (Trailed n n') (scan flags next value fuel s) (scan flags next value fuel' s') := by
  have hnil (value : α) (fuel : Nat) : scan flags next value fuel [] = (value, []) := by
    cases fuel <;> rfl
  have hparenthesis (value : α) (fuel : Nat) :
      scan flags next value fuel [')'] = (value, [')']) := by
    cases fuel <;> simp [scan, hstops]
  induction fuel generalizing n n' s s' fuel' value with
  | zero =>
      obtain rfl := List.length_eq_zero_iff.1 (Nat.le_zero.1 hfuel)
      cases h with
      | ended => rw [hnil, hnil]; exact ⟨rfl, .ended⟩
      | closed => rw [hnil, hparenthesis]; exact ⟨rfl, .closed⟩
  | succ fuel ih =>
      cases h with
      | ended => rw [hnil, hnil]; exact ⟨rfl, .ended⟩
      | closed => rw [hnil, hparenthesis]; exact ⟨rfl, .closed⟩
      | @cons _ _ s s' c h =>
          obtain _ | fuel' := fuel'
          · simp at hfuel'
          · have hs := Nat.le_trans (length_skip_le flags s) (Nat.le_of_succ_le_succ hfuel)
            have hs' := Nat.le_trans (length_skip_le flags s') (Nat.le_of_succ_le_succ hfuel')
            simp only [scan]
            cases next value c with
            | none => exact ⟨rfl, .cons c h⟩
            | some value =>
                obtain ⟨hvalue, hrest⟩ := ih (h.skip flags) hs hs' value
                exact ⟨hvalue, hrest.step⟩

private theorem readDigits_eq_scan (flags : Flags) (value : Option Nat) (fuel : Nat)
    (text : List Char) : readDigits flags value fuel text =
      scan flags
        (fun value c => if c.isDigit then some (some (10 * value.getD 0 + (c.toNat - '0'.toNat)))
          else none)
        value fuel text := by
  fun_induction readDigits flags value fuel text <;> simp_all [scan]

private theorem agree_readCount (h : Trailed n n' s s') :
    Agree (Keeps (Trailed n n')) Never (readCount flags s) (readCount flags s') := by
  have hdigits : Keeps (Trailed n n') (readDigits flags none s.length (trimStart s))
      (readDigits flags none s'.length (trimStart s')) := by
    rw [readDigits_eq_scan, readDigits_eq_scan]
    exact keeps_scan (fun _ => rfl) h.trimStart (List.dropWhile_sublist _).length_le
      (List.dropWhile_sublist _).length_le none
  unfold readCount
  generalize readDigits flags none s.length (trimStart s) = x at hdigits
  generalize readDigits flags none s'.length (trimStart s') = y at hdigits
  obtain ⟨value, rest⟩ := x
  obtain ⟨_, rest'⟩ := y
  obtain ⟨rfl, hrest⟩ := hdigits
  cases value with
  | none => exact .neither
  | some k =>
      dsimp only
      split
      · exact .both ⟨rfl, hrest.trimStart.skip flags⟩
      · exact .neither

theorem agree_readBounds (h : Trailed n n' s s') :
    Agree (Keeps (Keeps (Trailed n n'))) Never (readBounds flags s) (readBounds flags s') := by
  unfold readBounds
  refine (agree_readCount (h.skip flags)).bind ?_ fun _ h => h.elim
  rintro ⟨min, rest⟩ ⟨_, rest'⟩ ⟨rfl, hrest⟩
  dsimp only at hrest ⊢
  rcases hrest.uncons '\x7d' (by decide) with ⟨rest, rest', rfl, rfl, hbehind⟩ | ⟨hs, hs'⟩
  · exact .both ⟨rfl, rfl, hbehind⟩
  rcases hrest.uncons ',' (by decide) with ⟨rest, rest', rfl, rfl, hbehind⟩ | ⟨hs, hs'⟩
  · have hskip := hbehind.skip flags
    simp only
    generalize skip flags rest = u at hskip
    generalize skip flags rest' = u' at hskip
    rcases hskip.uncons '\x7d' (by decide) with ⟨u, u', rfl, rfl, hbehind⟩ | ⟨hs, hs'⟩
    · exact .both ⟨rfl, rfl, hbehind⟩
    · simp only
      refine (agree_readCount hskip).bind ?_ fun _ h => h.elim
      rintro ⟨max, rest⟩ ⟨_, rest'⟩ ⟨rfl, hrest⟩
      dsimp only at hrest ⊢
      rcases hrest.uncons '\x7d' (by decide) with ⟨rest, rest', rfl, rfl, hbehind⟩ | ⟨hs, hs'⟩
      · simp only
        split
        · exact .both ⟨rfl, rfl, hbehind⟩
        · exact .neither
      · simp only
        exact .neither
  · simp only
    exact .neither

private theorem agree_readHexDigits (h : Trailed n n' s s') (digits : List Char) (count : Nat) :
    Agree (Keeps (Trailed n n')) Never (readHexDigits flags digits count s)
      (readHexDigits flags digits count s') := by
  induction count generalizing n n' s s' digits with
  | zero =>
      unfold readHexDigits
      exact agree_value h _
  | succ count ih =>
      cases h with
      | ended | closed => exact .neither
      | cons c h =>
          unfold readHexDigits
          split
          · exact ih (h.skip flags).step _
          · exact .neither

private theorem agree_readHexBraced {fuel fuel' : Nat} (h : Trailed n n' s s')
    (hfuel : s.length < fuel) (hfuel' : s'.length < fuel') (digits : List Char) :
    Agree (Keeps (Trailed n n')) Never (readHexBraced flags digits fuel s)
      (readHexBraced flags digits fuel' s') := by
  induction fuel generalizing n n' s s' fuel' digits with
  | zero => exact absurd hfuel (Nat.not_lt_zero _)
  | succ fuel ih =>
      obtain _ | fuel' := fuel'
      · exact absurd hfuel' (Nat.not_lt_zero _)
      · have hs := length_skip_le flags s
        have hs' := length_skip_le flags s'
        have hskip := h.skip flags
        unfold readHexBraced
        generalize skip flags s = u at hs hskip
        generalize skip flags s' = u' at hs' hskip
        cases hskip with
        | ended | closed => exact .neither
        | @cons n n' u u' c hu =>
            by_cases hbrace : c = '\x7d'
            · subst hbrace
              simp only
              split
              · exact .neither
              · exact agree_value (hu.skip flags).step _
            · simp only [List.length_cons] at hs hs'
              simp only
              split
              · exact ih hu.step (by omega) (by omega) _
              · exact .neither

private theorem agree_readCodePoint (h : Trailed n n' s s') (digits : Nat) :
    Agree (Keeps (Trailed n n')) Never (readCodePoint flags digits s)
      (readCodePoint flags digits s') := by
  have hskip := h.skip flags
  unfold readCodePoint
  generalize skip flags s = u at hskip
  generalize skip flags s' = u' at hskip
  rcases hskip.uncons '\x7b' (by decide) with ⟨u, u', rfl, rfl, hu⟩ | ⟨hs, hs'⟩
  · exact agree_readHexBraced hu (Nat.lt_succ_self _) (Nat.lt_succ_self _) _
  · simp only
    refine (agree_readHexDigits hskip _ _).bind ?_ fun _ h => h.elim
    rintro ⟨c, rest⟩ ⟨_, rest'⟩ ⟨rfl, hrest⟩
    dsimp only
    split
    · exact .neither
    · exact .both ⟨rfl, hrest⟩

/-! ## Escapes -/

private theorem readEdgeName_eq_scan (flags : Flags) (name : List Char) (fuel : Nat)
    (text : List Char) : readEdgeName flags name fuel text =
      scan flags (fun name c => if c.isAlpha || c = '-' then some (name ++ [c]) else none)
        name fuel text := by
  fun_induction readEdgeName flags name fuel text <;> simp_all [scan]

/-- The letter of a word boundary with a brace behind it, in which the parenthesis is the first to
be read. -/
def BraceLeft (flags : Flags) (e : WordEdge) (s : List Char) : Prop :=
  e = .boundary ∧ ∃ t, s = '\x7b' :: t ∧ skip flags t = [')']

private theorem agree_readWordEdge (h : Trailed n n' s s') :
    Agree (Keeps (Trailed n n')) (fun y => BraceLeft flags y.1 y.2) (readWordEdge flags s)
      (readWordEdge flags s') := by
  unfold readWordEdge
  rcases h.uncons '\x7b' (by decide) with ⟨u, u', rfl, rfl, hu⟩ | ⟨hs, hs'⟩
  · have hskip := hu.skip flags
    simp only
    generalize hv : skip flags u = v at hskip
    generalize hv' : skip flags u' = v' at hskip
    cases hskip with
    | ended => exact .neither
    | closed => exact .second ⟨rfl, u', rfl, hv'⟩
    | @cons n n' v v' c hw =>
        simp only
        have hname : Keeps (Trailed (n + 1) (n' + 1))
            (readEdgeName flags [] (c :: v).length (c :: v))
            (readEdgeName flags [] (c :: v').length (c :: v')) := by
          rw [readEdgeName_eq_scan, readEdgeName_eq_scan]
          exact keeps_scan (fun _ => rfl) (.cons c hw) (Nat.le_refl _) (Nat.le_refl _) []
        generalize readEdgeName flags [] (c :: v).length (c :: v) = x at hname
        generalize readEdgeName flags [] (c :: v').length (c :: v') = y at hname
        obtain ⟨name, rest⟩ := x
        obtain ⟨_, rest'⟩ := y
        obtain ⟨rfl, hrest⟩ := hname
        cases name with
        | nil => exact .both ⟨rfl, h⟩
        | cons d name =>
            dsimp only at hrest
            rcases hrest.uncons '\x7d' (by decide) with ⟨rest, rest', rfl, rfl, hbehind⟩ | ⟨hs, hs'⟩
            · exact agree_value hbehind _
            · simpa [hs, hs'] using .neither
  · simp only
    exact .both ⟨rfl, h⟩

def EscapeAlone (flags : Flags) (y : Primitive × List Char) : Prop :=
  y.2 = [] ∨ ∃ e, y.1 = .look (.word e flags.unicode) ∧ BraceLeft flags e y.2

theorem agree_readEscape (h : Trailed n n' s s') :
    Agree (Keeps (Trailed (n - 1) (n' - 1))) (EscapeAlone flags) (readEscape flags s)
      (readEscape flags s') := by
  cases h with
  | ended => exact .neither
  | closed => exact .second (.inl rfl)
  | @cons n n' s s' c h =>
      simp only [Nat.add_sub_cancel]
      have hcode (digits : Nat) : Agree (Keeps (Trailed n n')) (EscapeAlone flags)
          ((readCodePoint flags digits s).map fun y => (.char y.1, y.2))
          ((readCodePoint flags digits s').map fun y => (.char y.1, y.2)) :=
        (agree_readCodePoint h digits).mapValue Primitive.char fun _ h => h.elim
      have hplain (p : Primitive) :
          Agree (Keeps (Trailed n n')) (EscapeAlone flags) (some (p, s)) (some (p, s')) :=
        .both ⟨rfl, h⟩
      simp only [readEscape]
      split
      · exact hplain _
      · split
        · exact hcode 2
        · exact hcode 4
        · exact hcode 8
        · exact hplain _
        · exact hplain _
        · exact (agree_readWordEdge h).mapValue (fun e => Primitive.look (.word e flags.unicode))
            fun y hy => .inr ⟨y.1, rfl, hy⟩
        · exact hplain _
        · exact hplain _
        · exact hplain _
        · split
          · exact hplain _
          · cases propertySet? flags c with
            | none => exact .neither
            | some set => exact hplain _

end TextGrammar.Regex
