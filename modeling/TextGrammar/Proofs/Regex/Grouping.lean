import TextGrammar.Proofs.Regex.Classes

/-!
# Reading groups in front of a parenthesis

A parenthesis behind a pattern may close a group that the pattern left open, or flags that it did
not finish.  Then the pattern on its own is no pattern, and nothing is left of the longer text.
-/

namespace TextGrammar.Regex

variable {n n' : Nat} {s s' : List Char} {flags : Flags}

private theorem agree_readFlags_cons {alone : Flags × List Char → Prop} {c : Char}
    (hc : ¬(c = ':' ∨ c = ')'))
    (hrest : ∀ flags seen, Agree (Keeps (Trailed n n')) alone (readFlags flags seen s)
      (readFlags flags seen s')) (seen : List Char) :
    Agree (Keeps (Trailed n n')) alone (readFlags flags seen (c :: s))
      (readFlags flags seen (c :: s')) := by
  unfold readFlags
  rw [if_neg hc, if_neg hc]
  split
  · exact .neither
  · split
    · exact hrest _ _
    · cases flags.set? c (!seen.contains '-') with
      | none => exact .neither
      | some flags => exact hrest _ _

private theorem agree_readFlags (h : Trailed n n' s s') (seen : List Char) :
    Agree (Keeps (Trailed n n')) (fun y => y.2 = [')'] ∧ 0 < n') (readFlags flags seen s)
      (readFlags flags seen s') := by
  induction h generalizing flags seen with
  | ended => exact .neither
  | closed =>
      unfold readFlags
      simp only [or_true, if_true]
      split
      · exact .neither
      · exact .second ⟨rfl, Nat.succ_pos _⟩
  | @cons n n' s s' c h ih =>
      by_cases hc : c = ':' ∨ c = ')'
      · unfold readFlags
        rw [if_pos hc, if_pos hc]
        split
        · exact .neither
        · exact .both ⟨rfl, .cons c h⟩
      · refine agree_readFlags_cons hc (fun flags seen => (ih seen).imp ?_ ?_) seen
        · exact fun _ _ hxy => ⟨hxy.1, hxy.2.step⟩
        · exact fun _ hy => ⟨hy.1, Nat.succ_pos _⟩

def Reader.Trailed (n n' : Nat) (r r' : Reader) : Prop :=
  Regex.Trailed n n' r.ahead r'.ahead ∧ r.groups = r'.groups ∧ r.names = r'.names

private theorem agree_readName {r r' : Reader} (hgroups : r.groups = r'.groups)
    (hnames : r.names = r'.names) (h : Trailed n n' s s') :
    Agree (Reader.Trailed n n') Never (readName r s) (readName r' s') := by
  have hdrop := h.dropWhile fun c => decide (c ≠ '>')
  have htake : s.dropWhile (fun c => decide (c ≠ '>')) ≠ [] →
      s.takeWhile (fun c => decide (c ≠ '>')) = s'.takeWhile fun c => decide (c ≠ '>') :=
    h.takeWhile_eq
  unfold readName
  generalize s.dropWhile (fun c => decide (c ≠ '>')) = v at hdrop htake
  generalize s'.dropWhile (fun c => decide (c ≠ '>')) = v' at hdrop
  rcases hdrop.uncons '>' (by decide) with ⟨v, v', rfl, rfl, hbehind⟩ | ⟨hv, hv'⟩
  · rw [← htake (List.cons_ne_nil _ _), ← hgroups, ← hnames]
    cases s.takeWhile fun c => decide (c ≠ '>') with
    | nil => exact .neither
    | cons c cs =>
        simp only
        split
        · exact .both ⟨hbehind, rfl, rfl⟩
        · exact .neither
  · dsimp only
    split
    · exact absurd rfl (hv _)
    · split
      · exact absurd rfl (hv' _)
      · exact .neither

theorem Trailed.isLookaround_eq (h : Trailed n n' s s') : isLookaround s = isLookaround s' := by
  rcases h.uncons '?' (by decide) with ⟨t, t', rfl, rfl, ht⟩ | ⟨hs, hs'⟩
  · rcases ht.uncons '=' (by decide) with ⟨u, u', rfl, rfl, -⟩ | ⟨hlook, hlook'⟩
    · rfl
    rcases ht.uncons '!' (by decide) with ⟨u, u', rfl, rfl, -⟩ | ⟨hnot, hnot'⟩
    · rfl
    rcases ht.uncons '<' (by decide) with ⟨u, u', rfl, rfl, hu⟩ | ⟨hangle, hangle'⟩
    · rcases hu.uncons '=' (by decide) with ⟨v, v', rfl, rfl, -⟩ | ⟨hlook, hlook'⟩
      · rfl
      rcases hu.uncons '!' (by decide) with ⟨v, v', rfl, rfl, -⟩ | ⟨hnot, hnot'⟩
      · rfl
      simp [isLookaround, *]
    · simp [isLookaround, *]
  · simp [isLookaround, *]

private theorem agree_flagged {t t' : List Char} {groups : Nat} {names : List (List Char)}
    (ht : Trailed n n' t t') :
    Agree (Keeps (Reader.Trailed n n')) (fun y => y.2.ahead = [])
      (do
        let (inner, behind) ← readFlags flags [] t
        match behind with
        | ':' :: behind => some (Opening.group inner none, Reader.mk behind groups names)
        | _ =>
            if behind.length = t.length then none
            else some (Opening.directive inner, Reader.mk behind.tail groups names))
      (do
        let (inner, behind) ← readFlags flags [] t'
        match behind with
        | ':' :: behind => some (Opening.group inner none, Reader.mk behind groups names)
        | _ =>
            if behind.length = t'.length then none
            else some (Opening.directive inner, Reader.mk behind.tail groups names)) := by
  cases ht with
  | ended => exact .neither
  | closed => exact .neither
  | @cons n n' v v' c hv =>
      by_cases hc : c = ':' ∨ c = ')'
      · rcases hc with rfl | rfl
        · simp only [readFlags]
          exact .both ⟨rfl, hv.step, rfl, rfl⟩
        · simpa [readFlags] using .neither
      · refine (agree_readFlags_cons hc (fun _ _ => agree_readFlags hv.self _) []).bind ?_ ?_
        · rintro ⟨inner, behind⟩ ⟨_, behind'⟩ ⟨rfl, hbehind⟩
          dsimp only at hbehind ⊢
          have hlength := hbehind.length_le
          have hv := hv.length_le
          rcases hbehind.uncons ':' (by decide) with ⟨w, w', rfl, rfl, hw⟩ | ⟨hw, hw'⟩
          · exact .both ⟨rfl, hw.mono (by omega) (by omega), rfl, rfl⟩
          · simp only [List.length_cons]
            rw [if_neg (by omega), if_neg (by omega)]
            exact .both ⟨rfl, hbehind.tail.mono (by omega) (by omega), rfl, rfl⟩
        · rintro ⟨inner, behind⟩ ⟨rfl, hpos⟩
          simp only [List.length_cons, List.length_nil]
          rw [if_neg (by omega)]
          exact .second rfl

private theorem agree_readOpening {r r' : Reader} (h : r.Trailed n n' r') :
    Agree (Keeps (Reader.Trailed n n')) (fun y => y.2.ahead = []) (readOpening flags r)
      (readOpening flags r') := by
  obtain ⟨ahead, groups, names⟩ := r
  obtain ⟨ahead', _, _⟩ := r'
  obtain ⟨hahead, rfl, rfl⟩ := h
  have hskip := hahead.skip flags
  unfold readOpening
  dsimp only at hskip ⊢
  generalize skip flags ahead = u at hskip
  generalize skip flags ahead' = u' at hskip
  rw [← hskip.isLookaround_eq]
  split
  · exact .neither
  rcases hskip.uncons '?' (by decide) with ⟨t, t', rfl, rfl, ht⟩ | ⟨hs, hs'⟩
  · have hname {v v' : List Char} (hv : Trailed n n' v v') :
        Agree (Keeps (Reader.Trailed n n')) (fun y => y.2.ahead = [])
          ((readName ⟨ahead, groups, names⟩ v).map fun after =>
            (Opening.group flags (some groups), after))
          ((readName ⟨ahead', groups, names⟩ v').map fun after =>
            (Opening.group flags (some groups), after)) :=
      (agree_readName rfl rfl hv).map (fun _ _ hxy => ⟨rfl, hxy⟩) fun _ h => h.elim
    rcases ht.uncons_uncons 'P' '<' (by decide) (by decide) with
      ⟨v, v', rfl, rfl, hv⟩ | ⟨hnamed, hnamed'⟩
    · exact hname hv
    rcases ht.uncons '<' (by decide) with ⟨v, v', rfl, rfl, hv⟩ | ⟨hangle, hangle'⟩
    · exact hname hv
    simp only
    exact agree_flagged ht
  · split
    · exact absurd rfl (hs _)
    · exact absurd rfl (hs _)
    · exact absurd rfl (hs _)
    · split
      · exact absurd rfl (hs' _)
      · exact absurd rfl (hs' _)
      · exact absurd rfl (hs' _)
      · exact .both ⟨rfl, hskip, rfl, rfl⟩

/-! ## Alternatives -/

section Alternatives

variable {t t' : List Char} {fuel fuel' groups : Nat} {branches parts : List Part}
  {names : List (List Char)}

abbrev AgreeAlternatives (n n' : Nat) : Option (Part × Reader) → Option (Part × Reader) → Prop :=
  Agree (Keeps (Reader.Trailed n n')) fun y => y.2.ahead = []

/-- With so much fuel, alternatives are read alike from texts of at most so many characters. -/
def ReadAlike (n n' fuel fuel' : Nat) : Prop :=
  ∀ {s s' : List Char} {flags : Flags} {branches parts : List Part} {groups : Nat}
    {names : List (List Char)}, Trailed n n' s s' →
    AgreeAlternatives n n' (readAlternatives fuel flags branches parts ⟨s, groups, names⟩)
      (readAlternatives fuel' flags branches parts ⟨s', groups, names⟩)

theorem readAlternatives_nil :
    readAlternatives (fuel + 1) flags branches parts ⟨[], groups, names⟩ =
      some (.choice (.sequence parts.reverse :: branches).reverse, ⟨[], groups, names⟩) := by
  rw [readAlternatives, skip_nil]

private theorem agreeAlternatives_nil (hfuel : 0 < fuel) :
    AgreeAlternatives n n' none
      (readAlternatives fuel flags branches parts ⟨[], groups, names⟩) := by
  obtain ⟨fuel, rfl⟩ : ∃ k, fuel = k + 1 := ⟨fuel - 1, by omega⟩
  rw [readAlternatives_nil]
  exact .second rfl

private theorem readAlternatives_brace (h : skip flags s = [')']) :
    readAlternatives fuel flags branches parts ⟨'\x7b' :: s, groups, names⟩ = none := by
  have hbounds : readBounds flags s = none := by
    rw [readBounds, h]
    rfl
  cases fuel with
  | zero => rfl
  | succ fuel =>
      rw [readAlternatives, skip_cons flags s (by decide) (by decide)]
      simp only
      rw [hbounds]
      rfl

namespace ReadAlike

private theorem operator (h : ReadAlike n n' fuel fuel') (ht : Trailed n n' t t') (min : Nat)
    (max : Option Nat) :
    AgreeAlternatives n n'
      (do
        let (greedy, ahead) := readGreed flags t
        let parts ← repeatLast? min max greedy parts
        readAlternatives fuel flags branches parts ⟨ahead, groups, names⟩)
      (do
        let (greedy, ahead) := readGreed flags t'
        let parts ← repeatLast? min max greedy parts
        readAlternatives fuel' flags branches parts ⟨ahead, groups, names⟩) := by
  have hgreed : Keeps (Trailed n n') (readGreed flags t) (readGreed flags t') := by
    unfold readGreed
    rcases ht.uncons '?' (by decide) with ⟨u, u', rfl, rfl, hu⟩ | ⟨hs, hs'⟩
    · exact ⟨rfl, hu⟩
    · simp only
      exact ⟨rfl, ht⟩
  generalize readGreed flags t = x at hgreed
  generalize readGreed flags t' = y at hgreed
  obtain ⟨greedy, rest⟩ := x
  obtain ⟨_, rest'⟩ := y
  obtain ⟨rfl, hrest⟩ := hgreed
  dsimp only
  cases repeatLast? min max greedy parts with
  | none => exact .neither
  | some parts => exact h hrest

private theorem group (h : ReadAlike n n' fuel fuel') (hfuel : 0 < fuel') (ht : Trailed n n' t t')
    (hs : skip flags s = '(' :: t) (hs' : skip flags s' = '(' :: t') :
    AgreeAlternatives n n' (readAlternatives (fuel + 1) flags branches parts ⟨s, groups, names⟩)
      (readAlternatives (fuel' + 1) flags branches parts ⟨s', groups, names⟩) := by
  -- From behind the parenthesis that opens a group. The parenthesis behind the texts may close
  -- it, and then only the second text has a group.
  have hreader : Reader.Trailed n n' ⟨t, groups, names⟩ ⟨t', groups, names⟩ := ⟨ht, rfl, rfl⟩
  simp only [readAlternatives, hs, hs']
  refine (agree_readOpening hreader).bind ?_ ?_
  · rintro ⟨opening, v, groups, names⟩ ⟨_, v', _, _⟩ ⟨rfl, hv, rfl, rfl⟩
    cases opening with
    | directive flags => exact h hv
    | group inner number =>
        refine (h hv).bind ?_ ?_
        · rintro ⟨body, w, groups, names⟩ ⟨_, w', _, _⟩ ⟨rfl, hw, rfl, rfl⟩
          dsimp only at hw ⊢
          rcases hw.atEnd_or_cons with ⟨rfl, rfl | rfl⟩ | ⟨d, x, x', rfl, rfl, hx⟩
          · exact .neither
          · exact agreeAlternatives_nil hfuel
          · by_cases hd : d = ')'
            · subst hd
              exact h hx
            · simpa [hd] using .neither
        · rintro ⟨body, w, groups, names⟩ rfl
          exact .neither
  · rintro ⟨opening, v, groups, names⟩ rfl
    cases opening with
    | directive flags => exact agreeAlternatives_nil hfuel
    | group inner number =>
        obtain ⟨fuel', rfl⟩ : ∃ k, fuel' = k + 1 := ⟨fuel' - 1, by omega⟩
        dsimp only
        rw [readAlternatives_nil]
        exact .neither

private theorem bracket (h : ReadAlike n n' fuel fuel') (ht : Trailed n n' t t')
    (hs : skip flags s = '[' :: t) (hs' : skip flags s' = '[' :: t') :
    AgreeAlternatives n n' (readAlternatives (fuel + 1) flags branches parts ⟨s, groups, names⟩)
      (readAlternatives (fuel' + 1) flags branches parts ⟨s', groups, names⟩) := by
  have hstart : Keeps (Keeps (Trailed n n')) (readClassStart flags t) (readClassStart flags t') :=
    keeps_readClassStart ht
  simp only [readAlternatives, hs, hs']
  generalize readClassStart flags t = x at hstart
  generalize readClassStart flags t' = y at hstart
  obtain ⟨negated, start, rest⟩ := x
  obtain ⟨_, _, rest'⟩ := y
  obtain ⟨rfl, rfl, hrest⟩ := hstart
  refine (agree_readClass hrest (Nat.lt_succ_self _) (Nat.lt_succ_self _) none start).bind
    ?_ fun _ h => h.elim
  rintro ⟨set, depth, rest⟩ ⟨_, _, rest'⟩ ⟨rfl, rfl, hrest⟩
  dsimp only
  cases closeSet? flags negated set with
  | none => exact .neither
  | some set => exact h hrest

private theorem braces (h : ReadAlike n n' fuel fuel') (ht : Trailed n n' t t')
    (hs : skip flags s = '\x7b' :: t) (hs' : skip flags s' = '\x7b' :: t') :
    AgreeAlternatives n n' (readAlternatives (fuel + 1) flags branches parts ⟨s, groups, names⟩)
      (readAlternatives (fuel' + 1) flags branches parts ⟨s', groups, names⟩) := by
  simp only [readAlternatives, hs, hs']
  refine (agree_readBounds ht).bind ?_ fun _ h => h.elim
  rintro ⟨min, max, rest⟩ ⟨_, _, rest'⟩ ⟨rfl, rfl, hrest⟩
  exact h.operator (hrest.skip flags) min max

private theorem escape (h : ReadAlike n n' fuel fuel') (hfuel : 0 < fuel') (ht : Trailed n n' t t')
    (hs : skip flags s = '\\' :: t) (hs' : skip flags s' = '\\' :: t') :
    AgreeAlternatives n n' (readAlternatives (fuel + 1) flags branches parts ⟨s, groups, names⟩)
      (readAlternatives (fuel' + 1) flags branches parts ⟨s', groups, names⟩) := by
  simp only [readAlternatives, hs, hs']
  refine (agree_readEscape ht).bind ?_ ?_
  · rintro ⟨primitive, rest⟩ ⟨_, rest'⟩ ⟨rfl, hrest⟩
    exact h (hrest.mono (Nat.sub_le _ _) (Nat.sub_le _ _))
  · rintro ⟨primitive, rest⟩ (rfl | ⟨e, -, -, v, rfl, hv⟩)
    · exact agreeAlternatives_nil hfuel
    · dsimp only
      rw [readAlternatives_brace hv]
      exact .neither

private theorem first (h : ReadAlike n n' fuel fuel') (hfuel : 0 < fuel') (ht : Trailed n n' t t')
    {c : Char} (hs : skip flags s = c :: t) (hs' : skip flags s' = c :: t') :
    AgreeAlternatives (n + 1) (n' + 1)
      (readAlternatives (fuel + 1) flags branches parts ⟨s, groups, names⟩)
      (readAlternatives (fuel' + 1) flags branches parts ⟨s', groups, names⟩) := by
  have hwider {a b : Option (Part × Reader)} (hagree : AgreeAlternatives n n' a b) :
      AgreeAlternatives (n + 1) (n' + 1) a b :=
    hagree.imp (fun _ _ hxy => ⟨hxy.1, hxy.2.1.step, hxy.2.2⟩) fun _ hy => hy
  by_cases hopen : c = '('
  · subst hopen
    exact hwider (h.group hfuel ht hs hs')
  by_cases hclass : c = '['
  · subst hclass
    exact hwider (h.bracket ht hs hs')
  by_cases hbrace : c = '\x7b'
  · subst hbrace
    exact hwider (h.braces ht hs hs')
  by_cases hescape : c = '\\'
  · subst hescape
    exact hwider (h.escape hfuel ht hs hs')
  simp only [readAlternatives, hs, hs']
  by_cases hclose : c = ')'
  · subst hclose
    exact .both ⟨rfl, .cons _ ht, rfl, rfl⟩
  refine hwider ?_
  by_cases hbar : c = '|'
  · subst hbar
    exact h ht
  by_cases hoptional : c = '?'
  · subst hoptional
    exact h.operator ht _ _
  by_cases hstar : c = '*'
  · subst hstar
    exact h.operator ht _ _
  by_cases hplus : c = '+'
  · subst hplus
    exact h.operator ht _ _
  by_cases hdot : c = '.'
  · subst hdot
    simp only
    cases dotExpression? flags with
    | none => exact .neither
    | some any => exact h ht
  by_cases hcaret : c = '^'
  · subst hcaret
    exact h ht
  by_cases hdollar : c = '$'
  · subst hdollar
    exact h ht
  simp only
  exact h ht

end ReadAlike

/-- The two readings of alternatives differ in nothing but the text left. -/
theorem agree_readAlternatives (h : Trailed n n' s s') (hfuel : s.length < fuel)
    (hfuel' : s'.length < fuel') :
    AgreeAlternatives n n' (readAlternatives fuel flags branches parts ⟨s, groups, names⟩)
      (readAlternatives fuel' flags branches parts ⟨s', groups, names⟩) := by
  induction fuel generalizing n n' s s' fuel' flags branches parts groups names with
  | zero => exact absurd hfuel (Nat.not_lt_zero _)
  | succ fuel ih =>
      obtain _ | fuel' := fuel'
      · exact absurd hfuel' (Nat.not_lt_zero _)
      have hs := length_skip_le flags s
      have hs' := length_skip_le flags s'
      have hskip := h.skip flags
      generalize hu : skip flags s = u at hs hskip
      generalize hu' : skip flags s' = u' at hs' hskip
      cases hskip with
      | ended =>
          simp only [readAlternatives, hu, hu']
          exact .both ⟨rfl, .ended, rfl, rfl⟩
      | closed =>
          simp only [readAlternatives, hu, hu']
          exact .both ⟨rfl, .closed, rfl, rfl⟩
      | @cons n n' t t' c ht =>
          simp only [List.length_cons] at hs hs'
          have htrailed := ht.length_le
          have halike : ReadAlike t.length t'.length fuel fuel' := by
            intro v v' flags branches parts groups names hv
            have hlength := hv.length_le
            exact ih hv (by omega) (by omega)
          refine (halike.first (by omega) ht.self hu hu').imp (fun _ _ hxy => ?_) fun _ hy => hy
          exact ⟨hxy.1, hxy.2.1.mono (by omega) (by omega), hxy.2.2⟩

end Alternatives

end TextGrammar.Regex
