import TextGrammar.Proofs.Regex.Reading

/-!
# Reading classes in front of a parenthesis

Inside of brackets a parenthesis is a character like others.  A class that a pattern does not close
is not closed by a parenthesis behind the pattern either, so both readings of a class fail
together.
-/

namespace TextGrammar.Regex

variable {n n' : Nat} {s s' : List Char} {flags : Flags}

private theorem readClassPrimitive_cons {c : Char} {cs : List Char} (hc : c ≠ '\\') :
    readClassPrimitive flags (c :: cs) = some (.char c, cs) := by
  simp [readClassPrimitive]

private theorem agree_readClassPrimitive (h : Trailed n n' s s') :
    Agree (Keeps (Trailed (n - 1) (n' - 1))) (EscapeAlone flags) (readClassPrimitive flags s)
      (readClassPrimitive flags s') := by
  rcases h.uncons '\\' (by decide) with ⟨s, s', rfl, rfl, hbehind⟩ | ⟨hs, hs'⟩
  · exact agree_readEscape hbehind
  · cases h with
    | ended => exact .neither
    | closed => exact .second (.inl rfl)
    | cons c h =>
        have hc : c ≠ '\\' := fun hc => hs _ (by rw [hc])
        rw [readClassPrimitive_cons hc, readClassPrimitive_cons hc]
        exact .both ⟨rfl, h⟩

theorem Trailed.head?_eq_some_iff (h : Trailed n n' s s') {c : Char} (hc : c ≠ ')') :
    s.head? = some c ↔ s'.head? = some c := by
  cases h with
  | ended => exact Iff.rfl
  | closed => simp [hc.symm]
  | cons d h => exact Iff.rfl

private theorem agree_rangeEnd (h : Trailed n n' s s') (first : Primitive) :
    Agree (Keeps (Trailed (n - 1) (n' - 1))) (fun y => AtEnd y.2)
      (do
        let (second, rest) ← readClassPrimitive flags s
        let low ← classChar? flags first
        let high ← classChar? flags second
        if low ≤ high then some (CharSet.range low high, rest) else none)
      (do
        let (second, rest) ← readClassPrimitive flags s'
        let low ← classChar? flags first
        let high ← classChar? flags second
        if low ≤ high then some (CharSet.range low high, rest) else none) := by
  -- Behind the hyphen of a range. Where the parenthesis is escaped, nothing is left of the second
  -- text; a word boundary, which may leave a brace, ends no range.
  refine (agree_readClassPrimitive h).bind ?_ ?_
  · rintro ⟨second, rest⟩ ⟨_, rest'⟩ ⟨rfl, hrest⟩
    dsimp only
    cases classChar? flags first with
    | none => exact .neither
    | some low =>
        cases classChar? flags second with
        | none => exact .neither
        | some high =>
            simp only [Option.bind_eq_bind, Option.bind_some]
            split
            · exact .both ⟨rfl, hrest⟩
            · exact .neither
  · rintro ⟨second, rest⟩ hsecond
    dsimp only
    cases classChar? flags first with
    | none => exact .neither
    | some low =>
        rcases hsecond with rfl | ⟨e, rfl, -⟩
        · cases classChar? flags second with
          | none => exact .neither
          | some high =>
              simp only [Option.bind_eq_bind, Option.bind_some]
              split
              · exact .second (.inl rfl)
              · exact .neither
        · exact .neither

private theorem agree_readRange (h : Trailed n n' s s') :
    Agree (Keeps (Trailed (n - 1) (n' - 1))) (fun y => AtEnd y.2) (readRange flags s)
      (readRange flags s') := by
  unfold readRange
  refine (agree_readClassPrimitive h).bind ?_ ?_
  · rintro ⟨first, rest⟩ ⟨_, rest'⟩ ⟨rfl, hrest⟩
    have hskip := hrest.skip flags
    dsimp only at hskip ⊢
    generalize skip flags rest = u at hskip
    generalize skip flags rest' = u' at hskip
    rcases hskip.uncons '-' (by decide) with ⟨v, v', rfl, rfl, hbehind⟩ | ⟨hu, hu'⟩
    · have hskip' := hbehind.skip flags
      simp only
      generalize skip flags v = w at hskip'
      generalize skip flags v' = w' at hskip'
      simp only [← hskip'.head?_eq_some_iff (by decide : ']' ≠ ')'),
        ← hskip'.head?_eq_some_iff (by decide : '-' ≠ ')')]
      split
      · exact agree_value hskip _
      · refine (agree_rangeEnd hskip' first).imp (fun _ _ hxy => ⟨hxy.1, ?_⟩) fun _ hy => hy
        exact hxy.2.mono (Nat.sub_le _ _) (Nat.sub_le _ _)
    · rcases hskip.atEnd_or_cons with ⟨rfl, hend⟩ | ⟨c, t, t', rfl, rfl, -⟩
      · rcases hend with rfl | rfl
        · exact .neither
        · simp only
          cases primitiveSet? flags first with
          | none => exact .neither
          | some set => exact .second (.inr rfl)
      · simp only
        exact agree_value hskip _
  · rintro ⟨first, rest⟩ (rfl | ⟨e, rfl, -, t, rfl, -⟩)
    · dsimp only
      rw [skip_nil]
      exact .neither
    · dsimp only
      rw [skip_cons flags t (by decide) (by decide)]
      exact .neither

/-! ## Starts of classes -/

theorem Trailed.takeWhile_eq (h : Trailed n n' s s') {test : Char → Bool}
    (hne : s.dropWhile test ≠ []) : s.takeWhile test = s'.takeWhile test := by
  induction h with
  | ended => rfl
  | closed => exact absurd rfl hne
  | cons c h ih =>
      by_cases htest : test c = true
      · rw [List.dropWhile_cons_of_pos htest] at hne
        rw [List.takeWhile_cons_of_pos htest, List.takeWhile_cons_of_pos htest, ih hne]
      · rw [List.takeWhile_cons_of_neg htest, List.takeWhile_cons_of_neg htest]

private theorem agree_readNamedSet (h : Trailed n n' s s') :
    Agree (Keeps (Keeps (Trailed n n'))) Never (readNamedSet s) (readNamedSet s') := by
  unfold readNamedSet
  rcases h.uncons ':' (by decide) with ⟨s, s', rfl, rfl, hname⟩ | ⟨hs, hs'⟩
  · simp only [← hname.head?_eq_some_iff (by decide : '^' ≠ ')')]
    have hrest : Trailed n n' (if s.head? = some '^' then s.tail else s)
        (if s.head? = some '^' then s'.tail else s') := by
      split
      · exact hname.tail
      · exact hname
    generalize decide (s.head? = some '^') = negated
    generalize (if s.head? = some '^' then s.tail else s) = u at hrest
    generalize (if s.head? = some '^' then s'.tail else s') = u' at hrest
    have hdrop := hrest.dropWhile fun c => decide (c ≠ ':')
    have htake : u.dropWhile (fun c => decide (c ≠ ':')) ≠ [] →
        u.takeWhile (fun c => decide (c ≠ ':')) = u'.takeWhile fun c => decide (c ≠ ':') :=
      hrest.takeWhile_eq
    generalize u.dropWhile (fun c => decide (c ≠ ':')) = v at hdrop htake
    generalize u'.dropWhile (fun c => decide (c ≠ ':')) = v' at hdrop
    rcases hdrop.uncons ':' (by decide) with ⟨v, v', rfl, rfl, hbracket⟩ | ⟨hv, hv'⟩
    · rw [← htake (List.cons_ne_nil _ _)]
      rcases hbracket.uncons ']' (by decide) with ⟨w, w', rfl, rfl, hbehind⟩ | ⟨hw, hw'⟩
      · simp only
        cases CharSet.named? (String.ofList (u.takeWhile fun c => decide (c ≠ ':'))) with
        | none => exact .neither
        | some set => exact .both ⟨rfl, rfl, hbehind⟩
      · simpa [hw, hw'] using .neither
    · simpa [hv, hv'] using .neither
  · simp only
    exact .neither

private theorem readHyphens_eq_scan (flags : Flags) (set : CharSet) (fuel : Nat)
    (text : List Char) : readHyphens flags set fuel text =
      scan flags (fun set c => if c = '-' then some (set.union (.single '-')) else none)
        set fuel text := by
  fun_induction readHyphens flags set fuel text with
  | case1 => simp [scan]
  | case2 => simp_all [scan]
  | case3 set fuel text h => cases text <;> simp_all [scan]

theorem keeps_readClassStart (h : Trailed n n' s s') :
    Keeps (Keeps (Trailed n n')) (readClassStart flags s) (readClassStart flags s') := by
  unfold readClassStart
  have hskip := h.skip flags
  simp only
  generalize skip flags s = u at hskip
  generalize skip flags s' = u' at hskip
  simp only [← hskip.head?_eq_some_iff (by decide : '^' ≠ ')')]
  have hrest : Trailed n n' (if u.head? = some '^' then skip flags u.tail else u)
      (if u.head? = some '^' then skip flags u'.tail else u') := by
    split
    · exact hskip.tail.skip flags
    · exact hskip
  generalize decide (u.head? = some '^') = negated
  generalize (if u.head? = some '^' then skip flags u.tail else u) = v at hrest
  generalize (if u.head? = some '^' then skip flags u'.tail else u') = v' at hrest
  have hhyphens : Keeps (Trailed n n') (readHyphens flags .empty v.length v)
      (readHyphens flags .empty v'.length v') := by
    rw [readHyphens_eq_scan, readHyphens_eq_scan]
    exact keeps_scan (fun _ => rfl) hrest (Nat.le_refl _) (Nat.le_refl _) _
  generalize readHyphens flags .empty v.length v = x at hhyphens
  generalize readHyphens flags .empty v'.length v' = y at hhyphens
  obtain ⟨set, rest⟩ := x
  obtain ⟨_, rest'⟩ := y
  obtain ⟨rfl, hrest⟩ := hhyphens
  dsimp only at hrest ⊢
  simp only [← hrest.head?_eq_some_iff (by decide : ']' ≠ ')')]
  split
  · exact ⟨rfl, rfl, hrest.tail.skip flags⟩
  · exact ⟨rfl, rfl, hrest⟩

/-! ## Classes -/

private theorem readRange_parenthesis (flags : Flags) : readRange flags [')'] = none := by
  simp [readRange, readClassPrimitive, skip_nil]

theorem AtEnd.skip (h : AtEnd s) (flags : Flags) : AtEnd (skip flags s) := by
  rcases h with rfl | rfl
  · exact .inl (skip_nil flags)
  · exact .inr (skip_cons flags [] (by decide) (by decide))

private theorem readClass_atEnd {fuel : Nat} (h : AtEnd (skip flags s))
    (left : Option (SetOperation × CharSet)) (set : CharSet) :
    readClass flags fuel left set s = none := by
  cases fuel with
  | zero => rfl
  | succ fuel =>
      rcases h with h | h
      · rw [readClass, h]
      · rw [readClass, h]
        change (readRange flags [')']).bind _ = none
        rw [readRange_parenthesis]
        rfl

section Members

variable {t t' : List Char} {fuel fuel' : Nat}

abbrev AgreeMembers (n n' : Nat) :
    Option (CharSet × Nat × List Char) → Option (CharSet × Nat × List Char) → Prop :=
  Agree (Keeps (Keeps (Trailed n n'))) Never

def MembersAlike (flags : Flags) (n n' fuel fuel' : Nat) : Prop :=
  ∀ {s s' : List Char} (left : Option (SetOperation × CharSet)) (set : CharSet), Trailed n n' s s' →
    AgreeMembers n n' (readClass flags fuel left set s) (readClass flags fuel' left set s')

namespace MembersAlike

private theorem nested (h : MembersAlike flags n n' fuel fuel') (ht : Trailed n n' t t')
    (hs : skip flags s = '[' :: t) (hs' : skip flags s' = '[' :: t')
    (left : Option (SetOperation × CharSet)) (set : CharSet) :
    AgreeMembers n n' (readClass flags (fuel + 1) left set s)
      (readClass flags (fuel' + 1) left set s') := by
  have hnamed := agree_readNamedSet ht
  simp only [readClass, hs, hs']
  generalize readNamedSet t = x at hnamed
  generalize readNamedSet t' = y at hnamed
  cases hnamed with
  | @both x y hxy =>
      obtain ⟨negated, named, rest⟩ := x
      obtain ⟨_, _, rest'⟩ := y
      obtain ⟨rfl, rfl, hrest⟩ := hxy
      dsimp only
      cases closeSet? flags negated named with
      | none => exact .neither
      | some named => exact h left _ hrest
  | neither =>
      have hstart : Keeps (Keeps (Trailed n n')) (readClassStart flags t)
          (readClassStart flags t') := keeps_readClassStart ht
      simp only
      generalize readClassStart flags t = x at hstart
      generalize readClassStart flags t' = y at hstart
      obtain ⟨negated, start, rest⟩ := x
      obtain ⟨_, _, rest'⟩ := y
      obtain ⟨rfl, rfl, hrest⟩ := hstart
      refine (h none start hrest).bind ?_ fun _ h => h.elim
      rintro ⟨inner, depth, rest⟩ ⟨_, _, rest'⟩ ⟨rfl, rfl, hrest⟩
      dsimp only
      cases closeSet? flags negated inner with
      | none => exact .neither
      | some inner =>
          refine (h left _ hrest).bind ?_ fun _ h => h.elim
          rintro ⟨s, more, rest⟩ ⟨_, _, rest'⟩ ⟨rfl, rfl, hrest⟩
          exact .both ⟨rfl, rfl, hrest⟩
  | second h => exact h.elim

private theorem range (h : MembersAlike flags n n' fuel fuel') (ht : Trailed n n' t t') {c : Char}
    (left : Option (SetOperation × CharSet)) (set : CharSet) :
    AgreeMembers n n'
      (do
        let (member, rest) ← readRange flags (c :: t)
        readClass flags fuel left (set.union member) rest)
      (do
        let (member, rest) ← readRange flags (c :: t')
        readClass flags fuel' left (set.union member) rest) := by
  refine (agree_readRange (.cons c ht)).bind ?_ ?_
  · rintro ⟨member, rest⟩ ⟨_, rest'⟩ ⟨rfl, hrest⟩
    exact h left _ hrest
  · rintro ⟨member, rest⟩ hend
    dsimp only
    rw [readClass_atEnd (hend.skip flags)]
    exact .neither

private theorem first (h : MembersAlike flags n n' fuel fuel') (ht : Trailed n n' t t') {c : Char}
    (hs : skip flags s = c :: t) (hs' : skip flags s' = c :: t')
    (left : Option (SetOperation × CharSet)) (set : CharSet) :
    AgreeMembers n n' (readClass flags (fuel + 1) left set s)
      (readClass flags (fuel' + 1) left set s') := by
  -- operators on sets are a character that stands there twice
  have htwice (d : Char) (hd : d ≠ ')') :
      (c = d ∧ ∃ v v', t = d :: v ∧ t' = d :: v' ∧ Trailed n n' v v') ∨
        ((∀ v, c :: t ≠ d :: d :: v) ∧ ∀ v, c :: t' ≠ d :: d :: v) := by
    rcases ht.uncons d hd with ⟨v, v', hv, hv', hbehind⟩ | ⟨hne, hne'⟩
    · by_cases hc : c = d
      · exact .inl ⟨hc, v, v', hv, hv', hbehind⟩
      · exact .inr ⟨by simp [hc], by simp [hc]⟩
    · exact .inr ⟨by simp [hne], by simp [hne']⟩
  by_cases hopen : c = '['
  · subst hopen
    exact h.nested ht hs hs' left set
  simp only [readClass, hs, hs']
  by_cases hclose : c = ']'
  · subst hclose
    exact .both ⟨rfl, rfl, ht⟩
  rcases htwice '&' (by decide) with ⟨rfl, v, v', rfl, rfl, hv⟩ | ⟨hinter, hinter'⟩
  · exact h _ _ hv
  rcases htwice '-' (by decide) with ⟨rfl, v, v', rfl, rfl, hv⟩ | ⟨hdiff, hdiff'⟩
  · exact h _ _ hv
  rcases htwice '~' (by decide) with ⟨rfl, v, v', rfl, rfl, hv⟩ | ⟨hsymm, hsymm'⟩
  · exact h _ _ hv
  -- the branch for ranges takes the texts that no other branch fits
  have hother {d : Char} (hd : c ≠ d) (u : List Char) : ∀ v, c :: u ≠ d :: v := by simp [hd]
  have hcloses := hother hclose t
  have hcloses' := hother hclose t'
  have hopens := hother hopen t
  have hopens' := hother hopen t'
  simp only
  exact h.range ht left set

end MembersAlike

theorem agree_readClass (h : Trailed n n' s s') (hfuel : s.length < fuel)
    (hfuel' : s'.length < fuel') (left : Option (SetOperation × CharSet)) (set : CharSet) :
    AgreeMembers n n' (readClass flags fuel left set s) (readClass flags fuel' left set s') := by
  induction fuel generalizing n n' s s' fuel' left set with
  | zero => exact absurd hfuel (Nat.not_lt_zero _)
  | succ fuel ih =>
      obtain _ | fuel' := fuel'
      · exact absurd hfuel' (Nat.not_lt_zero _)
      have hs := length_skip_le flags s
      have hs' := length_skip_le flags s'
      have hskip := h.skip flags
      generalize hu : skip flags s = u at hs hskip
      generalize hu' : skip flags s' = u' at hs' hskip
      cases hskip with
      | ended =>
          rw [readClass_atEnd (.inl hu), readClass_atEnd (.inl hu')]
          exact .neither
      | closed =>
          rw [readClass_atEnd (.inl hu), readClass_atEnd (.inr hu')]
          exact .neither
      | @cons n n' t t' c ht =>
          simp only [List.length_cons] at hs hs'
          have htrailed := ht.length_le
          have halike : MembersAlike flags t.length t'.length fuel fuel' := by
            intro v v' left set hv
            have hlength := hv.length_le
            exact ih hv (by omega) (by omega) left set
          refine (halike.first ht.self hu hu' left set).imp (fun _ _ hxy => ?_) fun _ hy => hy
          exact ⟨hxy.1, hxy.2.1, hxy.2.2.mono (by omega) (by omega)⟩

end Members

end TextGrammar.Regex
