import TextGrammar.Text.Character

/-!
# Trimming

Trimming cuts a text into blanks, a text without blanks at its ends, and blanks again; there is
one such text in the middle.
-/

namespace TextGrammar.Text

def IsBlankText (text : List Char) : Prop := ∀ c ∈ text, isBlank c = true

@[simp] theorem isBlankText_nil : IsBlankText [] := by simp [IsBlankText]

theorem isBlankText_singleton {c : Char} (h : isBlank c = true) : IsBlankText [c] := by
  intro d hd
  obtain rfl := List.mem_singleton.1 hd
  exact h

theorem IsBlankText.append {a b : List Char} (ha : IsBlankText a) (hb : IsBlankText b) :
    IsBlankText (a ++ b) := by
  intro c hc
  exact (List.mem_append.1 hc).elim (ha c) (hb c)

theorem IsBlankText.reverse {a : List Char} (h : IsBlankText a) : IsBlankText a.reverse :=
  fun c hc => h c (List.mem_reverse.1 hc)

structure IsTight (text : List Char) : Prop where
  head : ∀ c, text.head? = some c → isBlank c = false
  last : ∀ c, text.getLast? = some c → isBlank c = false

theorem IsTight.cons {c : Char} {text : List Char} (hc : isBlank c = false) (h : IsTight text) :
    IsTight (c :: text) := by
  constructor
  · intro d hd
    cases hd
    exact hc
  · intro d hd
    rw [List.getLast?_cons, Option.some.injEq] at hd
    cases hlast : text.getLast? with
    | none =>
        rw [hlast] at hd
        exact hd ▸ hc
    | some last =>
        rw [hlast] at hd
        exact hd ▸ h.last last hlast

theorem isTight_between {c d : Char} (hc : isBlank c = false) (hd : isBlank d = false)
    (text : List Char) : IsTight (c :: text ++ [d]) := by
  constructor
  · intro b hb
    cases hb
    exact hc
  · intro b hb
    rw [List.getLast?_concat] at hb
    cases hb
    exact hd

theorem trimStart_append {front : List Char} (h : IsBlankText front) (text : List Char) :
    trimStart (front ++ text) = trimStart text :=
  List.dropWhile_append_of_pos h

theorem trimStart_eq_nil {text : List Char} (h : IsBlankText text) : trimStart text = [] := by
  simpa [trimStart] using trimStart_append h []

theorem trimStart_eq_self {text : List Char} (h : ∀ c, text.head? = some c → isBlank c = false) :
    trimStart text = text := by
  cases text with
  | nil => rfl
  | cons c cs =>
      have hc := h c rfl
      simp [trimStart, hc]

private theorem head?_trimStart {text : List Char} {c : Char}
    (h : (trimStart text).head? = some c) : isBlank c = false := by
  induction text with
  | nil => simp [trimStart] at h
  | cons d text ih =>
      cases hd : isBlank d with
      | true =>
          simp only [trimStart, List.dropWhile_cons, hd] at h
          exact ih h
      | false =>
          simp only [trimStart, List.dropWhile_cons, hd] at h
          cases h
          exact hd

theorem exists_eq_append_trimStart (text : List Char) :
    ∃ front, IsBlankText front ∧ text = front ++ trimStart text := by
  refine ⟨text.takeWhile isBlank, ?_, List.takeWhile_append_dropWhile.symm⟩
  intro c hc
  exact List.all_eq_true.1 List.all_takeWhile c hc

private theorem trimEnd_append {text back : List Char} (hback : IsBlankText back)
    (h : ∀ c, text.getLast? = some c → isBlank c = false) : trimEnd (text ++ back) = text := by
  rw [trimEnd, List.reverse_append, trimStart_append hback.reverse]
  rw [trimStart_eq_self (by simpa only [List.head?_reverse] using h), List.reverse_reverse]

private theorem getLast?_trimEnd {text : List Char} {c : Char}
    (h : (trimEnd text).getLast? = some c) : isBlank c = false := by
  rw [trimEnd, List.getLast?_reverse] at h
  exact head?_trimStart h

private theorem exists_eq_trimEnd_append (text : List Char) :
    ∃ back, IsBlankText back ∧ text = trimEnd text ++ back := by
  obtain ⟨back, hback, hrest⟩ := exists_eq_append_trimStart text.reverse
  refine ⟨back.reverse, hback.reverse, ?_⟩
  rw [trimEnd, ← List.reverse_append, ← hrest, List.reverse_reverse]

theorem trim_pad {front text back : List Char} (hfront : IsBlankText front)
    (hback : IsBlankText back) (htext : IsTight text) : trim (front ++ text ++ back) = text := by
  rw [trim, List.append_assoc, trimStart_append hfront]
  cases text with
  | nil =>
      rw [List.nil_append, trimStart_eq_nil hback]
      rfl
  | cons c cs =>
      have hstart : trimStart (c :: cs ++ back) = c :: cs ++ back :=
        trimStart_eq_self (by simpa using htext.head)
      rw [hstart]
      exact trimEnd_append hback htext.last

theorem exists_eq_pad_trim (text : List Char) :
    ∃ front back, IsBlankText front ∧ IsBlankText back ∧ text = front ++ trim text ++ back := by
  obtain ⟨front, hfront, htext⟩ := exists_eq_append_trimStart text
  obtain ⟨back, hback, hrest⟩ := exists_eq_trimEnd_append (trimStart text)
  refine ⟨front, back, hfront, hback, ?_⟩
  rw [trim, List.append_assoc, ← hrest, ← htext]

private theorem isTight_trim (text : List Char) : IsTight (trim text) := by
  constructor
  · intro c hc
    obtain ⟨back, -, hrest⟩ := exists_eq_trimEnd_append (trimStart text)
    have hhead : (trimStart text).head? = some c := by
      rw [hrest, List.head?_append]
      simpa using .inl hc
    exact head?_trimStart hhead
  · exact fun c hc => getLast?_trimEnd hc

theorem isTight_of_trim_eq {text : List Char} (h : trim text = text) : IsTight text :=
  h ▸ isTight_trim text

end TextGrammar.Text
