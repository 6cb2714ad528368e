import Mathlib.Data.List.Forall2
import TextGrammar.Proofs.Token.RoundTrip

/-!
# Reading one token after another

Reading a token takes its text up to the closing parenthesis and leaves what follows untouched.  So
the tokens of a text are those of the pieces that it is put together from, each of which is the text
of one token.
-/

namespace TextGrammar

open Text

namespace Token

private theorem hasNext_eq_false_iff {text : List Char} :
    hasNext text = false ↔ IsBlankText text := by
  simp [hasNext, IsBlankText]

/-- A token ends with its closing parenthesis: what is read up to there is the same whatever
follows, and all that follows is left. -/
private theorem exists_body_of_first {text : List Char} {t : Token} (h : first text = .ok t) :
    ∃ body, text = body ++ ')' :: rest text ∧ 2 ≤ body.length ∧
      ∀ more, first (body ++ ')' :: more) = .ok t ∧ rest (body ++ ')' :: more) = more := by
  obtain ⟨front, behind, block, hfront, hbehind, hblock, htext⟩ :=
    parts_of_first h fun _ _ _ => TokenText.of_parse
  refine ⟨_, htext, ?_, first_of_block t.name hfront hbehind hblock hblock.reads⟩
  simp only [List.length_append, List.length_cons]
  omega

end Token

namespace TokenText

variable {text : List Char} {t : Token}

private theorem blank_append {front : List Char} (hfront : IsBlankText front)
    (h : TokenText text t) : TokenText (front ++ text) t := by
  cases h with
  | intro hinner hbehind hback hblock =>
      simpa using TokenText.intro (hfront.append hinner) hbehind hback hblock

private theorem hasNext_append (h : TokenText text t) (more : List Char) :
    Token.hasNext (text ++ more) = true := by
  cases h with
  | intro hinner hbehind hback hblock =>
      rw [Token.hasNext, List.any_eq_true]
      exact ⟨'@', by simp, by decide⟩

end TokenText

namespace Token

/-- The tokens that reading one after another yields, and the text it leaves.  It ends where only
blanks are left, or behind the first error. -/
inductive Yields : List Char → List (Except TokenError Token) → List Char → Prop
  | done {text : List Char} (h : hasNext text = false) : Yields text [] text
  | failed {text : List Char} {e : TokenError} (h : hasNext text = true)
      (hfirst : first text = .error e) : Yields text [.error e] (rest text)
  | token {text left : List Char} {t : Token} {items : List (Except TokenError Token)}
      (h : hasNext text = true) (hfirst : first text = .ok t)
      (hrest : Yields (rest text) items left) : Yields text (.ok t :: items) left

theorem length_rest_add_three_le {text : List Char} {t : Token} (h : first text = .ok t) :
    (rest text).length + 3 ≤ text.length := by
  obtain ⟨body, htext, hbody, -⟩ := exists_body_of_first h
  have hlength := congrArg List.length htext
  rw [List.length_append, List.length_cons] at hlength
  omega

private theorem hasNext_eq_false_of_length {text : List Char} (h : text.length ≤ 0) :
    hasNext text = false := by
  obtain rfl := List.length_eq_zero_iff.1 (Nat.le_zero.1 h)
  rfl

private theorem yields_readUpTo {n : Nat} {text : List Char} (h : text.length ≤ n) :
    Yields text (readUpTo n text).1 (readUpTo n text).2 := by
  -- By induction on the number: every token makes the text shorter.
  induction n generalizing text with
  | zero => exact .done (hasNext_eq_false_of_length h)
  | succ n ih =>
      cases hnext : hasNext text with
      | false => simpa [readUpTo, hnext] using Yields.done hnext
      | true =>
          cases hfirst : first text with
          | error e => simpa [readUpTo, hnext, hfirst] using Yields.failed hnext hfirst
          | ok t =>
              have hshorter := length_rest_add_three_le hfirst
              have hrest : Yields (rest text) _ _ := ih (by omega)
              simpa [readUpTo, hnext, hfirst] using Yields.token hnext hfirst hrest

theorem Yields.readUpTo_eq {text left : List Char} {items : List (Except TokenError Token)}
    (h : Yields text items left) {n : Nat} (hn : text.length ≤ n) :
    readUpTo n text = (items, left) := by
  induction h generalizing n with
  | done hnext => cases n <;> simp [readUpTo, hnext]
  | failed hnext hfirst =>
      cases n with
      | zero => exact absurd (hasNext_eq_false_of_length hn) (by simp [hnext])
      | succ n => simp [readUpTo, hnext, hfirst]
  | token hnext hfirst hrest ih =>
      cases n with
      | zero => exact absurd (hasNext_eq_false_of_length hn) (by simp [hnext])
      | succ n =>
          have hshorter := length_rest_add_three_le hfirst
          simp [readUpTo, hnext, hfirst, ih (n := n) (by omega)]

theorem readAll_eq_iff {text left : List Char} {items : List (Except TokenError Token)} :
    readAll text = (items, left) ↔ Yields text items left := by
  constructor
  · intro h
    have hyields := yields_readUpTo (Nat.le_refl text.length)
    rw [readAll] at h
    rwa [h] at hyields
  · intro h
    exact h.readUpTo_eq (Nat.le_refl _)

theorem Yields.nil_iff {text left : List Char} :
    Yields text [] left ↔ left = text ∧ IsBlankText text := by
  rw [← hasNext_eq_false_iff]
  constructor
  · rintro (_ | _ | _)
    exact ⟨rfl, ‹_›⟩
  · rintro ⟨rfl, h⟩
    exact .done h

theorem Yields.isBlankText {text left : List Char} {ts : List Token}
    (h : Yields text (ts.map .ok) left) : IsBlankText left := by
  induction ts generalizing text with
  | nil =>
      obtain ⟨rfl, hblank⟩ := Yields.nil_iff.1 h
      exact hblank
  | cons t ts ih =>
      cases h with
      | token hnext hfirst hrest => exact ih hrest

def IsTextOf (text : List Char) (ts : List Token) : Prop :=
  ts = [] ∧ IsBlankText text ∨ ∃ pieces : List (List Char), text = pieces.flatten ∧
    List.Forall₂ (fun piece t => parse piece = .ok t) pieces ts

private theorem isTextOf_of_yields {text left : List Char} {ts : List Token}
    (h : Yields text (ts.map .ok) left) : IsTextOf text ts := by
  induction ts generalizing text with
  | nil => exact .inl ⟨rfl, (Yields.nil_iff.1 h).2⟩
  | cons t ts ih =>
      cases h with
      | token hnext hfirst hrest =>
          obtain ⟨body, htext, -, hread⟩ := exists_body_of_first hfirst
          have hparse : ∀ back, IsBlankText back → parse (body ++ ')' :: back) = .ok t := by
            intro back hback
            obtain ⟨hfirst, hleft⟩ := hread back
            exact parse_eq_ok_iff.2 ⟨hfirst, hleft.symm ▸ hback⟩
          rcases ih hrest with ⟨rfl, hblank⟩ | ⟨pieces, hpieces, htokens⟩
          · -- Blanks behind the last token belong to its piece.
            have hpiece := hparse _ hblank
            rw [← htext] at hpiece
            exact .inr ⟨[text], by simp, .cons hpiece .nil⟩
          · have hpiece := hparse [] isBlankText_nil
            refine .inr ⟨(body ++ [')']) :: pieces, ?_, .cons hpiece htokens⟩
            rw [htext, hpieces, List.flatten_cons, List.append_assoc, List.singleton_append]

private theorem yields_of_pieces {pieces : List (List Char)} {ts : List Token}
    (h : List.Forall₂ (fun piece t => parse piece = .ok t) pieces ts) :
    ∀ front, IsBlankText front →
      ∃ left, Yields (front ++ pieces.flatten) (ts.map .ok) left := by
  -- By induction on the pieces; blanks behind one token are blanks in front of the next.
  induction h with
  | nil =>
      intro front hfront
      exact ⟨_, Yields.nil_iff.2 ⟨rfl, by simpa using hfront⟩⟩
  | @cons piece t pieces ts hparse _ ih =>
      intro front hfront
      have htoken := (TokenText.of_parse hparse).blank_append hfront
      obtain ⟨hfirst, hback⟩ := parse_eq_ok_iff.1 htoken.parse
      obtain ⟨body, hbody, -, hread⟩ := exists_body_of_first hfirst
      obtain ⟨left, hleft⟩ := ih (rest (front ++ piece)) hback
      generalize rest (front ++ piece) = back at *
      have htext : front ++ (piece :: pieces).flatten =
          body ++ ')' :: (back ++ pieces.flatten) := by
        rw [List.flatten_cons, ← List.append_assoc, hbody, List.append_assoc, List.cons_append]
      have hnext := htoken.hasNext_append pieces.flatten
      rw [List.append_assoc, ← List.flatten_cons, htext] at hnext
      obtain ⟨hfirst, hrest⟩ := hread (back ++ pieces.flatten)
      rw [← hrest] at hleft
      rw [htext]
      exact ⟨left, .token hnext hfirst hleft⟩

private theorem exists_yields_of_isTextOf {text : List Char} {ts : List Token}
    (h : IsTextOf text ts) : ∃ left, Yields text (ts.map .ok) left := by
  rcases h with ⟨rfl, hblank⟩ | ⟨pieces, rfl, hpieces⟩
  · exact ⟨text, Yields.nil_iff.2 ⟨rfl, hblank⟩⟩
  · exact yields_of_pieces hpieces [] isBlankText_nil

private theorem yields_of_readAll {text : List Char} {ts : List Token}
    (h : (readAll text).1 = ts.map .ok) : Yields text (ts.map .ok) (readAll text).2 := by
  rw [← readAll_eq_iff, ← h]

/-- Reading all tokens yields these and no error exactly when the text is put together from texts
of these tokens; then nothing but blanks is left.  What stands behind the closing parenthesis of a
token has no part in reading it, and all of it is left. -/
theorem readAll_yields_tokens_of_pieces (text : List Char) (ts : List Token) :
    ((readAll text).1 = ts.map .ok ↔ IsTextOf text ts) ∧
    ((readAll text).1 = ts.map .ok →
      hasNext (readAll text).2 = false ∧ finish (readAll text).2 = .ok ()) ∧
    ∀ t, first text = .ok t → ∃ body, text = body ++ ')' :: rest text ∧
      ∀ more, first (body ++ ')' :: more) = .ok t ∧ rest (body ++ ')' :: more) = more := by
  refine ⟨⟨fun h => isTextOf_of_yields (yields_of_readAll h), fun h => ?_⟩, fun h => ?_,
    fun t h => ?_⟩
  · obtain ⟨left, hleft⟩ := exists_yields_of_isTextOf h
    rw [readAll_eq_iff.2 hleft]
  · have hblank := (yields_of_readAll h).isBlankText
    exact ⟨hasNext_eq_false_iff.2 hblank, finish_eq_ok_iff.2 hblank⟩
  · obtain ⟨body, htext, -, hread⟩ := exists_body_of_first h
    exact ⟨body, htext, hread⟩

/-- Two tokens in different layouts with nothing between them. -/
theorem readAll_yields_tokens_of_pieces_adjacent :
    let name : TokenName := ⟨"a", by decide⟩
    let inner : Token := ⟨name, [.text "(\")"]⟩
    let outer : Token := ⟨name, [inner.toElement, .text ","]⟩
    let text := outer.writeLong ++ inner.write
    (readAll text).1 = [.ok outer, .ok inner] ∧ finish (readAll text).2 = .ok () ∧
      ∃ body, text = body ++ ')' :: inner.write ∧
        ∀ more, first (body ++ ')' :: more) = .ok outer := by
  intro name inner outer text
  obtain ⟨hpieces, hleft, hlocal⟩ := readAll_yields_tokens_of_pieces text [outer, inner]
  have houter := (tokenText_writeLong outer).parse
  have hinner := (tokenText_write inner).parse
  have hread := hpieces.2 (.inr ⟨[outer.writeLong, inner.write], by simp [text],
    .cons houter (.cons hinner .nil)⟩)
  refine ⟨hread, (hleft hread).2, ?_⟩
  have hyields : Yields text ([outer, inner].map .ok) _ := yields_of_readAll hread
  cases hyields with
  | token hnext hfirst hrest =>
      obtain ⟨body, htext, hmore⟩ := hlocal outer hfirst
      have hbehind : rest text = inner.write := by decide
      exact ⟨body, hbehind ▸ htext, fun more => (hmore more).1⟩

end Token

end TextGrammar
