import TextGrammar.Proofs.Escape.Decoding
import TextGrammar.Proofs.Text.Trimming
import TextGrammar.Token.Reader

/-!
# The grammar of token text

What a text has to look like for it to be a token, and which token it is then.  The grammar knows
nothing of engines: it says what a string literal is by its units, and what a parameter block is by
its items.
-/

namespace TextGrammar

open Text Escape

/-- A unit is a plain character, a backslash with a code, or `\u` with any four characters. -/
inductive LiteralBody : List Char → Prop
  | nil : LiteralBody []
  | plain {c : Char} {rest : List Char} (hquote : c ≠ '"') (htrigger : c ≠ '\\')
      (hrest : LiteralBody rest) : LiteralBody (c :: rest)
  | code {c : Char} {rest : List Char} (hcode : c ≠ 'u') (hrest : LiteralBody rest) :
      LiteralBody ('\\' :: c :: rest)
  | codePoint (a b c d : Char) {rest : List Char} (hrest : LiteralBody rest) :
      LiteralBody ('\\' :: 'u' :: a :: b :: c :: d :: rest)

mutual

/-- The text of a token, with blanks around it and behind its name. -/
inductive TokenText : List Char → Token → Prop
  | intro {front behind back block : List Char} {name : TokenName} {elements : List Element}
      (hfront : IsBlankText front) (hbehind : IsBlankText behind) (hback : IsBlankText back)
      (hblock : BlockText block elements) :
      TokenText (front ++ '@' :: name.text.toList ++ behind ++ '(' :: block ++ ')' :: back)
        ⟨name, elements⟩

/-- The text between the parentheses, and the elements for it. -/
inductive BlockText : List Char → List Element → Prop
  | last {front item back : List Char} {elements : List Element} (hfront : IsBlankText front)
      (hback : IsBlankText back) (hitem : ItemText item elements) :
      BlockText (front ++ item ++ back) elements
  | cons {front item back rest : List Char} {elements more : List Element}
      (hfront : IsBlankText front) (hback : IsBlankText back) (hitem : ItemText item elements)
      (hrest : BlockText rest more) :
      BlockText (front ++ item ++ back ++ ',' :: rest) (elements ++ more)

inductive ItemText : List Char → List Element → Prop
  | empty : ItemText [] []
  | null : ItemText ['n', 'u', 'l', 'l'] []
  | token {text : List Char} {t : Token} (h : TokenText text t) : ItemText text [t.toElement]
  | literal {body : List Char} (h : LiteralBody body) :
      ItemText ('"' :: body ++ ['"']) [.text (String.ofList (decode .standard body))]

end

namespace LiteralBody

theorem not_quote {rest : List Char} : ¬LiteralBody ('"' :: rest) := by
  intro h
  cases h with
  | plain hquote _ _ => exact hquote rfl

theorem not_trigger : ¬LiteralBody ['\\'] := by
  intro h
  cases h with
  | plain _ htrigger _ => exact htrigger rfl

theorem not_unfinished {digits : List Char} (h : digits.length < 4) :
    ¬LiteralBody ('\\' :: 'u' :: digits) := by
  intro hbody
  cases hbody with
  | plain _ htrigger _ => exact htrigger rfl
  | code hcode _ => exact hcode rfl
  | codePoint a b c d _ =>
      simp only [List.length_cons] at h
      omega

theorem plain_iff {c : Char} {rest : List Char} (hquote : c ≠ '"') (htrigger : c ≠ '\\') :
    LiteralBody (c :: rest) ↔ LiteralBody rest := by
  refine ⟨fun h => ?_, .plain hquote htrigger⟩
  cases h with
  | plain _ _ hrest => exact hrest
  | code _ _ => exact absurd rfl htrigger
  | codePoint _ _ _ _ _ => exact absurd rfl htrigger

theorem code_iff {c : Char} {rest : List Char} (hcode : c ≠ 'u') :
    LiteralBody ('\\' :: c :: rest) ↔ LiteralBody rest := by
  refine ⟨fun h => ?_, .code hcode⟩
  cases h with
  | plain _ htrigger _ => exact absurd rfl htrigger
  | code _ hrest => exact hrest
  | codePoint _ _ _ _ _ => exact absurd rfl hcode

theorem codePoint_iff {a b c d : Char} {rest : List Char} :
    LiteralBody ('\\' :: 'u' :: a :: b :: c :: d :: rest) ↔ LiteralBody rest := by
  refine ⟨fun h => ?_, .codePoint a b c d⟩
  cases h with
  | plain _ htrigger _ => exact absurd rfl htrigger
  | code hcode _ => exact absurd rfl hcode
  | codePoint _ _ _ _ hrest => exact hrest

end LiteralBody

@[simp] theorem standard_trigger : Format.standard.trigger = some '\\' := rfl

@[simp] theorem standard_unicodeCode : Format.standard.unicodeCode = 'u' := rfl

section Check

variable {e : Engine} (hformat : e.format = .standard) (hphase : e.phase = .plain)

include hformat hphase

private theorem isLiteralBody_plain {c : Char} (hquote : c ≠ '"') (htrigger : c ≠ '\\')
    (rest : List Char) :
    isLiteralBody e (c :: rest) = isLiteralBody ({ e with prevEscaped := false }.track c) rest := by
  have hstep : e.consider c = _ :=
    Engine.consider_plain hphase (by simpa [hformat] using htrigger.symm)
  simp [isLiteralBody, hstep, hquote]

private theorem isLiteralBody_quote (rest : List Char) : isLiteralBody e ('"' :: rest) = false := by
  have hstep : e.consider '"' = _ := Engine.consider_plain hphase (by simp [hformat])
  simp [isLiteralBody, hstep]

private theorem isLiteralBody_trigger : isLiteralBody e ['\\'] = false := by
  have hstep : e.consider '\\' = _ := Engine.consider_trigger hphase (by simp [hformat])
  simp [isLiteralBody, hstep, Engine.inEscape]

private theorem isLiteralBody_code {c : Char} (hcode : c ≠ 'u') (rest : List Char) :
    isLiteralBody e ('\\' :: c :: rest) =
      isLiteralBody { e with phase := .plain, prevEscaped := true } rest := by
  simp [isLiteralBody, Engine.consider, hformat, hphase, hcode]

private theorem isLiteralBody_codePoint (hpending : e.pending = []) (a b c d : Char)
    (rest : List Char) : isLiteralBody e ('\\' :: 'u' :: a :: b :: c :: d :: rest) =
      isLiteralBody { e with phase := .plain, prevEscaped := true, pending := [] } rest := by
  simp [isLiteralBody, Engine.consider, hformat, hphase, hpending]

private theorem isLiteralBody_unfinished (hpending : e.pending = []) {digits : List Char}
    (h : digits.length < 4) : isLiteralBody e ('\\' :: 'u' :: digits) = false := by
  match digits, h with
  | [], _ | [_], _ | [_, _], _ | [_, _, _], _ =>
      simp [isLiteralBody, Engine.consider, hformat, hphase, hpending, Engine.inEscape]

end Check

theorem isLiteralBody_iff {e : Engine} (hformat : e.format = .standard) (hphase : e.phase = .plain)
    (hpending : e.pending = []) : ∀ body, isLiteralBody e body = true ↔ LiteralBody body
  | [] => by simp [isLiteralBody, Engine.inEscape, hphase, LiteralBody.nil]
  | c :: rest => by
      by_cases hquote : c = '"'
      · subst hquote
        simp [isLiteralBody_quote hformat hphase, LiteralBody.not_quote]
      by_cases htrigger : c = '\\'
      · subst htrigger
        match rest with
        | [] => simp [isLiteralBody_trigger hformat hphase, LiteralBody.not_trigger]
        | code :: rest =>
            by_cases hcode : code = 'u'
            · subst hcode
              match rest with
              | [] | [_] | [_, _] | [_, _, _] =>
                  rw [isLiteralBody_unfinished hformat hphase hpending (by simp)]
                  simp [LiteralBody.not_unfinished]
              | a :: b :: c :: d :: rest =>
                  rw [isLiteralBody_codePoint hformat hphase hpending, LiteralBody.codePoint_iff]
                  apply isLiteralBody_iff
                  · exact hformat
                  · rfl
                  · rfl
            · rw [isLiteralBody_code hformat hphase hcode, LiteralBody.code_iff hcode]
              apply isLiteralBody_iff
              · exact hformat
              · rfl
              · exact hpending
      · rw [isLiteralBody_plain hformat hphase hquote htrigger,
          LiteralBody.plain_iff hquote htrigger]
        apply isLiteralBody_iff
        · simpa using hformat
        · simpa using hphase
        · simpa using hpending
termination_by body => body.length

end TextGrammar
