import TextGrammar.Proofs.Escape.Bounds
import TextGrammar.Proofs.Token.Sequence
import TextGrammar.Text.Offset

/-!
# Reading any text

Reading ends with a token or an error on every text.  That is not for want of ways to go wrong: the
parentheses are cut off a block by byte offsets, engines look up quotes and brackets by index, and
tokens nest.  Here each of these may have no answer, also nesting beyond a given depth, and the
reader never comes to that.
-/

namespace TextGrammar

open Text Escape Engine

/-- No answer, a text that is refused, or a result. -/
abbrev Checked := ExceptT TokenError Option

namespace Checked

variable {α β : Type}

def ofExcept (x : Except TokenError α) : Checked α := ExceptT.mk (some x)

def ofOption (x : Option α) : Checked α := ExceptT.mk (x.map .ok)

private theorem ofOption_some_bind (a : α) (f : α → Checked β) :
    (ofOption (some a) >>= f) = f a := rfl

private theorem bind_eq_ofExcept {x : Except TokenError α} {f : α → Except TokenError β}
    {g : α → Checked β} (h : ∀ a, x = .ok a → g a = ofExcept (f a)) :
    (ofExcept x >>= g) = ofExcept (x >>= f) := by
  cases x with
  | error e => rfl
  | ok a => exact h a rfl

private theorem mapM_eq_ofExcept {f : α → Except TokenError β} {g : α → Checked β} {as : List α}
    (h : ∀ a ∈ as, g a = ofExcept (f a)) : as.mapM g = ofExcept (as.mapM f) := by
  induction as with
  | nil => rfl
  | cons a as ih =>
      rw [List.mapM_cons, List.mapM_cons, h a (by simp)]
      refine bind_eq_ofExcept fun b _ => ?_
      rw [ih fun a ha => h a (by simp [ha])]
      exact bind_eq_ofExcept fun bs _ => rfl

end Checked

def isLiteralBody? (e : Engine) : List Char → Option Bool
  | [] => some (!e.inEscape)
  | c :: text => do
      let (_, e) ← e.consider? c
      if c = '"' && !e.prevEscaped then return false
      isLiteralBody? e text

def unquoted? : List Char → Option (Option (List Char))
  | [] => some none
  | c :: text =>
      if c = '"' ∧ text.getLast? = some '"' then do
        if ← isLiteralBody? (start .standard) text.dropLast then
          let (content, e) ← (start .standard).feed? text.dropLast
          return some (content ++ e.trailing)
        return none
      else some none

def parameter? (param : List Char) : Option Parameter :=
  if param = [] ∨ param = ['n', 'u', 'l', 'l'] then some .skipped
  else if param.head? = some tokenPrefix then some (.nested param)
  else do
    match ← unquoted? param with
    | some content => return .text content
    | none => return .invalid param

def parameters? (block : List Char) : Option (List Parameter) := do
  let inner ← slice? block 1 (byteLength block - 1)
  let params ← splitFrom? ',' (start blockFormat) inner
  params.mapM fun param => parameter? (trim param)

def outlineBlock? (name : TokenName) (text : List Char) : Option Outline := do
  let (block, engine) ← (start blockFormat).balanced? text
  let rest := text.drop block.length
  if engine.shouldConsider then
    return ⟨.ok name, ← parameters? block, rest⟩
  return ⟨.error (.unbalanced (String.ofList block)), [], rest⟩

def outline? (text : List Char) : Option Outline :=
  let text := trimStart text
  let head := trim (text.takeWhile (· ≠ '('))
  let rest := text.dropWhile (· ≠ '(')
  match head with
  | [] => some ⟨.error (.missingPrefix ""), [], rest⟩
  | c :: name =>
      if c ≠ tokenPrefix then some ⟨.error (.missingPrefix (String.ofList head)), [], rest⟩
      else if rest = [] then
        some ⟨.error (.missingParameters (String.ofList name)), [], rest⟩
      else
        match TokenName.ofString? (String.ofList name) with
        | .error e => some ⟨.error e, [], rest⟩
        | .ok name => outlineBlock? name rest

def parseWith (first : List Char → Checked (Token × List Char)) (text : List Char) :
    Checked Token := do
  let (token, rest) ← first text
  .ofExcept (Token.finish rest)
  return token

def elementsWith (parse : List Char → Checked Token) : Parameter → Checked (List Element)
  | .skipped => return []
  | .text content => return [.text (String.ofList content)]
  | .invalid param => throw (.invalidParameter (String.ofList param))
  | .nested text => do
      let token ← parse text
      return [token.toElement]

/-- The first token and the text behind it, for tokens that nest to less than the given depth. -/
def firstWithin : Nat → List Char → Checked (Token × List Char)
  | 0, _ => .ofOption none
  | depth + 1, text => do
      let outline ← .ofOption (outline? text)
      let name ← .ofExcept outline.name
      let elements ← outline.parameters.mapM (elementsWith (parseWith (firstWithin depth)))
      return (⟨name, elements.flatten⟩, outline.rest)

def parseWithin (depth : Nat) (text : List Char) : Checked Token :=
  parseWith (firstWithin depth) text

/-! ## The outline -/

private theorem isLiteralBody?_eq {e : Engine} (h : InStep e) (text : List Char) :
    isLiteralBody? e text = some (isLiteralBody e text) := by
  induction text generalizing e with
  | nil => rfl
  | cons c text ih =>
      simp only [isLiteralBody?, isLiteralBody, h.consider?_eq, Option.bind_eq_bind,
        Option.bind_some]
      generalize (decide (c = '"') && !(e.consider c).2.prevEscaped) = ends
      cases ends with
      | true => rfl
      | false => simp [ih (h.consider c)]

private theorem unquoted?_eq (text : List Char) : unquoted? text = some (unquote? text) := by
  cases text with
  | nil => rfl
  | cons c text =>
      have hstart := InStep.start .standard
      simp only [unquoted?, unquote?, isLiteralBody?_eq hstart, hstart.feed?_eq]
      by_cases hquoted : c = '"' ∧ text.getLast? = some '"'
      · rw [if_pos hquoted, Option.bind_eq_bind, Option.bind_some]
        cases hbody : isLiteralBody (start .standard) text.dropLast with
        | true => simp [hquoted, decode, complete]
        | false => simp
      · rw [if_neg hquoted, if_neg fun h => hquoted ⟨h.1, h.2.1⟩]

private theorem parameter?_eq (param : List Char) : parameter? param = some (.ofTrimmed param) := by
  simp only [parameter?, Parameter.ofTrimmed, unquoted?_eq]
  split
  · rfl
  split
  · rfl
  · cases unquote? param <;> rfl

private theorem mapM_eq_map {α β : Type} {f : α → Option β} {g : α → β} (h : ∀ a, f a = some (g a))
    (as : List α) : as.mapM f = some (as.map g) := by
  induction as with
  | nil => rfl
  | cons a as ih => simp [List.mapM_cons, h, ih]

private theorem slice?_parentheses (block : List Char) :
    slice? ('(' :: block ++ [')']) 1 (byteLength ('(' :: block ++ [')']) - 1) = some block := by
  have hlength : byteLength ('(' :: block ++ [')']) - 1 = byteLength ['('] + byteLength block := by
    rw [byteLength_append, byteLength]
    rfl
  rw [hlength]
  exact slice?_append ['('] block [')']

private theorem parameters?_parentheses (block : List Char) :
    parameters? ('(' :: block ++ [')']) = some (parametersOf ('(' :: block ++ [')'])) := by
  have hsplit := (InStep.start blockFormat).splitFrom?_eq ',' block
  simp only [parameters?, slice?_parentheses, parametersOf_parentheses, split, hsplit,
    Option.bind_eq_bind, Option.bind_some]
  exact mapM_eq_map (fun param => parameter?_eq (trim param)) _

private theorem outlineBlock?_eq (name : TokenName) (text : List Char) :
    outlineBlock? name ('(' :: text) = some (outlineBlock name ('(' :: text)) := by
  have hbalanced := (InStep.start blockFormat).balanced?_eq ('(' :: text)
  simp only [outlineBlock?, outlineBlock, hbalanced, Option.bind_eq_bind, Option.bind_some]
  by_cases hconsider : ((start blockFormat).balanced ('(' :: text)).2.shouldConsider = true
  · obtain ⟨block, hblock⟩ := exists_parentheses_of_balanced hconsider
    rw [if_pos hconsider, if_pos hconsider, hblock, parameters?_parentheses]
    rfl
  · rw [if_neg hconsider, if_neg hconsider]
    rfl

private theorem outline?_eq (text : List Char) : outline? text = some (outline text) := by
  have hstop := List.head?_dropWhile_not (· ≠ '(') (trimStart text)
  simp only [outline?, outline]
  cases htrim : trim ((trimStart text).takeWhile (· ≠ '(')) with
  | nil => rfl
  | cons c chars =>
      dsimp only
      split
      · rfl
      cases hdrop : (trimStart text).dropWhile (· ≠ '(') with
      | nil => rfl
      | cons d behind =>
          rw [hdrop] at hstop
          obtain rfl : d = '(' := by simpa using hstop
          rw [if_neg (List.cons_ne_nil _ _), if_neg (List.cons_ne_nil _ _)]
          cases TokenName.ofString? (String.ofList chars) with
          | error e => rfl
          | ok name => exact outlineBlock?_eq name behind

/-! ## Reading -/

private theorem parseWith_eq {first : List Char → Checked (Token × List Char)} {text : List Char}
    (h : first text = .ofExcept ((Token.first text).map fun t => (t, Token.rest text))) :
    parseWith first text = .ofExcept (Token.parse text) := by
  rw [parseWith, h, Token.parse]
  cases Token.first text with
  | error e => rfl
  | ok t => exact Checked.bind_eq_ofExcept fun _ _ => rfl

private theorem elementsWith_eq {parse : List Char → Checked Token} {param : Parameter}
    (h : ∀ text, param = .nested text → parse text = .ofExcept (Token.parse text)) :
    elementsWith parse param = .ofExcept (Token.elementsOf param) := by
  cases param with
  | nested text =>
      rw [elementsWith, Token.elementsOf, h text rfl]
      cases Token.parse text <;> rfl
  | _ => rfl

private theorem firstWithin_eq {depth : Nat} {text : List Char} (h : text.length < depth) :
    firstWithin depth text =
      .ofExcept ((Token.first text).map fun t => (t, Token.rest text)) := by
  -- By induction on the depth: the texts of nested tokens are shorter.
  induction depth generalizing text with
  | zero => exact absurd h (Nat.not_lt_zero _)
  | succ depth ih =>
      have helements : (outline text).parameters.mapM
          (elementsWith (parseWith (firstWithin depth))) =
            .ofExcept ((outline text).parameters.mapM Token.elementsOf) := by
        refine Checked.mapM_eq_ofExcept fun param hparam => ?_
        refine elementsWith_eq fun nested hnested => parseWith_eq (ih ?_)
        have hshorter := length_nested_lt (hnested ▸ hparam)
        omega
      rw [firstWithin, outline?_eq, Checked.ofOption_some_bind, helements, Token.first_eq]
      cases (outline text).name with
      | error e => rfl
      | ok name => cases (outline text).parameters.mapM Token.elementsOf <;> rfl

private theorem parseWithin_eq {depth : Nat} {text : List Char} (h : text.length < depth) :
    parseWithin depth text = .ofExcept (Token.parse text) :=
  parseWith_eq (firstWithin_eq h)

private theorem outline_rest_suffix (text : List Char) : (outline text).rest <:+ text := by
  have hdrop := (List.dropWhile_suffix (l := trimStart text) (· ≠ '(')).trans
    (List.dropWhile_suffix isBlank)
  simp only [outline]
  split
  · exact hdrop
  split
  · exact hdrop
  split
  · exact hdrop
  split
  · exact hdrop
  · simp only [outlineBlock]
    split <;> exact (List.drop_suffix _ _).trans hdrop

structure IsParenthesized (block : List Char) : Prop where
  head : block.head? = some '('
  last : block.getLast? = some ')'
  two_le_length : 2 ≤ block.length
  slice : slice? block 1 (byteLength block - 1) = some block.tail.dropLast

private theorem isParenthesized (block : List Char) : IsParenthesized ('(' :: block ++ [')']) :=
  ⟨rfl, List.getLast?_concat, by simp, by rw [slice?_parentheses]; simp⟩

namespace Token

structure ReadsSafely (text : List Char) : Prop where
  /-- No access fails, and tokens nest to no more than the length of the text. -/
  first : ∀ depth, text.length < depth →
    firstWithin depth text = .ofExcept ((Token.first text).map fun t => (t, rest text))
  parse : ∀ depth, text.length < depth → parseWithin depth text = .ofExcept (Token.parse text)
  all : Yields text (readAll text).1 (readAll text).2
  block : ∀ behind, '(' :: behind <:+ text →
    ((start blockFormat).balanced ('(' :: behind)).2.shouldConsider = true →
      IsParenthesized ((start blockFormat).balanced ('(' :: behind)).1
  nested : ∀ inner, .nested inner ∈ (outline text).parameters → inner.length < text.length
  progress : ∀ t, Token.first text = .ok t → (rest text).length + 3 ≤ text.length
  position : ∃ taken, text = taken ++ rest text ∧ ∀ before,
    dropBytes? (before ++ text) (byteLength (before ++ taken)) = some (rest text)

theorem reads_every_text_safely (text : List Char) : ReadsSafely text where
  first _ h := firstWithin_eq h
  parse _ h := parseWithin_eq h
  all := readAll_eq_iff.1 rfl
  block behind _ h := by
    obtain ⟨block, hblock⟩ := exists_parentheses_of_balanced h
    rw [hblock]
    exact isParenthesized block
  nested _ h := length_nested_lt h
  progress _ h := length_rest_add_three_le h
  position := by
    obtain ⟨taken, htext⟩ : rest text <:+ text := outline_rest_suffix text
    refine ⟨taken, htext.symm, fun before => ?_⟩
    have hdrop := dropBytes?_byteLength_append (before ++ taken) (rest text)
    rwa [List.append_assoc, htext] at hdrop

/-- A token in a token, with a parenthesis in a string. -/
theorem reads_every_text_safely_nested :
    let name : TokenName := ⟨"a", by decide⟩
    let inner : Token := ⟨name, [.text "\")"]⟩
    let text := (Token.mk name [inner.toElement]).write
    Token.first text = .ok ⟨name, [inner.toElement]⟩ ∧ (rest text).length + 3 ≤ text.length ∧
      parseWithin (text.length + 1) text = .ofExcept (.ok ⟨name, [inner.toElement]⟩) := by
  intro name inner text
  have hparse := (tokenText_write ⟨name, [inner.toElement]⟩).parse
  have hfirst := (parse_eq_ok_iff.1 hparse).1
  have hsafe := reads_every_text_safely text
  refine ⟨hfirst, hsafe.progress _ hfirst, ?_⟩
  rw [hsafe.parse _ (Nat.lt_succ_self _), hparse]

end Token

end TextGrammar
