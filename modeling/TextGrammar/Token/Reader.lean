import TextGrammar.Escape.Scan
import TextGrammar.Token.Writer

/-!
# Reading tokens

Reading a token takes two steps.  The outline cuts the first token out of a text: its name, the
parameters between its parentheses, and the rest of the text.  The parameters that are tokens
themselves are then read in the same way; they are shorter than the text they came from.
-/

namespace TextGrammar

open Text Escape

/-- Parameter blocks are delimited by parentheses outside string literals. -/
def blockFormat : Format := (Format.standard.configure (.brackets '(' ')')).configure (.quote '"')

inductive Parameter where
  /-- Empty parameters and the word `null` stand for nothing. -/
  | skipped
  | nested (text : List Char)
  | text (content : List Char)
  | invalid (param : List Char)
  deriving DecidableEq, Repr

/-- Whether the text between two quotation marks leaves no mark unescaped and no escape
unfinished. -/
def isLiteralBody (e : Engine) : List Char → Bool
  | [] => !e.inEscape
  | c :: cs =>
      let e := (e.consider c).2
      !(c = '"' && !e.prevEscaped) && isLiteralBody e cs

def unquote? : List Char → Option (List Char)
  | [] => none
  | c :: cs =>
      if c = '"' ∧ cs.getLast? = some '"' ∧ isLiteralBody (Engine.start .standard) cs.dropLast then
        some (decode .standard cs.dropLast)
      else none

def Parameter.ofTrimmed (param : List Char) : Parameter :=
  if param = [] ∨ param = ['n', 'u', 'l', 'l'] then .skipped
  else if param.head? = some tokenPrefix then .nested param
  else
    match unquote? param with
    | some content => .text content
    | none => .invalid param

def parametersOf (block : List Char) : List Parameter :=
  (split blockFormat ',' block.tail.dropLast).map fun param => .ofTrimmed (trim param)

structure Outline where
  name : Except TokenError TokenName
  parameters : List Parameter
  rest : List Char

def outlineBlock (name : TokenName) (text : List Char) : Outline :=
  let (block, engine) := (Engine.start blockFormat).balanced text
  let rest := text.drop block.length
  if engine.shouldConsider then ⟨.ok name, parametersOf block, rest⟩
  else ⟨.error (.unbalanced (String.ofList block)), [], rest⟩

/-- The outline of the first token of a text.  Blanks in front of it are skipped; everything up to
the first parenthesis, trimmed, is the prefix and the name. -/
def outline (text : List Char) : Outline :=
  let text := trimStart text
  let head := trim (text.takeWhile (· ≠ '('))
  let rest := text.dropWhile (· ≠ '(')
  match head with
  | [] => ⟨.error (.missingPrefix ""), [], rest⟩
  | c :: name =>
      if c ≠ tokenPrefix then ⟨.error (.missingPrefix (String.ofList head)), [], rest⟩
      else if rest = [] then ⟨.error (.missingParameters (String.ofList name)), [], rest⟩
      else
        match TokenName.ofString? (String.ofList name) with
        | .error e => ⟨.error e, [], rest⟩
        | .ok name => outlineBlock name rest

theorem length_le_of_mem_splitFrom (separator : Char) :
    ∀ (text : List Char) (e : Engine), ∀ piece ∈ e.splitFrom separator text,
      piece.length ≤ text.length
  | [], e, piece, h => by
      simp only [Engine.splitFrom, List.mem_singleton] at h
      simp [h]
  | c :: cs, e, piece, h => by
      have ih := length_le_of_mem_splitFrom separator cs
      simp only [Engine.splitFrom] at h
      split at h
      · rcases List.mem_cons.1 h with rfl | h
        · simp
        · exact Nat.le_succ_of_le (ih _ _ h)
      · split at h
        · simp only [List.mem_singleton] at h
          simp [h]
        · rename_i first pieces hsplit
          rcases List.mem_cons.1 h with rfl | h
          · have hfirst := ih (e.consider c).2 first (by simp [hsplit])
            simpa using hfirst
          · exact Nat.le_succ_of_le (ih (e.consider c).2 piece (by simp [hsplit, h]))

private theorem length_balanced_le (text : List Char) :
    ∀ e : Engine, (e.balanced text).1.length ≤ text.length := by
  induction text with
  | nil => intro e; simp [Engine.balanced]
  | cons c cs ih =>
      intro e
      simp only [Engine.balanced]
      split
      · simp
      · simpa using ih (e.consider c).2

private theorem length_trimStart_le (text : List Char) : (trimStart text).length ≤ text.length :=
  (List.dropWhile_sublist isBlank).length_le

theorem length_trim_le (text : List Char) : (trim text).length ≤ text.length := by
  have hEnd := length_trimStart_le (trimStart text).reverse
  have hStart := length_trimStart_le text
  simp only [trim, trimEnd, List.length_reverse] at *
  omega

private theorem eq_of_ofTrimmed_nested {param text : List Char}
    (h : Parameter.ofTrimmed param = .nested text) : text = param ∧ 0 < text.length := by
  simp only [Parameter.ofTrimmed] at h
  split at h
  · exact absurd h nofun
  · rename_i hempty
    split at h
    · cases h
      refine ⟨rfl, ?_⟩
      cases param with
      | nil => exact absurd (Or.inl rfl) hempty
      | cons c cs => simp
    · split at h <;> exact absurd h nofun

private theorem length_nested_lt_block {block text : List Char}
    (h : .nested text ∈ parametersOf block) : text.length < block.length := by
  obtain ⟨piece, hpiece, hnested⟩ := List.mem_map.1 h
  obtain ⟨rfl, hpos⟩ := eq_of_ofTrimmed_nested hnested
  have hlen := length_le_of_mem_splitFrom ',' _ _ piece hpiece
  have htrim := length_trim_le piece
  simp only [List.length_dropLast, List.length_tail] at hlen
  omega

theorem length_nested_lt {text nested : List Char}
    (h : .nested nested ∈ (outline text).parameters) : nested.length < text.length := by
  have hstart := length_trimStart_le text
  have hdrop := (List.dropWhile_sublist (l := trimStart text) fun c => decide (c ≠ '(')).length_le
  simp only [outline] at h
  split at h
  · simp at h
  · split at h
    · simp at h
    · split at h
      · simp at h
      · split at h
        · simp at h
        · simp only [outlineBlock] at h
          split at h
          · have hlt := length_nested_lt_block h
            have hle := length_balanced_le ((trimStart text).dropWhile fun c => decide (c ≠ '('))
              (Engine.start blockFormat)
            omega
          · simp at h

namespace Token

def finish (text : List Char) : Except TokenError Unit :=
  match trimStart text with
  | [] => .ok ()
  | rest => .error (.trailingCharacters (String.ofList rest))

def first (text : List Char) : Except TokenError Token := do
  let name ← (outline text).name
  let elements ← (outline text).parameters.attach.mapM fun ⟨param, _mem⟩ =>
    match _shape : param with
    | .skipped => .ok []
    | .text content => .ok [Element.text (String.ofList content)]
    | .invalid param => .error (.invalidParameter (String.ofList param))
    | .nested nested => do
        let token ← first nested
        finish (outline nested).rest
        return [token.toElement]
  return ⟨name, elements.flatten⟩
termination_by text.length
decreasing_by exact length_nested_lt (_shape ▸ _mem)

def rest (text : List Char) : List Char := (outline text).rest

def parse (text : List Char) : Except TokenError Token := do
  let token ← first text
  finish (rest text)
  return token

def elementsOf : Parameter → Except TokenError (List Element)
  | .skipped => .ok []
  | .text content => .ok [.text (String.ofList content)]
  | .invalid param => .error (.invalidParameter (String.ofList param))
  | .nested text => (parse text).map fun token => [token.toElement]

theorem first_eq (text : List Char) :
    first text = (do
      let name ← (outline text).name
      let elements ← (outline text).parameters.mapM elementsOf
      return ⟨name, elements.flatten⟩) := by
  rw [first]
  congr 1
  funext name
  congr 1
  have hmap : (outline text).parameters.mapM elementsOf =
      (outline text).parameters.attach.mapM (elementsOf ∘ Subtype.val) := by
    rw [← List.mapM_map, List.attach_map_subtype_val]
  rw [hmap]
  congr 2
  funext ⟨param, hmem⟩
  cases param with
  | skipped => rfl
  | text content => rfl
  | invalid param => rfl
  | nested nested =>
      simp only [elementsOf, parse, rest, Function.comp]
      cases first nested with
      | error e => rfl
      | ok token => cases finish (outline nested).rest <;> rfl

def hasNext (text : List Char) : Bool := text.any fun c => !isBlank c

/-- Reads up to `n` tokens, ending behind the first error, and the text left after them. -/
def readUpTo : Nat → List Char → List (Except TokenError Token) × List Char
  | 0, text => ([], text)
  | n + 1, text =>
      if hasNext text then
        match first text with
        | .error e => ([.error e], rest text)
        | .ok token =>
            let (items, left) := readUpTo n (rest text)
            (.ok token :: items, left)
      else ([], text)

/-- Reads all tokens.  A text holds no more tokens than characters. -/
def readAll (text : List Char) : List (Except TokenError Token) × List Char :=
  readUpTo text.length text

end Token

end TextGrammar
