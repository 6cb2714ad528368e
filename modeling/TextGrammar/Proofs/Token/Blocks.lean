import TextGrammar.Proofs.Escape.Passage
import TextGrammar.Proofs.Escape.RoundTrip
import TextGrammar.Proofs.Token.Grammar

/-!
# Parameter blocks under their engine

How the engine of parameter blocks goes over what the grammar allows: string literals and the
parameters of nested tokens hide their commas and parentheses, so the engine meets a comma outside
of everything exactly between two items, and is balanced again exactly behind the block.
-/

namespace TextGrammar

open Text Escape Engine

@[simp] theorem blockFormat_trigger : blockFormat.trigger = some '\\' := rfl

@[simp] theorem blockFormat_quotes : blockFormat.quotes = ['"'] := rfl

@[simp] theorem blockFormat_brackets : blockFormat.brackets = [('(', ')')] := rfl

structure IsQuiet (c : Char) : Prop where
  ne_trigger : c ≠ '\\'
  ne_quote : c ≠ '"'
  ne_left : c ≠ '('
  ne_right : c ≠ ')'
  ne_comma : c ≠ ','

theorem isQuiet_of_isBlank {c : Char} (h : isBlank c = true) : IsQuiet c := by
  constructor <;> rintro rfl <;> exact absurd h (by decide)

theorem TokenName.isQuiet (name : TokenName) : ∀ c ∈ name.text.toList, IsQuiet c := by
  intro c hc
  have hvalid := name.valid
  simp only [isValidName, isReadableName, isCanonical, Bool.and_eq_true, decide_eq_true_eq,
    Bool.not_eq_true', List.any_eq_false, isDelimiter, Bool.or_eq_true] at hvalid
  obtain ⟨hcanonical, hdelimiter, -⟩ := hvalid
  have hcode := codeFor?_eq_none_of_encode_eq standard_trigger hcanonical c hc
  have hc' := hdelimiter c hc
  constructor
  · rintro rfl
    exact absurd hcode (by decide)
  · rintro rfl
    exact absurd hcode (by decide)
  · rintro rfl
    simp at hc'
  · rintro rfl
    simp at hc'
  · rintro rfl
    simp at hc'

theorem TokenName.isTight (name : TokenName) : IsTight name.text.toList := by
  have hvalid := name.valid
  simp only [isValidName, isReadableName, Bool.and_eq_true, decide_eq_true_eq] at hvalid
  exact isTight_of_trim_eq hvalid.2.2

/-! ## Inside a string literal -/

/-- The engine stands between two units of a string literal. -/
structure InLiteral (e : Engine) : Prop where
  trigger : e.format.trigger = some '\\'
  unicodeCode : e.format.unicodeCode = 'u'
  quotes : e.format.quotes = ['"']
  phase : e.phase = .plain
  pending : e.pending = []
  openQuotes : e.openQuotes = [true]

namespace InLiteral

variable {e : Engine}

theorem withPrevEscaped (h : InLiteral e) (prev : Bool) :
    InLiteral { e with prevEscaped := prev } :=
  ⟨h.trigger, h.unicodeCode, h.quotes, h.phase, h.pending, h.openQuotes⟩

theorem neverConsiders (h : InLiteral e) (c : Char) : NeverConsiders c e := by
  simp [NeverConsiders, shouldConsider, inQuotes, h.openQuotes]

theorem consider_plain (h : InLiteral e) {c : Char} (hquote : c ≠ '"') (htrigger : c ≠ '\\') :
    e.consider c = ([c], { e with prevEscaped := false }) := by
  rw [Engine.consider_plain h.phase (by simpa [h.trigger] using htrigger.symm)]
  simp [track, h.openQuotes, h.quotes, hquote.symm]

theorem consider_quote (h : InLiteral e) :
    e.consider '"' = (['"'], { e with prevEscaped := false, openQuotes := [false] }) := by
  rw [Engine.consider_plain h.phase (by simp [h.trigger])]
  simp [track, h.openQuotes, h.quotes]

theorem passes_code (h : InLiteral e) {c : Char} (hcode : c ≠ 'u') :
    e.Passes NeverConsiders ['\\', c] { e with prevEscaped := true } := by
  simp [Passes, NeverConsiders, shouldConsider, inQuotes, consider, h.phase, h.trigger,
    h.unicodeCode, h.openQuotes, hcode]

theorem passes_codePoint (h : InLiteral e) (a b c d : Char) :
    e.Passes NeverConsiders ['\\', 'u', a, b, c, d] { e with prevEscaped := true } := by
  simp [Passes, NeverConsiders, shouldConsider, inQuotes, consider, h.phase, h.trigger,
    h.unicodeCode, h.openQuotes, h.pending]

end InLiteral

theorem LiteralBody.passes {body : List Char} (h : LiteralBody body) {e : Engine}
    (he : InLiteral e) : ∃ prev, e.Passes NeverConsiders body { e with prevEscaped := prev } := by
  induction h generalizing e with
  | nil => exact ⟨e.prevEscaped, rfl⟩
  | plain hquote htrigger _ ih =>
      obtain ⟨prev, hrest⟩ := ih (he.withPrevEscaped false)
      have hnever := (he.withPrevEscaped false).neverConsiders
      exact ⟨prev, .cons (he.consider_plain hquote htrigger) (hnever _) hrest⟩
  | code hcode _ ih =>
      obtain ⟨prev, hrest⟩ := ih (he.withPrevEscaped true)
      exact ⟨prev, (he.passes_code hcode).append hrest⟩
  | codePoint a b c d _ ih =>
      obtain ⟨prev, hrest⟩ := ih (he.withPrevEscaped true)
      exact ⟨prev, (he.passes_codePoint a b c d).append hrest⟩

/-! ## Outside string literals -/

def outside (left right : Nat) : Engine := { start blockFormat with counts := [(left, right)] }

def inside (left right : Nat) : Engine := { outside left right with openQuotes := [true] }

private theorem inside_inLiteral (left right : Nat) : InLiteral (inside left right) :=
  ⟨rfl, rfl, rfl, rfl, rfl, rfl⟩

theorem start_blockFormat : start blockFormat = outside 0 0 := rfl

@[simp] theorem shouldConsider_outside (left right : Nat) :
    (outside left right).shouldConsider = decide (left = right) := by
  by_cases h : left = right <;> simp [shouldConsider, outside, start, inQuotes, inBrackets, h]

section Steps

variable (left right : Nat)

private theorem outside_consider_plain {c : Char} (htrigger : c ≠ '\\') (hquote : c ≠ '"')
    (hleft : c ≠ '(') (hright : c ≠ ')') :
    (outside left right).consider c = ([c], outside left right) := by
  rw [consider_plain rfl (by simpa [outside, start] using htrigger.symm)]
  simp [track, trackOutside, outside, start, hquote.symm, hleft.symm, hright.symm]

private theorem outside_consider_comma :
    (outside left right).consider ',' = ([','], outside left right) :=
  outside_consider_plain left right (by decide) (by decide) (by decide) (by decide)

private theorem outside_consider_left :
    (outside left right).consider '(' = (['('], outside (left + 1) right) := by
  rw [consider_plain rfl (by simp [outside, start])]
  simp [track, trackOutside, outside, start]

private theorem outside_consider_right :
    (outside left right).consider ')' = ([')'], outside left (right + 1)) := by
  rw [consider_plain rfl (by simp [outside, start])]
  simp [track, trackOutside, outside, start]

private theorem outside_consider_quote :
    (outside left right).consider '"' = (['"'], inside left right) := by
  rw [consider_plain rfl (by simp [outside, start])]
  simp [track, trackOutside, inside, outside, start]

end Steps

/-- A place to stop at is met only outside the parentheses around the whole, and not at a comma. -/
def Shielded (left right : Nat) (c : Char) (e : Engine) : Prop :=
  e.shouldConsider = true → left = right ∧ c ≠ ','

private theorem shielded_of_neverConsiders {left right : Nat} {c : Char} {e : Engine}
    (h : NeverConsiders c e) : Shielded left right c e := fun hconsider =>
  absurd (h.symm.trans hconsider) nofun

private theorem shielded_of_add {left right depth : Nat} {c : Char} {e : Engine}
    (h : Shielded (left + depth) (right + depth) c e) : Shielded left right c e := by
  intro hconsider
  obtain ⟨heq, hc⟩ := h hconsider
  exact ⟨by omega, hc⟩

private theorem neverConsiders_outside {left right : Nat} (h : left ≠ right) (c : Char) :
    NeverConsiders c (outside left right) := by
  simp [NeverConsiders, h]

private theorem shielded_outside {left right : Nat} {c : Char} (h : c ≠ ',') :
    Shielded left right c (outside left right) := by
  intro hconsider
  exact ⟨by simpa using hconsider, h⟩

private theorem passes_shielded {text : List Char} {e e' : Engine} {left right : Nat}
    (h : e.Passes NeverConsiders text e') : e.Passes (Shielded left right) text e' :=
  h.mono fun _ _ => shielded_of_neverConsiders

private theorem passes_quiet {text : List Char} (h : ∀ c ∈ text, IsQuiet c) (left right : Nat) :
    (outside left right).Passes (Shielded left right) text (outside left right) := by
  induction text with
  | nil => rfl
  | cons c text ih =>
      have hc := h c (by simp)
      have hstep :=
        outside_consider_plain left right hc.ne_trigger hc.ne_quote hc.ne_left hc.ne_right
      exact .cons hstep (shielded_outside hc.ne_comma) (ih fun d hd => h d (by simp [hd]))

private theorem passes_blank {text : List Char} (h : IsBlankText text) (left right : Nat) :
    (outside left right).Passes (Shielded left right) text (outside left right) :=
  passes_quiet (fun c hc => isQuiet_of_isBlank (h c hc)) left right

theorem LiteralBody.passes_quoted {body : List Char} (h : LiteralBody body) (left right : Nat) :
    (outside left right).Passes (Shielded left right) ('"' :: body ++ ['"'])
      (outside left right) := by
  have hinside := inside_inLiteral left right
  obtain ⟨prev, hbody⟩ := h.passes hinside
  have hclosing := (hinside.withPrevEscaped prev).consider_quote
  have hopening := outside_consider_quote left right
  have hquote : Shielded left right '"' (inside left right) :=
    shielded_of_neverConsiders (hinside.neverConsiders '"')
  refine .cons hopening hquote ((passes_shielded hbody).append ?_)
  exact .cons hclosing (shielded_outside (by decide)) rfl

/-! ## The grammar under the engine -/

/-- Behind the text the engine is behind as many left as right parentheses more. -/
def PassesItem (text : List Char) : Prop :=
  ∀ left right, right ≤ left → ∃ depth,
    (outside left right).Passes (Shielded left right) text (outside (left + depth) (right + depth))

theorem PassesItem.pad {front item back : List Char} (h : PassesItem item)
    (hfront : IsBlankText front) (hback : IsBlankText back) :
    PassesItem (front ++ item ++ back) := by
  intro left right hle
  obtain ⟨depth, hitem⟩ := h left right hle
  have hbehind := passes_blank hback (left + depth) (right + depth)
  refine ⟨depth, .append (.append (passes_blank hfront left right) hitem) ?_⟩
  exact hbehind.mono fun c e => shielded_of_add

theorem PassesItem.neverConsiders {item : List Char} (h : PassesItem item) {left right : Nat}
    (hlt : right < left) : ∃ depth,
      (outside left right).Passes NeverConsiders item (outside (left + depth) (right + depth)) := by
  obtain ⟨depth, hitem⟩ := h left right (Nat.le_of_lt hlt)
  refine ⟨depth, hitem.mono fun c e hshielded => ?_⟩
  apply Bool.eq_false_iff.2
  intro hconsider
  have heq := (hshielded hconsider).1
  omega

theorem TokenText.passes_head {front behind : List Char} (name : TokenName)
    (hfront : IsBlankText front) (hbehind : IsBlankText behind) (left right : Nat) :
    (outside left right).Passes (Shielded left right) (front ++ '@' :: name.text.toList ++ behind)
      (outside left right) := by
  apply passes_quiet
  intro c hc
  simp only [List.mem_append, List.mem_cons] at hc
  rcases hc with (hc | rfl | hc) | hc
  · exact isQuiet_of_isBlank (hfront c hc)
  · constructor <;> decide
  · exact name.isQuiet c hc
  · exact isQuiet_of_isBlank (hbehind c hc)

private theorem passes_parentheses {block : List Char} {left right depth : Nat} (hle : right ≤ left)
    (h : (outside (left + 1) right).Passes NeverConsiders block
      (outside (left + 1 + depth) (right + depth))) :
    (outside left right).Passes (Shielded left right) ('(' :: block ++ [')'])
      (outside (left + (depth + 1)) (right + (depth + 1))) := by
  have hopening := outside_consider_left left right
  have hclosing := outside_consider_right (left + 1 + depth) (right + depth)
  have hend : left + 1 + depth = left + (depth + 1) := by omega
  have hdeeper := neverConsiders_outside (show left + 1 ≠ right by omega) '('
  refine .cons hopening (shielded_of_neverConsiders hdeeper) ((passes_shielded h).append ?_)
  rw [hend] at hclosing ⊢
  exact .cons hclosing (shielded_of_add (shielded_outside (by decide))) rfl

mutual

theorem TokenText.passes : ∀ {text : List Char} {t : Token}, TokenText text t → PassesItem text
  | _, _, @TokenText.intro front behind back block name _ hfront hbehind hback hblock => by
      intro left right hle
      have hhead := TokenText.passes_head name hfront hbehind left right
      obtain ⟨depth, hinner⟩ := BlockText.passes hblock (left + 1) right (Nat.lt_succ_of_le hle)
      have hbehind := passes_blank hback (left + (depth + 1)) (right + (depth + 1))
      have hall := (hhead.append (passes_parentheses hle hinner)).append
        (hbehind.mono fun c e => shielded_of_add)
      refine ⟨depth + 1, ?_⟩
      simpa [List.append_assoc] using hall

theorem BlockText.passes : ∀ {text : List Char} {elements : List Element},
    BlockText text elements → ∀ left right, right < left → ∃ depth,
      (outside left right).Passes NeverConsiders text (outside (left + depth) (right + depth))
  | _, _, .last hfront hback hitem => fun _ _ hlt =>
      ((ItemText.passes hitem).pad hfront hback).neverConsiders hlt
  | _, _, .cons hfront hback hitem hrest => by
      intro left right hlt
      obtain ⟨depth, hpad⟩ := ((ItemText.passes hitem).pad hfront hback).neverConsiders hlt
      have hlt' := Nat.add_lt_add_right hlt depth
      obtain ⟨more, hmore⟩ := BlockText.passes hrest (left + depth) (right + depth) hlt'
      have hcomma := outside_consider_comma (left + depth) (right + depth)
      refine ⟨depth + more, hpad.append (.cons hcomma ?_ ?_)⟩
      · exact neverConsiders_outside (by omega) ','
      · simpa [Nat.add_assoc] using hmore

theorem ItemText.passes : ∀ {text : List Char} {elements : List Element},
    ItemText text elements → PassesItem text
  | _, _, .empty => fun _ _ _ => ⟨0, rfl⟩
  | _, _, .null => fun left right _ => by
      refine ⟨0, passes_quiet (fun c hc => ?_) left right⟩
      simp only [List.mem_cons, List.not_mem_nil, or_false] at hc
      rcases hc with rfl | rfl | rfl | rfl <;> constructor <;> decide
  | _, _, .token h => TokenText.passes h
  | _, _, .literal h => fun left right _ => ⟨0, h.passes_quoted left right⟩

end

theorem PassesItem.neverSeparates {item : List Char} (h : PassesItem item) :
    ∃ depth, (outside 0 0).Passes (NeverSeparates ',') item (outside depth depth) := by
  obtain ⟨depth, hitem⟩ := h 0 0 (Nat.le_refl 0)
  refine ⟨depth, ?_⟩
  simpa using hitem.mono (q := NeverSeparates ',') fun c e hshielded hconsider =>
    (hshielded hconsider).2

theorem PassesItem.split {item : List Char} (h : PassesItem item) :
    split blockFormat ',' item = [item] := by
  obtain ⟨depth, hitem⟩ := h.neverSeparates
  exact splitFrom_of_passes hitem

theorem PassesItem.split_append {item : List Char} (h : PassesItem item) (rest : List Char) :
    Escape.split blockFormat ',' (item ++ ',' :: rest) =
      item :: Escape.split blockFormat ',' rest := by
  obtain ⟨depth, hitem⟩ := h.neverSeparates
  have hcomma := outside_consider_comma depth depth
  exact splitFrom_append_separator hitem (by simp [hcomma]) rest

/-! ## Cutting a block out -/

theorem BlockText.balanced {block : List Char} {elements : List Element}
    (h : BlockText block elements) (rest : List Char) : ∃ depth,
      (start blockFormat).balanced ('(' :: block ++ ')' :: rest) =
        ('(' :: block ++ [')'], outside depth depth) := by
  obtain ⟨depth, hblock⟩ := h.passes 1 0 (by decide)
  have hclosing : (outside (1 + depth) (0 + depth)).consider ')' =
      ([')'], outside (1 + depth) (1 + depth)) := by
    rw [outside_consider_right, Nat.zero_add, Nat.add_comm depth 1]
  have hdeeper : NeverConsiders '(' (outside 1 0) := neverConsiders_outside (by decide) '('
  have hall : (start blockFormat).Passes NeverConsiders ('(' :: block) _ :=
    .cons (outside_consider_left 0 0) hdeeper hblock
  refine ⟨1 + depth, ?_⟩
  have hout : (outside (1 + depth) (1 + depth)).shouldConsider = true := by simp
  rw [balanced_append hall (by rw [hclosing]; exact hout), hclosing]

structure AtDepth (e : Engine) : Prop where
  format : e.format = blockFormat
  openQuotes : ∃ quoted, e.openQuotes = [quoted]
  counts : ∃ left right, e.counts = [(left, right)] ∧ right < left

namespace AtDepth

variable {e : Engine}

private theorem shouldConsider (h : AtDepth e) : e.shouldConsider = false := by
  obtain ⟨left, right, hcounts, hlt⟩ := h.counts
  have hne : left ≠ right := by omega
  simp [Engine.shouldConsider, inBrackets, hcounts, hne]

private theorem withEscape (h : AtDepth e) (phase : Phase) (prev : Bool) (pending : List Char) :
    AtDepth { e with phase := phase, prevEscaped := prev, pending := pending } :=
  ⟨h.format, h.openQuotes, h.counts⟩

private theorem track_quoted (h : AtDepth e) (hquoted : e.openQuotes = [true]) (c : Char) :
    AtDepth (e.track c) := by
  by_cases hc : c = '"'
  · have htrack : e.track c = { e with openQuotes := [false] } := by
      simp [Engine.track, h.format, hquoted, hc]
    rw [htrack]
    exact ⟨h.format, ⟨false, rfl⟩, h.counts⟩
  · have htrack : e.track c = e := by
      simp [Engine.track, h.format, hquoted, Ne.symm hc]
    rwa [htrack]

private theorem track_unquoted (h : AtDepth e) (hquoted : e.openQuotes = [false])
    (hphase : e.phase = .plain) (hprev : e.prevEscaped = false) (c : Char) :
    AtDepth (e.track c) ∨ c = ')' ∧ (e.track c).shouldConsider = true := by
  obtain ⟨left, right, hcounts, hlt⟩ := h.counts
  by_cases hleft : c = '('
  · have htrack : e.track c = { e with counts := [(left + 1, right)] } := by
      simp [Engine.track, trackOutside, h.format, hquoted, hcounts, hleft]
    rw [htrack]
    exact .inl ⟨h.format, ⟨false, hquoted⟩, left + 1, right, rfl, by omega⟩
  by_cases hright : c = ')'
  · have htrack : e.track c = { e with counts := [(left, right + 1)] } := by
      simp [Engine.track, trackOutside, h.format, hquoted, hcounts, hright]
    rw [htrack]
    rcases Nat.lt_or_eq_of_le hlt with hdeep | hout
    · exact .inl ⟨h.format, ⟨false, hquoted⟩, left, right + 1, rfl, hdeep⟩
    · refine .inr ⟨hright, ?_⟩
      simp [Engine.shouldConsider, inQuotes, inBrackets, hphase, hprev, hquoted, ← hout]
  by_cases hquote : c = '"'
  · have htrack : e.track c = { e with openQuotes := [true] } := by
      simp [Engine.track, trackOutside, h.format, hquoted, hquote]
    rw [htrack]
    exact .inl ⟨h.format, ⟨true, rfl⟩, h.counts⟩
  · have htrack : e.track c = e := by
      simp [Engine.track, trackOutside, h.format, hquoted, Ne.symm hleft, Ne.symm hright,
        Ne.symm hquote]
    rw [htrack]
    exact .inl h

private theorem consider (h : AtDepth e) (c : Char) :
    AtDepth (e.consider c).2 ∨ c = ')' ∧ (e.consider c).2.shouldConsider = true := by
  obtain ⟨hphase, -, hstep⟩ | ⟨phase, prev, pending, hstep⟩ := e.consider_cases c
  · have hplain := h.withEscape e.phase false e.pending
    obtain ⟨quoted, hquoted⟩ := h.openQuotes
    rw [hstep]
    cases quoted with
    | true => exact .inl (hplain.track_quoted hquoted c)
    | false => exact hplain.track_unquoted hquoted hphase rfl c
  · rw [hstep]
    exact .inl (h.withEscape phase prev pending)

private theorem balanced (h : AtDepth e) {text : List Char}
    (hbalanced : (e.balanced text).2.shouldConsider = true) :
    ∃ inner, (e.balanced text).1 = inner ++ [')'] := by
  induction text generalizing e with
  | nil => exact absurd (h.shouldConsider.symm.trans hbalanced) nofun
  | cons c text ih =>
      simp only [Engine.balanced] at hbalanced ⊢
      rcases h.consider c with hdeep | ⟨rfl, hout⟩
      · simp only [hdeep.shouldConsider, Bool.false_eq_true, if_false] at hbalanced ⊢
        obtain ⟨inner, hinner⟩ := ih hdeep hbalanced
        exact ⟨c :: inner, by simp [hinner]⟩
      · exact ⟨[], by simp [hout]⟩

end AtDepth

private theorem atDepth_outside {left right : Nat} (h : right < left) :
    AtDepth (outside left right) :=
  ⟨rfl, ⟨false, rfl⟩, left, right, rfl, h⟩

theorem exists_parentheses_of_balanced {text : List Char}
    (h : ((start blockFormat).balanced ('(' :: text)).2.shouldConsider = true) :
    ∃ block, ((start blockFormat).balanced ('(' :: text)).1 = '(' :: block ++ [')'] := by
  have hopening : ((start blockFormat).consider '(').2 = outside 1 0 := by
    simp [start_blockFormat, outside_consider_left]
  simp only [Engine.balanced, hopening, shouldConsider_outside] at h ⊢
  have hdeep : AtDepth (outside 1 0) := atDepth_outside (by decide)
  obtain ⟨block, hblock⟩ := hdeep.balanced (by simpa using h)
  exact ⟨block, by simpa using hblock⟩

end TextGrammar
