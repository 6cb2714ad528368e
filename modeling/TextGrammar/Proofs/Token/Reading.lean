import TextGrammar.Proofs.Token.Blocks

/-!
# Reading token text

The reader accepts exactly the texts of the grammar, and answers the token that the grammar has for
them.  The outline of a text in the grammar is known from its parts; conversely a text whose outline
has a name has all of these parts.  What the items of a block stand for then follows one by one.
-/

namespace TextGrammar

open Text Escape Engine

@[simp] theorem TokenName.ofString?_text (name : TokenName) :
    TokenName.ofString? name.text = .ok name := by
  simp [ofString?, name.valid]

theorem TokenName.text_of_ofString? {text : String} {name : TokenName}
    (h : TokenName.ofString? text = .ok name) : name.text = text := by
  unfold ofString? at h
  split at h
  · cases h
    rfl
  · split at h <;> exact absurd h nofun

private theorem outline_of_parts {front behind : List Char} (name : TokenName)
    (hfront : IsBlankText front) (hbehind : IsBlankText behind) (text : List Char) :
    outline (front ++ '@' :: name.text.toList ++ behind ++ '(' :: text) =
      outlineBlock name ('(' :: text) := by
  have hshape : front ++ '@' :: name.text.toList ++ behind ++ '(' :: text =
      front ++ ('@' :: name.text.toList ++ behind ++ '(' :: text) := by simp
  have hstart : trimStart (front ++ '@' :: name.text.toList ++ behind ++ '(' :: text) =
      '@' :: name.text.toList ++ behind ++ '(' :: text := by
    rw [hshape, trimStart_append hfront]
    apply trimStart_eq_self
    intro c hc
    cases hc
    decide
  have hleft : ∀ c ∈ '@' :: name.text.toList ++ behind, decide (c ≠ '(') = true := by
    intro c hc
    apply decide_eq_true
    simp only [List.mem_append, List.mem_cons] at hc
    rcases hc with (rfl | hc) | hc
    · decide
    · exact (name.isQuiet c hc).ne_left
    · exact (isQuiet_of_isBlank (hbehind c hc)).ne_left
  have hhead : trim ('@' :: name.text.toList ++ behind) = '@' :: name.text.toList := by
    simpa using trim_pad isBlankText_nil hbehind (name.isTight.cons (c := '@') (by decide))
  simp only [outline, hstart, List.takeWhile_append_of_pos hleft,
    List.dropWhile_append_of_pos hleft]
  simp only [List.takeWhile_cons, List.dropWhile_cons, ne_eq, not_true_eq_false, decide_false,
    Bool.false_eq_true, if_false, List.append_nil, hhead]
  simp [tokenPrefix]

private theorem outline_of_block {front behind block : List Char} {elements : List Element}
    (name : TokenName) (hfront : IsBlankText front) (hbehind : IsBlankText behind)
    (hblock : BlockText block elements) (rest : List Char) :
    outline (front ++ '@' :: name.text.toList ++ behind ++ '(' :: block ++ ')' :: rest) =
      ⟨.ok name, parametersOf ('(' :: block ++ [')']), rest⟩ := by
  obtain ⟨depth, hcut⟩ := hblock.balanced rest
  have hparts := outline_of_parts name hfront hbehind (block ++ ')' :: rest)
  rw [List.append_assoc, List.cons_append, hparts, outlineBlock, ← List.cons_append, hcut]
  simp

private theorem parts_of_outlineBlock {name name' : TokenName} {text : List Char}
    (h : (outlineBlock name ('(' :: text)).name = .ok name') : name' = name ∧ ∃ block rest,
      text = block ++ ')' :: rest ∧ outlineBlock name ('(' :: text) =
        ⟨.ok name, parametersOf ('(' :: block ++ [')']), rest⟩ := by
  have hall := balanced_append_drop ('(' :: text) (start blockFormat)
  by_cases hconsider : ((start blockFormat).balanced ('(' :: text)).2.shouldConsider = true
  · obtain ⟨block, hblock⟩ := exists_parentheses_of_balanced hconsider
    simp only [outlineBlock, hconsider, if_true, Except.ok.injEq] at h
    refine ⟨h.symm, block, ('(' :: text).drop ('(' :: block ++ [')']).length, ?_, ?_⟩
    · rw [hblock] at hall
      simpa using hall.symm
    · simp [outlineBlock, hconsider, hblock]
  · simp [outlineBlock, hconsider] at h

private theorem head_of_outline {text : List Char} {name : TokenName}
    (h : (outline text).name = .ok name) : ∃ found : TokenName,
      trim ((trimStart text).takeWhile (· ≠ '(')) = '@' :: found.text.toList ∧
      (trimStart text).dropWhile (· ≠ '(') ≠ [] := by
  simp only [outline] at h
  generalize (trimStart text).takeWhile (· ≠ '(') = head at h ⊢
  generalize (trimStart text).dropWhile (· ≠ '(') = rest at h ⊢
  cases htrim : trim head with
  | nil => simp [htrim] at h
  | cons c chars =>
      by_cases hmark : c = tokenPrefix
      · by_cases hrest : rest = []
        · simp [htrim, hmark, hrest] at h
        cases hname : TokenName.ofString? (String.ofList chars) with
        | error e => simp [htrim, hmark, hrest, hname] at h
        | ok found =>
            have htext := TokenName.text_of_ofString? hname
            exact ⟨found, by simp [hmark, tokenPrefix, htext], hrest⟩
      · simp [htrim, hmark] at h

private theorem parts_of_outline {text : List Char} {name : TokenName}
    (h : (outline text).name = .ok name) : ∃ front behind block rest,
      IsBlankText front ∧ IsBlankText behind ∧
      text = front ++ '@' :: name.text.toList ++ behind ++ '(' :: block ++ ')' :: rest ∧
      outline text = ⟨.ok name, parametersOf ('(' :: block ++ [')']), rest⟩ := by
  obtain ⟨front, hfront, htext⟩ := exists_eq_append_trimStart text
  obtain ⟨pad, behind, hpad, hbehind, hhead⟩ :=
    exists_eq_pad_trim ((trimStart text).takeWhile (· ≠ '('))
  have hparts := List.takeWhile_append_dropWhile (p := (· ≠ '(')) (l := trimStart text)
  have hstop := List.head?_dropWhile_not (· ≠ '(') (trimStart text)
  obtain ⟨found, hfound, hrest⟩ := head_of_outline h
  cases hdrop : (trimStart text).dropWhile (· ≠ '(') with
  | nil => exact absurd hdrop hrest
  | cons c inner =>
      rw [hdrop] at hstop
      obtain rfl : c = '(' := by simpa using hstop
      rw [hdrop, hhead, hfound] at hparts
      have hall : text = front ++ pad ++ '@' :: found.text.toList ++ behind ++ '(' :: inner := by
        rw [htext, ← hparts]
        simp
      have houtline := outline_of_parts found (hfront.append hpad) hbehind inner
      rw [← hall] at houtline
      obtain ⟨hname, block, rest, hblock, hcut⟩ := parts_of_outlineBlock (houtline ▸ h)
      subst hname hblock
      refine ⟨front ++ pad, behind, block, rest, hfront.append hpad, hbehind, ?_, ?_⟩
      · simpa using hall
      · rw [houtline, hcut]

theorem parametersOf_parentheses (block : List Char) :
    parametersOf ('(' :: block ++ [')']) =
      (split blockFormat ',' block).map fun param => .ofTrimmed (trim param) := by
  simp [parametersOf]

private theorem unquote?_quoted {body : List Char} (h : LiteralBody body) :
    unquote? ('"' :: body ++ ['"']) = some (decode .standard body) := by
  have hbody := (isLiteralBody_iff (e := start .standard) rfl rfl rfl body).2 h
  simp [unquote?, hbody]

private theorem literal_of_unquote? {param content : List Char}
    (h : unquote? param = some content) :
    ∃ body, LiteralBody body ∧ param = '"' :: body ++ ['"'] ∧ content = decode .standard body := by
  cases param with
  | nil => simp [unquote?] at h
  | cons c rest =>
      simp only [unquote?] at h
      split at h
      · rename_i hquoted
        obtain ⟨rfl, hlast, hbody⟩ := hquoted
        obtain ⟨body, rfl⟩ := List.getLast?_eq_some_iff.1 hlast
        rw [List.dropLast_concat] at hbody h
        exact ⟨body, (isLiteralBody_iff rfl rfl rfl body).1 hbody, rfl, (Option.some.inj h).symm⟩
      · cases h

/-! ## From grammar to reader -/

section Answers

variable {ε α β : Type}

private theorem bind_eq_ok_iff {x : Except ε α} {f : α → Except ε β} {b : β} :
    (x >>= f) = .ok b ↔ ∃ a, x = .ok a ∧ f a = .ok b := by
  cases x <;> simp [bind, Except.bind]

private theorem mapM_cons_eq_ok_iff {f : α → Except ε β} {a : α} {as : List α} {bs : List β} :
    (a :: as).mapM f = .ok bs ↔ ∃ b rest, f a = .ok b ∧ as.mapM f = .ok rest ∧ bs = b :: rest := by
  simp only [List.mapM_cons, bind_eq_ok_iff]
  constructor
  · rintro ⟨b, hb, rest, hrest, hbs⟩
    cases hbs
    exact ⟨b, rest, hb, hrest, rfl⟩
  · rintro ⟨b, rest, hb, hrest, rfl⟩
    exact ⟨b, hb, rest, hrest, rfl⟩

end Answers

namespace Token

theorem finish_eq_ok_iff {text : List Char} : finish text = .ok () ↔ IsBlankText text := by
  obtain ⟨front, hfront, htext⟩ := exists_eq_append_trimStart text
  constructor
  · intro h
    unfold finish at h
    split at h
    · rename_i hnil
      rwa [htext, hnil, List.append_nil]
    · exact absurd h nofun
  · intro h
    simp [finish, trimStart_eq_nil h]

/-- A text starts with a token when its outline has a name and its parameters have elements. -/
private theorem first_eq_ok_iff_outline {text : List Char} {t : Token} :
    first text = .ok t ↔ (outline text).name = .ok t.name ∧
      ∃ parts, (outline text).parameters.mapM elementsOf = .ok parts ∧
        parts.flatten = t.elements := by
  simp only [first_eq, bind_eq_ok_iff]
  constructor
  · rintro ⟨name, hname, parts, hparts, ht⟩
    cases ht
    exact ⟨hname, parts, hparts, rfl⟩
  · rintro ⟨hname, parts, hparts, hflatten⟩
    refine ⟨t.name, hname, parts, hparts, ?_⟩
    rw [hflatten]
    rfl

theorem parse_eq_ok_iff {text : List Char} {t : Token} :
    parse text = .ok t ↔ first text = .ok t ∧ IsBlankText (rest text) := by
  rw [← finish_eq_ok_iff]
  simp only [parse, bind_eq_ok_iff]
  constructor
  · rintro ⟨_, hfirst, ⟨⟩, hrest, ht⟩
    cases ht
    exact ⟨hfirst, hrest⟩
  · rintro ⟨hfirst, hrest⟩
    exact ⟨t, hfirst, (), hrest, rfl⟩

def ReadsBlock (block : List Char) (elements : List Element) : Prop :=
  ∃ parts, (parametersOf ('(' :: block ++ [')'])).mapM elementsOf = .ok parts ∧
    parts.flatten = elements

theorem first_of_block {front behind block : List Char} {elements : List Element}
    (name : TokenName) (hfront : IsBlankText front) (hbehind : IsBlankText behind)
    (hblock : BlockText block elements) (hreads : ReadsBlock block elements)
    (more : List Char) :
    first (front ++ '@' :: name.text.toList ++ behind ++ '(' :: block ++ ')' :: more) =
        .ok ⟨name, elements⟩ ∧
      rest (front ++ '@' :: name.text.toList ++ behind ++ '(' :: block ++ ')' :: more) = more := by
  rw [first_eq_ok_iff_outline, rest, outline_of_block name hfront hbehind hblock]
  exact ⟨⟨rfl, hreads⟩, rfl⟩

private theorem parse_of_block {front behind back block : List Char} {elements : List Element}
    (name : TokenName) (hfront : IsBlankText front) (hbehind : IsBlankText behind)
    (hback : IsBlankText back) (hblock : BlockText block elements)
    (hreads : ReadsBlock block elements) :
    parse (front ++ '@' :: name.text.toList ++ behind ++ '(' :: block ++ ')' :: back) =
      .ok ⟨name, elements⟩ := by
  obtain ⟨hfirst, hrest⟩ := first_of_block name hfront hbehind hblock hreads back
  rw [parse_eq_ok_iff, hrest]
  exact ⟨hfirst, hback⟩

private theorem trim_tokenText {front behind back block : List Char} {name : TokenName}
    (hfront : IsBlankText front) (hback : IsBlankText back) :
    trim (front ++ '@' :: name.text.toList ++ behind ++ '(' :: block ++ ')' :: back) =
      '@' :: name.text.toList ++ behind ++ '(' :: block ++ [')'] := by
  have htight : IsTight ('@' :: (name.text.toList ++ behind ++ '(' :: block) ++ [')']) :=
    isTight_between (by decide) (by decide) _
  simpa using trim_pad hfront hback htight

end Token

open Token in
private theorem elementsOf_token {text : List Char} {t : Token} (h : parse text = .ok t)
    (hmark : text.head? = some '@') : elementsOf (.ofTrimmed text) = .ok [t.toElement] := by
  cases text with
  | nil => exact absurd hmark nofun
  | cons c rest =>
      cases hmark
      simp [Parameter.ofTrimmed, tokenPrefix, elementsOf, h, Except.map]

open Token in
private theorem elementsOf_literal {body : List Char} (h : LiteralBody body) :
    elementsOf (.ofTrimmed ('"' :: body ++ ['"'])) =
      .ok [.text (String.ofList (decode .standard body))] := by
  have hquoted := unquote?_quoted h
  rw [List.cons_append] at hquoted ⊢
  simp [Parameter.ofTrimmed, tokenPrefix, hquoted, elementsOf]

mutual

theorem TokenText.reads : ∀ {text : List Char} {t : Token}, TokenText text t →
    ∀ front back : List Char, IsBlankText front → IsBlankText back →
      Token.elementsOf (.ofTrimmed (trim (front ++ text ++ back))) = .ok [t.toElement]
  | _, _, @TokenText.intro inner behind outer block name elements hinner hbehind houter hblock => by
      intro front back hfront hback
      have hshape : front ++ (inner ++ '@' :: name.text.toList ++ behind ++ '(' :: block ++
          ')' :: outer) ++ back = front ++ inner ++ '@' :: name.text.toList ++ behind ++
            '(' :: block ++ ')' :: (outer ++ back) := by simp
      have hparse := Token.parse_of_block name isBlankText_nil hbehind isBlankText_nil hblock
        (BlockText.reads hblock)
      rw [hshape, Token.trim_tokenText (hfront.append hinner) (houter.append hback)]
      exact elementsOf_token hparse rfl

theorem BlockText.reads : ∀ {block : List Char} {elements : List Element},
    BlockText block elements → Token.ReadsBlock block elements
  | _, _, .last hfront hback hitem => by
      have hpad := (ItemText.passes hitem).pad hfront hback
      have hreads := ItemText.reads hitem _ _ hfront hback
      refine ⟨[_], ?_, List.flatten_singleton⟩
      rw [parametersOf_parentheses, hpad.split]
      exact mapM_cons_eq_ok_iff.2 ⟨_, [], hreads, rfl, rfl⟩
  | _, _, .cons hfront hback hitem hrest => by
      have hpad := (ItemText.passes hitem).pad hfront hback
      have hreads := ItemText.reads hitem _ _ hfront hback
      obtain ⟨parts, hparts, hflatten⟩ := BlockText.reads hrest
      rw [parametersOf_parentheses] at hparts
      refine ⟨_ :: parts, ?_, by rw [List.flatten_cons, hflatten]⟩
      rw [parametersOf_parentheses, hpad.split_append]
      exact mapM_cons_eq_ok_iff.2 ⟨_, parts, hreads, hparts, rfl⟩

theorem ItemText.reads : ∀ {item : List Char} {elements : List Element}, ItemText item elements →
    ∀ front back : List Char, IsBlankText front → IsBlankText back →
      Token.elementsOf (.ofTrimmed (trim (front ++ item ++ back))) = .ok elements
  | _, _, .empty => by
      intro front back hfront hback
      rw [trim_pad hfront hback ⟨by simp, by simp⟩]
      rfl
  | _, _, .null => by
      intro front back hfront hback
      have htight : IsTight ['n', 'u', 'l', 'l'] :=
        isTight_between (by decide) (by decide) ['u', 'l']
      rw [trim_pad hfront hback htight]
      rfl
  | _, _, .token h => TokenText.reads h
  | _, _, .literal h => by
      intro front back hfront hback
      rw [trim_pad hfront hback (isTight_between (by decide) (by decide) _)]
      exact elementsOf_literal h

end

theorem TokenText.parse {text : List Char} {t : Token} (h : TokenText text t) :
    Token.parse text = .ok t := by
  cases h with
  | intro hfront hbehind hback hblock =>
      exact Token.parse_of_block _ hfront hbehind hback hblock hblock.reads

/-! ## From reader to grammar -/

open Token in
theorem ItemText.of_elementsOf {param : List Char} {elements : List Element}
    (htoken : ∀ t, parse param = .ok t → TokenText param t)
    (h : elementsOf (.ofTrimmed param) = .ok elements) : ItemText param elements := by
  by_cases hskipped : param = [] ∨ param = ['n', 'u', 'l', 'l']
  · rw [Parameter.ofTrimmed, if_pos hskipped] at h
    cases h
    rcases hskipped with rfl | rfl
    · exact .empty
    · exact .null
  rw [Parameter.ofTrimmed, if_neg hskipped] at h
  by_cases hmark : param.head? = some tokenPrefix
  · rw [if_pos hmark, elementsOf] at h
    cases hparse : parse param with
    | error e =>
        rw [hparse] at h
        cases h
    | ok t =>
        rw [hparse] at h
        cases h
        exact .token (htoken t hparse)
  · rw [if_neg hmark] at h
    cases hcontent : unquote? param with
    | none =>
        rw [hcontent] at h
        cases h
    | some content =>
        rw [hcontent] at h
        cases h
        obtain ⟨body, hbody, hparam, hdecode⟩ := literal_of_unquote? hcontent
        rw [hparam, hdecode]
        exact .literal hbody

open Token in
theorem BlockText.of_pieces {pieces : List (List Char)} (hne : pieces ≠ [])
    (htoken : ∀ piece ∈ pieces, ∀ t, parse (trim piece) = .ok t → TokenText (trim piece) t) :
    ∀ {parts : List (List Element)},
      (pieces.map fun param => Parameter.ofTrimmed (trim param)).mapM elementsOf = .ok parts →
        BlockText ([','].intercalate pieces) parts.flatten := by
  -- By induction on the pieces between the commas.
  induction pieces with
  | nil => exact absurd rfl hne
  | cons piece pieces ih =>
      intro parts h
      obtain ⟨elements, rest, hfirst, hrest, rfl⟩ := mapM_cons_eq_ok_iff.1 h
      have hitem := ItemText.of_elementsOf (htoken piece List.mem_cons_self) hfirst
      obtain ⟨front, back, hfront, hback, hpiece⟩ := exists_eq_pad_trim piece
      cases pieces with
      | nil =>
          obtain rfl : [] = rest := Except.ok.inj hrest
          rw [List.flatten_singleton, List.intercalate_singleton, hpiece]
          exact .last hfront hback hitem
      | cons next pieces =>
          have hmore := ih nofun (fun p hp => htoken p (List.mem_cons_of_mem _ hp)) hrest
          rw [List.flatten_cons, List.intercalate_cons_cons, hpiece]
          have hcons := BlockText.cons hfront hback hitem hmore
          simpa using hcons

theorem Token.parts_of_first {text : List Char} {t : Token} (h : first text = .ok t)
    (hshorter : ∀ nested : List Char, nested.length < text.length → ∀ t,
      Token.parse nested = .ok t → TokenText nested t) :
    ∃ front behind block, IsBlankText front ∧ IsBlankText behind ∧ BlockText block t.elements ∧
      text = front ++ '@' :: t.name.text.toList ++ behind ++ '(' :: block ++ ')' :: rest text := by
  obtain ⟨hname, parts, hparts, hflatten⟩ := first_eq_ok_iff_outline.1 h
  obtain ⟨front, behind, block, back, hfront, hbehind, htext, houtline⟩ := parts_of_outline hname
  have hrest : rest text = back := by rw [rest, houtline]
  rw [houtline, parametersOf_parentheses] at hparts
  have hblock := BlockText.of_pieces (splitFrom_ne_nil block (start blockFormat)) ?_ hparts
  · rw [intercalate_splitFrom, hflatten] at hblock
    exact ⟨front, behind, block, hfront, hbehind, hblock, by rwa [hrest]⟩
  · intro piece hpiece nested hnested
    have hlen := length_le_of_mem_splitFrom ',' block (start blockFormat) piece hpiece
    have htrim := length_trim_le piece
    refine hshorter _ ?_ _ hnested
    rw [htext]
    simp only [List.length_append, List.length_cons]
    omega

theorem TokenText.of_parse {text : List Char} {t : Token} (h : Token.parse text = .ok t) :
    TokenText text t := by
  -- By induction on the length: the items of a block are shorter than the token.
  obtain ⟨hfirst, hback⟩ := Token.parse_eq_ok_iff.1 h
  obtain ⟨front, behind, block, hfront, hbehind, hblock, htext⟩ :=
    Token.parts_of_first hfirst fun nested hlt t hnested => TokenText.of_parse hnested
  rw [htext]
  exact .intro hfront hbehind hback hblock
termination_by text.length

theorem Token.parse_accepts_exactly_grammar (text : List Char) (t : Token) :
    Token.parse text = .ok t ↔ TokenText text t :=
  ⟨TokenText.of_parse, TokenText.parse⟩

end TextGrammar
