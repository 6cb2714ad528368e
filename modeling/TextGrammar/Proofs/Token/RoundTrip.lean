import TextGrammar.Proofs.Token.Reading

/-!
# Written tokens are read back

Both layouts write token text that the grammar has the same token for: what is between the
parentheses is a block of the elements, and an escaped text is the body of a string literal.  That
the reader answers the token is then a matter of the grammar alone.
-/

namespace TextGrammar

open Text Escape

theorem literalBody_encode (content : List Char) : LiteralBody (encode .standard content) := by
  induction content with
  | nil => simpa using LiteralBody.nil
  | cons c content ih =>
      cases hcode : codeFor? .standard c with
      | some code =>
          have hpick := (codeFor?_eq_some_iff standard_table_keysDistinct).1 hcode
          rw [encode_cons_code rfl hcode]
          exact .code (standard_code_ne_unicodeCode hpick.1) ih
      | none =>
          rw [encode_cons_self hcode]
          refine .plain ?_ ?_ ih
          · rintro rfl
            exact absurd hcode (by decide)
          · rintro rfl
            exact absurd hcode (by decide)

private theorem itemText_writeText (content : String) :
    ItemText (writeText content) [.text content] := by
  have hitem := ItemText.literal (literalBody_encode content.toList)
  rwa [decode_encode_standard, String.ofList_toList] at hitem

private theorem isBlankText_indentation (depth : Nat) : IsBlankText (indentation depth) := by
  intro c hc
  obtain ⟨-, rfl⟩ := List.mem_replicate.1 hc
  decide

private theorem tokenText_of_head {front block : List Char} {elements : List Element}
    (name : TokenName) (hfront : IsBlankText front) (hblock : BlockText block elements) :
    TokenText (front ++ writeHead name ++ block ++ [')']) ⟨name, elements⟩ := by
  have htext : TokenText _ ⟨name, elements⟩ :=
    .intro hfront isBlankText_nil isBlankText_nil hblock
  simpa [writeHead, tokenPrefix] using htext

private theorem blockText_blank {text : List Char} (h : IsBlankText text) : BlockText text [] := by
  simpa using BlockText.last h isBlankText_nil .empty

private theorem isBlankText_space : IsBlankText [' '] := isBlankText_singleton (by decide)

private theorem isBlankText_newline : IsBlankText ['\n'] := isBlankText_singleton (by decide)

namespace Element

mutual

theorem itemText_write : ∀ e : Element, ItemText e.write [e]
  | .text content => itemText_writeText content
  | .node name elements => by
      have hblock := blockText_writeList elements [] isBlankText_nil
      exact .token (tokenText_of_head name isBlankText_nil hblock)

theorem blockText_writeList : ∀ (elements : List Element) (front : List Char), IsBlankText front →
    BlockText (front ++ writeList elements) elements
  | [], front, hfront => by simpa [writeList] using blockText_blank hfront
  | [e], front, hfront => by
      have hlast := BlockText.last hfront isBlankText_nil (itemText_write e)
      simpa [writeList] using hlast
  | e :: e' :: elements, front, hfront => by
      have hrest := blockText_writeList (e' :: elements) [' '] isBlankText_space
      have hcons := BlockText.cons hfront isBlankText_nil (itemText_write e) hrest
      simpa [writeList] using hcons

end

private theorem tokenText_writeLong {depth : Nat} {name : TokenName} {elements : List Element}
    (hblock : ∀ front back : List Char, IsBlankText front → IsBlankText back →
      BlockText (front ++ writeLongList (depth + 1) elements ++ back) elements) :
    TokenText ((Element.node name elements).writeLong depth) ⟨name, elements⟩ := by
  have hindentation := isBlankText_indentation depth
  cases elements with
  | nil =>
      have hempty := hblock [] [] isBlankText_nil isBlankText_nil
      simpa [writeLong, writeLongList] using tokenText_of_head name hindentation hempty
  | cons e elements =>
      have hlines := hblock ['\n'] ('\n' :: indentation depth) isBlankText_newline
        (isBlankText_newline.append hindentation)
      simpa [writeLong] using tokenText_of_head name hindentation hlines

mutual

theorem itemText_writeLong : ∀ (e : Element) (depth : Nat), ∃ front item,
    e.writeLong depth = front ++ item ∧ IsBlankText front ∧ ItemText item [e]
  | .text content, depth =>
      ⟨_, _, by rw [writeLong], isBlankText_indentation depth, itemText_writeText content⟩
  | .node name elements, depth => by
      have htoken : TokenText ((Element.node name elements).writeLong depth) ⟨name, elements⟩ :=
        tokenText_writeLong (blockText_writeLongList elements (depth + 1))
      refine ⟨[], (Element.node name elements).writeLong depth, ?_, isBlankText_nil, ?_⟩
      · rw [List.nil_append]
      · exact .token htoken

theorem blockText_writeLongList : ∀ (elements : List Element) (depth : Nat)
    (front back : List Char), IsBlankText front → IsBlankText back →
      BlockText (front ++ writeLongList depth elements ++ back) elements
  | [], depth, front, back, hfront, hback => by
      simpa [writeLongList] using blockText_blank (hfront.append hback)
  | [e], depth, front, back, hfront, hback => by
      obtain ⟨pad, item, hwrite, hpad, hitem⟩ := itemText_writeLong e depth
      have hlast := BlockText.last (hfront.append hpad) hback hitem
      simpa [writeLongList, hwrite] using hlast
  | e :: e' :: elements, depth, front, back, hfront, hback => by
      obtain ⟨pad, item, hwrite, hpad, hitem⟩ := itemText_writeLong e depth
      have hrest :=
        blockText_writeLongList (e' :: elements) depth ['\n'] back isBlankText_newline hback
      have hcons := BlockText.cons (hfront.append hpad) isBlankText_nil hitem hrest
      simpa [writeLongList, hwrite] using hcons

end

end Element

namespace Token

theorem tokenText_write (t : Token) : TokenText t.write t := by
  have hblock := Element.blockText_writeList t.elements [] isBlankText_nil
  exact tokenText_of_head t.name isBlankText_nil hblock

theorem tokenText_writeLong (t : Token) : TokenText t.writeLong t :=
  Element.tokenText_writeLong (Element.blockText_writeLongList t.elements 1)

theorem written_reads_back (t : Token) : parse t.write = .ok t ∧ parse t.writeLong = .ok t :=
  ⟨t.tokenText_write.parse, t.tokenText_writeLong.parse⟩

end Token

end TextGrammar
