import TextGrammar.Proofs.Cursor.Consumption
import TextGrammar.Proofs.Token.RoundTrip

/-!
# Splitting a list with a cursor

A list is read piece by piece: each piece is scanned up to the next separator by an engine that
starts anew, and the separator is skipped.  When the items are escaped and quoted, the pieces are
the items, whatever characters these are made of.
-/

namespace TextGrammar

open Escape Engine

namespace Escape.Engine

private theorem neverSeparates_of_neverConsiders {separator c : Char} {e : Engine}
    (h : NeverConsiders c e) : NeverSeparates separator c e := fun hconsider =>
  absurd hconsider (Bool.eq_false_iff.1 h)

def PassesPiece (f : Format) (separator : Char) (piece : List Char) : Prop :=
  (start f).Passes (NeverSeparates separator) piece (start f)

variable {f : Format} {separator : Char} {piece rest : List Char}

theorem PassesPiece.feed (h : PassesPiece f separator piece) :
    ((start f).feed piece).1 = decode f piece := by
  have hflush : ((start f).feed piece).2.trailing = [] := by
    rw [Passes.feed h]
    rfl
  simp [decode, complete, hflush]

theorem PassesPiece.scanFrom (h : PassesPiece f separator piece)
    (hseparator : ((start f).consider separator).2.shouldConsider = true)
    (hrest : ∀ x ∈ rest.head?, x = separator) (resolved : Bool) :
    ∃ e : Engine, e.trailing = [] ∧
      (start f).scanFrom resolved (stopAt (· = separator)) [] 0 () (piece ++ rest) =
        ⟨if resolved then decode f piece else piece, piece.length, e, ()⟩ := by
  rw [scanFrom_append_of_passes h, h.feed]
  cases rest with
  | nil => exact ⟨start f, rfl, by simp [Engine.scanFrom]⟩
  | cons x rest =>
      obtain rfl : x = separator := hrest x rfl
      exact ⟨_, trailing_of_shouldConsider hseparator,
        by simp [Engine.scanFrom, hseparator, stopAt]⟩

end Escape.Engine

namespace Cursor

def readPiece (c : Cursor) (resolved : Bool) (e : Engine) (separator : Char) :
    List Char × Cursor :=
  let (piece, _, c) :=
    if resolved then c.readUntilConsidering e (· = separator)
    else c.readRawUntilConsidering e (· = separator)
  (piece, c)

private theorem exists_readPiece_eq (c : Cursor) (resolved : Bool) (e : Engine) (separator : Char) :
    ∃ n, (c.readPiece resolved e separator).2 = c.advance n := by
  cases resolved <;> exact ⟨_, rfl⟩

private theorem exists_of_next_eq_some {c c' : Cursor} {x : Char} (h : c.next = (some x, c')) :
    c' = c.advance 1 ∧ c.index < c.length := by
  unfold next at h
  split at h
  · rename_i y hpeek
    exact ⟨(Prod.mk.inj h).2.symm, (List.getElem?_eq_some_iff.1 hpeek).1⟩
  · cases h

/-- Reads pieces, each with an engine that was reset, until no separator is left to skip. -/
def readPieces (c : Cursor) (resolved : Bool) (e : Engine) (separator : Char) :
    List (List Char) :=
  let piece := c.readPiece resolved e.reset separator
  match _ : piece.2.next with
  | (none, _) => [piece.1]
  | (some _, c') => piece.1 :: c'.readPieces resolved e separator
termination_by c.length - c.index
decreasing_by
  rename_i hnext
  obtain ⟨n, hpiece⟩ := c.exists_readPiece_eq resolved e.reset separator
  obtain ⟨hc', hlt⟩ := exists_of_next_eq_some hnext
  rw [hpiece] at hc' hlt
  simp only [hc', length, advance] at hlt ⊢
  omega

private theorem readPieces_last {c c' : Cursor} {resolved : Bool} {e : Engine} {separator : Char}
    (h : (c.readPiece resolved e.reset separator).2.next = (none, c')) :
    c.readPieces resolved e separator = [(c.readPiece resolved e.reset separator).1] := by
  rw [readPieces]
  split
  · rfl
  · rename_i hnext
    rw [h] at hnext
    cases hnext

private theorem readPieces_more {c c' : Cursor} {resolved : Bool} {e : Engine} {separator x : Char}
    (h : (c.readPiece resolved e.reset separator).2.next = (some x, c')) :
    c.readPieces resolved e separator =
      (c.readPiece resolved e.reset separator).1 :: c'.readPieces resolved e separator := by
  rw [readPieces]
  split
  · rename_i hnext
    rw [h] at hnext
    cases hnext
  · rename_i hnext
    rw [h] at hnext
    cases hnext
    rfl

private theorem ahead_advance (c : Cursor) (n : Nat) : (c.advance n).ahead = c.ahead.drop n := by
  simp [ahead, advance]

private theorem next_eq_none {c : Cursor} (h : c.ahead = []) : c.next = (none, c) := by
  have hpeek : c.peek = none := by simpa [ahead, peek] using h
  simp [next, hpeek]

private theorem next_eq_some {c : Cursor} {x : Char} {rest : List Char} (h : c.ahead = x :: rest) :
    c.next = (some x, c.advance 1) := by
  have hpeek : c.peek = some x := by simpa [ahead, peek] using congrArg List.head? h
  simp [next, hpeek]

section Pieces

variable {f : Format} {separator : Char} (resolved : Bool)
  (hseparator : ((start f).consider separator).2.shouldConsider = true)

include hseparator

private theorem readPiece_eq {c : Cursor} {piece rest : List Char}
    (hahead : c.ahead = piece ++ rest)
    (h : PassesPiece f separator piece) (hrest : ∀ x ∈ rest.head?, x = separator) :
    c.readPiece resolved (start f) separator =
      (if resolved then decode f piece else piece, c.advance piece.length) := by
  obtain ⟨e, hflush, hscan⟩ := h.scanFrom hseparator hrest resolved
  rw [← hahead] at hscan
  cases resolved <;>
    simp [readPiece, readUntilConsidering, readRawUntilConsidering, scanResolved, scanRaw, scanned,
      hscan, hflush]

private theorem readPieces_eq {e : Engine} (hreset : e.reset = start f) {pieces : List (List Char)}
    (hne : pieces ≠ []) (h : ∀ piece ∈ pieces, PassesPiece f separator piece) {c : Cursor}
    (hahead : c.ahead = [separator].intercalate pieces) :
    c.readPieces resolved e separator =
      pieces.map fun piece => if resolved then decode f piece else piece := by
  induction pieces generalizing c with
  | nil => exact absurd rfl hne
  | cons piece pieces ih =>
      have hpiece := h piece (by simp)
      cases pieces with
      | nil =>
          have hall : c.ahead = piece ++ [] := by simpa using hahead
          have hread := readPiece_eq resolved hseparator hall hpiece (by simp)
          have hbehind : (c.advance piece.length).ahead = [] := by simp [ahead_advance, hall]
          rw [← hreset] at hread
          rw [readPieces_last (by rw [hread]; exact next_eq_none hbehind), hread]
          rfl
      | cons following pieces =>
          rw [List.intercalate_cons_cons] at hahead
          generalize hjoined : [separator].intercalate (following :: pieces) = joined at hahead
          have hall : c.ahead = piece ++ separator :: joined := by simpa using hahead
          have hread := readPiece_eq resolved hseparator hall hpiece (by simp)
          have hbehind : (c.advance piece.length).ahead = separator :: joined := by
            simp [ahead_advance, hall]
          have hrest : ((c.advance piece.length).advance 1).ahead = joined := by
            simp [ahead_advance, hall]
          have hpieces := ih (by simp) (fun other hother => h other (List.mem_cons_of_mem _ hother))
            (hrest.trans hjoined.symm)
          rw [← hreset] at hread
          rw [readPieces_more (by rw [hread]; exact next_eq_some hbehind), hread, hpieces]
          rfl

end Pieces

end Cursor

def quotingFormat : Format := Format.standard.configure (.quote '"')

private theorem decode_quoted (content : List Char) :
    decode quotingFormat ('"' :: encode .standard content ++ ['"']) = '"' :: content ++ ['"'] := by
  have hencode : encode quotingFormat content = encode .standard content := rfl
  have htrigger : quotingFormat.trigger = some '\\' := rfl
  have hcodes : ∀ c code, quotingFormat.Picks c code → code ≠ quotingFormat.unicodeCode :=
    fun c code hpick => standard_code_ne_unicodeCode hpick.1
  have hbody := decode_encode_append (f := quotingFormat) standard_table_keysDistinct htrigger
    (by decide) hcodes content ['"']
  rw [List.cons_append, decode_plain (by simp [htrigger]), ← hencode, hbody,
    decode_plain (by simp [htrigger]), decode_nil]
  rfl

private theorem passesPiece_quoted (content : List Char) :
    PassesPiece quotingFormat ',' ('"' :: encode .standard content ++ ['"']) := by
  have hinside : InLiteral { start quotingFormat with openQuotes := [true] } :=
    ⟨rfl, rfl, rfl, rfl, rfl, rfl⟩
  obtain ⟨prev, hbody⟩ := (literalBody_encode content).passes hinside
  have hopening : (start quotingFormat).consider '"' =
      (['"'], { start quotingFormat with openQuotes := [true] }) := rfl
  have hclosing := (hinside.withPrevEscaped prev).consider_quote
  refine .cons hopening (fun _ => by decide) (.append (hbody.mono ?_) ?_)
  · exact fun _ _ => neverSeparates_of_neverConsiders
  · exact .cons hclosing (fun _ => by decide) rfl

namespace Cursor

theorem quoted_lists_split_back (item : List Char) (items : List (List Char)) :
    let e := (Engine.start .standard).configure (.quote '"')
    let escaped := (item :: items).map fun content => '"' :: encode .standard content ++ ['"']
    let c : Cursor := { content := [','].intercalate escaped }
    c.readPieces true e ',' = (item :: items).map (fun content => '"' :: content ++ ['"']) ∧
      c.readPieces false e ',' = escaped := by
  intro e escaped c
  have hpasses : ∀ piece ∈ escaped, PassesPiece quotingFormat ',' piece := by
    intro piece hpiece
    obtain ⟨content, -, rfl⟩ := List.mem_map.1 hpiece
    exact passesPiece_quoted content
  have hread := fun resolved => readPieces_eq (e := e) (c := c) resolved
    (by decide : ((start quotingFormat).consider ',').2.shouldConsider = true) rfl
    (by simp [escaped]) hpasses (by simp [c, ahead])
  constructor
  · rw [hread, List.map_map]
    exact List.map_congr_left fun content _ => decode_quoted content
  · simpa using hread false

end Cursor

end TextGrammar
