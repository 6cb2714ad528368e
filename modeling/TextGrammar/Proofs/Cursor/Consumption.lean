import TextGrammar.Cursor
import TextGrammar.Proofs.Escape.Passage
import TextGrammar.Proofs.Escape.Stopping
import TextGrammar.Proofs.Text.Position

/-!
# What a cursor passes over

However it is moved and whatever is read through it, a cursor stays inside its text, which never
changes.  A raw read returns the characters between the places where it started and where it ended,
so that raw reads one after another make up the text they pass over.
-/

namespace TextGrammar.Cursor

open Escape Text

/-- The reads that return characters of the text as they are. -/
inductive RawRead where
  | nextN (n : Nat)
  | nextNIgnoring (n : Nat) (ignored : Char → Bool)
  | readUntil (p : Char → Bool)
  | readUntilAny (stops : List Char)
  | readWhile (p : Char → Bool)
  | readWhileAccumulated (p : List Char → Bool)
  | readWhileRule (fuel : Nat) (rule : Rule)
  | remaining
  | readRawUntilConsidering (e : Engine) (p : Char → Bool)
  | readBalanced (e : Engine)

def RawRead.perform (c : Cursor) : RawRead → Option (List Char × Cursor)
  | .nextN n => some (c.nextN n)
  | .nextNIgnoring n ignored => some (c.nextNIgnoring n ignored)
  | .readUntil p => some (c.readUntil p)
  | .readUntilAny stops => some (c.readUntilAny stops)
  | .readWhile p => some (c.readWhile p)
  | .readWhileAccumulated p => some (c.readWhileAccumulated p)
  | .readWhileRule fuel rule => c.readWhileRule fuel rule
  | .remaining => some c.remaining
  | .readRawUntilConsidering e p =>
      let (taken, _, c) := c.readRawUntilConsidering e p
      some (taken, c)
  | .readBalanced e =>
      let (taken, _, c) := c.readBalanced e
      some (taken, c)

/-- Whatever may move a cursor or change its context. -/
inductive Operation where
  | raw (read : RawRead)
  | jumpTo (i : Nat)
  | next
  | previous
  | back
  | backBy (n : Nat)
  | consumeIf (p : Char → Bool)
  | consumeAll (p : Char → Bool)
  | backWhile (p : Char → Bool)
  | readUntilConsidering (e : Engine) (p : Char → Bool)
  | remainingConsidering (e : Engine)
  | readUntilAccumulatedConsidering (e : Engine) (p : List Char → Bool)
  | readUntilRule (fuel : Nat) (e : Engine) (rule : Rule)
  | readUntilAccumulatedRule (fuel : Nat) (e : Engine) (rule : Rule)
  | setContext (context : Context)

def Operation.perform (c : Cursor) : Operation → Option Cursor
  | .raw read => (read.perform c).map Prod.snd
  | .jumpTo i => some (c.jumpTo i)
  | .next => some c.next.2
  | .previous => some c.previous.2
  | .back => some c.back
  | .backBy n => some (c.backBy n)
  | .consumeIf p => some (c.consumeIf p).2
  | .consumeAll p => some (c.consumeAll p).2
  | .backWhile p => some (c.backWhile p)
  | .readUntilConsidering e p => some (c.readUntilConsidering e p).2.2
  | .remainingConsidering e => some (c.remainingConsidering e).2.2
  | .readUntilAccumulatedConsidering e p => some (c.readUntilAccumulatedConsidering e p).2.2
  | .readUntilRule fuel e rule => (c.readUntilRule fuel e rule).map (·.2.2)
  | .readUntilAccumulatedRule fuel e rule =>
      (c.readUntilAccumulatedRule fuel e rule).map (·.2.2)
  | .setContext context => some { c with context }

def performAll (c : Cursor) (operations : List Operation) : Option Cursor :=
  operations.foldlM Operation.perform c

def readAll (c : Cursor) : List RawRead → Option (List Char × Cursor)
  | [] => some ([], c)
  | read :: reads => do
      let (taken, c) ← read.perform c
      let (more, c) ← readAll c reads
      some (taken ++ more, c)

structure Moves (c c' : Cursor) : Prop where
  content : c'.content = c.content
  index_le : c.index ≤ c.length → c'.index ≤ c.length

namespace Moves

variable {c c' c'' : Cursor}

theorem refl (c : Cursor) : Moves c c := ⟨rfl, id⟩

theorem trans (h : Moves c c') (h' : Moves c' c'') : Moves c c'' where
  content := h'.content.trans h.content
  index_le hc := by
    have hlength : c'.length = c.length := congrArg List.length h.content
    have hle := h'.index_le (hlength ▸ h.index_le hc)
    rwa [hlength] at hle

theorem advance {n : Nat} (hn : n ≤ c.ahead.length) : Moves c (c.advance n) where
  content := rfl
  index_le hc := by
    simp only [ahead, List.length_drop] at hn
    simp only [Cursor.advance, length] at hc ⊢
    omega

theorem backBy (c : Cursor) (n : Nat) : Moves c (c.backBy n) where
  content := rfl
  index_le hc := Nat.le_trans (Nat.sub_le _ _) hc

theorem jumpTo (c : Cursor) (i : Nat) : Moves c (c.jumpTo i) := by
  unfold Cursor.jumpTo
  split
  · rename_i hi
    exact ⟨rfl, fun _ => hi⟩
  · exact .refl c

theorem advance_of_peek {x : Char} (h : c.peek = some x) : Moves c (c.advance 1) := by
  obtain ⟨hlt, -⟩ := List.getElem?_eq_some_iff.1 h
  refine .advance ?_
  simp only [ahead, List.length_drop]
  omega

theorem next (c : Cursor) : Moves c c.next.2 := by
  unfold Cursor.next
  split
  · rename_i x hx
    exact advance_of_peek hx
  · exact .refl c

theorem previous (c : Cursor) : Moves c c.previous.2 := by
  unfold Cursor.previous
  split
  · exact backBy c 1
  · exact .refl c

theorem consumeIf (c : Cursor) (p : Char → Bool) : Moves c (c.consumeIf p).2 := by
  unfold Cursor.consumeIf
  split
  · rename_i hnext
    obtain ⟨x, hx, -⟩ := (Option.any_eq_true p c.peek).1 hnext
    exact advance_of_peek hx
  · exact .refl c

theorem consumeAll (c : Cursor) (p : Char → Bool) : Moves c (c.consumeAll p).2 :=
  .advance (List.takeWhile_prefix p).length_le

theorem scanned {σ : Type} {scan : Scan σ} (h : scan.length ≤ c.ahead.length) :
    Moves c (c.scanned scan).2.2 := .advance h

theorem readUntilRule {fuel : Nat} {e e' : Engine} {rule : Rule} {text : List Char}
    (h : c.readUntilRule fuel e rule = some (text, e', c')) : Moves c c' := by
  obtain ⟨context, -, hc'⟩ := Option.map_eq_some_iff.1 h
  cases hc'
  exact ⟨rfl, (scanned (e.length_scanResolved_le _ _ _)).index_le⟩

theorem readUntilAccumulatedRule {fuel : Nat} {e e' : Engine} {rule : Rule} {text : List Char}
    (h : c.readUntilAccumulatedRule fuel e rule = some (text, e', c')) : Moves c c' := by
  obtain ⟨-, -, hc'⟩ := Option.map_eq_some_iff.1 h
  cases hc'
  exact scanned (e.length_scanResolved_le _ _ _)

end Moves

/-! ## Raw reads -/

structure Reads (c : Cursor) (taken : List Char) (c' : Cursor) : Prop where
  content : c'.content = c.content
  index : c'.index = c.index + taken.length
  ahead : taken <+: c.ahead

namespace Reads

variable {c c' c'' : Cursor} {taken more : List Char}

theorem moves (h : Reads c taken c') : Moves c c' where
  content := h.content
  index_le hc := by
    have hle := (Moves.advance h.ahead.length_le).index_le hc
    rwa [h.index]

theorem ahead_eq (h : Reads c taken c') : c.ahead = taken ++ c'.ahead := by
  obtain ⟨rest, hrest⟩ := h.ahead
  have hdrop : c'.ahead = c.ahead.drop taken.length := by
    simp only [Cursor.ahead, h.content, h.index, List.drop_drop]
  rw [hdrop, ← hrest, List.drop_left]

theorem trans (h : Reads c taken c') (h' : Reads c' more c'') : Reads c (taken ++ more) c'' where
  content := h'.content.trans h.content
  index := by rw [h'.index, h.index, List.length_append, Nat.add_assoc]
  ahead := by
    rw [h.ahead_eq]
    exact (List.prefix_append_right_inj taken).2 h'.ahead

theorem between (h : Reads c taken c') :
    taken = (c.content.take c'.index).drop c.index := by
  rw [List.drop_take, h.index, Nat.add_sub_cancel_left]
  exact List.prefix_iff_eq_take.1 h.ahead

theorem reading (h : taken <+: c.ahead) : Reads c taken (c.reading taken).2 := ⟨rfl, rfl, h⟩

end Reads

private theorem takeCounting_isPrefix (ignored : Char → Bool) (text : List Char) (n : Nat) :
    takeCounting ignored text n <+: text := by
  induction text generalizing n with
  | nil => exact List.nil_prefix
  | cons x text ih =>
      simp only [takeCounting]
      split
      · exact List.nil_prefix
      · exact (List.prefix_cons_inj x).2 (ih _)

private theorem exists_accumulate_eq (p : List Char → Bool) (sofar text : List Char) :
    ∃ taken, taken <+: text ∧ accumulate p sofar text = sofar ++ taken := by
  induction text generalizing sofar with
  | nil => exact ⟨[], List.nil_prefix, by simp [accumulate]⟩
  | cons x text ih =>
      simp only [accumulate]
      split
      · obtain ⟨taken, htaken, heq⟩ := ih (sofar ++ [x])
        exact ⟨x :: taken, (List.prefix_cons_inj x).2 htaken, by simp [heq]⟩
      · exact ⟨[], List.nil_prefix, by simp⟩

private theorem accumulate_isPrefix (p : List Char → Bool) (text : List Char) :
    accumulate p [] text <+: text := by
  obtain ⟨taken, htaken, heq⟩ := exists_accumulate_eq p [] text
  rw [heq]
  exact htaken

private theorem exists_accumulate?_eq {p : List Char → Option Bool}
    {sofar text accumulated : List Char} (h : accumulate? p sofar text = some accumulated) :
    ∃ taken, taken <+: text ∧ accumulated = sofar ++ taken := by
  induction text generalizing sofar with
  | nil =>
      obtain rfl := Option.some.inj h
      exact ⟨[], List.nil_prefix, by simp⟩
  | cons x text ih =>
      obtain ⟨holds, -, hrest⟩ := Option.bind_eq_some_iff.1 h
      cases holds with
      | true =>
          obtain ⟨taken, htaken, rfl⟩ := ih hrest
          exact ⟨x :: taken, (List.prefix_cons_inj x).2 htaken, by simp⟩
      | false =>
          obtain rfl := Option.some.inj hrest
          exact ⟨[], List.nil_prefix, by simp⟩

private theorem readUntil_reads (c : Cursor) (p : Char → Bool) :
    Reads c (c.readUntil p).1 (c.readUntil p).2 := .reading (List.takeWhile_prefix _)

private theorem readWhileRule_reads {fuel : Nat} {c c' : Cursor} {rule : Rule} {taken : List Char}
    (h : c.readWhileRule fuel rule = some (taken, c')) : Reads c taken c' := by
  obtain ⟨accumulated, haccumulated, hc'⟩ := Option.map_eq_some_iff.1 h
  cases hc'
  obtain ⟨taken, htaken, rfl⟩ := exists_accumulate?_eq haccumulated
  exact .reading htaken

private theorem readRawUntilConsidering_reads (c : Cursor) (e : Engine) (p : Char → Bool) :
    Reads c (c.readRawUntilConsidering e p).1 (c.readRawUntilConsidering e p).2.2 := by
  have htext := e.scanRaw_text_eq_take (Engine.stopAt p) () c.ahead
  have hlength := e.length_scanRaw_le (Engine.stopAt p) () c.ahead
  refine ⟨rfl, ?_, ?_⟩
  · simp only [readRawUntilConsidering, scanned, advance]
    rw [htext, List.length_take_of_le hlength]
  · simp only [readRawUntilConsidering, scanned]
    rw [htext]
    exact List.take_prefix _ _

private theorem readBalanced_reads (c : Cursor) (e : Engine) :
    Reads c (c.readBalanced e).1 (c.readBalanced e).2.2 :=
  ⟨rfl, rfl, ⟨_, e.balanced_append_drop c.ahead⟩⟩

theorem RawRead.reads {c c' : Cursor} {read : RawRead} {taken : List Char}
    (h : read.perform c = some (taken, c')) : Reads c taken c' := by
  cases read with
  | nextN n =>
      cases h
      exact .reading (List.take_prefix n _)
  | nextNIgnoring n ignored =>
      cases h
      exact .reading (takeCounting_isPrefix ignored _ n)
  | readUntil p =>
      cases h
      exact c.readUntil_reads p
  | readUntilAny stops =>
      cases h
      exact c.readUntil_reads _
  | readWhile p =>
      cases h
      exact c.readUntil_reads _
  | readWhileAccumulated p =>
      cases h
      exact .reading (accumulate_isPrefix p c.ahead)
  | readWhileRule fuel rule => exact readWhileRule_reads h
  | remaining =>
      cases h
      exact c.readUntil_reads _
  | readRawUntilConsidering e p =>
      cases h
      exact c.readRawUntilConsidering_reads e p
  | readBalanced e =>
      cases h
      exact c.readBalanced_reads e

private theorem readAll_reads {c c' : Cursor} {reads : List RawRead} {taken : List Char}
    (h : c.readAll reads = some (taken, c')) : Reads c taken c' := by
  induction reads generalizing c taken with
  | nil =>
      cases h
      exact ⟨rfl, rfl, List.nil_prefix⟩
  | cons read reads ih =>
      obtain ⟨⟨first, middle⟩, hfirst, hrest⟩ := Option.bind_eq_some_iff.1 h
      obtain ⟨⟨more, last⟩, hmore, hall⟩ := Option.bind_eq_some_iff.1 hrest
      cases hall
      exact (RawRead.reads hfirst).trans (ih hmore)

/-! ## Any operations -/

theorem Operation.moves {c c' : Cursor} {operation : Operation}
    (h : operation.perform c = some c') : Moves c c' := by
  cases operation with
  | raw read =>
      obtain ⟨⟨taken, after⟩, hread, rfl⟩ := Option.map_eq_some_iff.1 h
      exact (RawRead.reads hread).moves
  | jumpTo i =>
      cases h
      exact .jumpTo c i
  | next =>
      cases h
      exact .next c
  | previous =>
      cases h
      exact .previous c
  | back =>
      cases h
      exact .backBy c 1
  | backBy n =>
      cases h
      exact .backBy c n
  | consumeIf p =>
      cases h
      exact .consumeIf c p
  | consumeAll p =>
      cases h
      exact .consumeAll c p
  | backWhile p =>
      cases h
      exact .backBy c _
  | readUntilConsidering e p =>
      cases h
      exact .scanned (e.length_scanResolved_le _ _ _)
  | remainingConsidering e =>
      cases h
      exact .scanned (e.length_scanResolved_le _ _ _)
  | readUntilAccumulatedConsidering e p =>
      cases h
      exact .scanned (e.length_scanResolved_le _ _ _)
  | readUntilRule fuel e rule =>
      obtain ⟨⟨taken, e', after⟩, hread, rfl⟩ := Option.map_eq_some_iff.1 h
      exact .readUntilRule hread
  | readUntilAccumulatedRule fuel e rule =>
      obtain ⟨⟨taken, e', after⟩, hread, rfl⟩ := Option.map_eq_some_iff.1 h
      exact .readUntilAccumulatedRule hread
  | setContext context =>
      cases h
      exact ⟨rfl, id⟩

private theorem performAll_moves {c c' : Cursor} {operations : List Operation}
    (h : c.performAll operations = some c') : Moves c c' := by
  induction operations generalizing c with
  | nil =>
      obtain rfl : c = c' := Option.some.inj h
      exact .refl c
  | cons operation operations ih =>
      rw [performAll, List.foldlM_cons] at h
      obtain ⟨middle, hfirst, hrest⟩ := Option.bind_eq_some_iff.1 h
      exact (Operation.moves hfirst).trans (ih hrest)

theorem operations_stay_inside (content : List Char) :
    (∀ operations c, performAll { content } operations = some c →
      c.content = content ∧ c.index ≤ content.length ∧
      (offsetsFrom 0 content)[c.index]? = some c.byteOffset ∧
      c.byteOffset = (String.ofList (content.take c.index)).utf8ByteSize ∧
      ∀ (read : RawRead) taken c', read.perform c = some (taken, c') →
        c.index ≤ c'.index ∧ taken = (content.take c'.index).drop c.index) ∧
    ∀ reads taken c, readAll { content } reads = some (taken, c) →
      taken = content.take c.index := by
  constructor
  · intro operations c h
    have hmoves := performAll_moves h
    have hcontent : c.content = content := hmoves.content
    have hindex : c.index ≤ content.length := hmoves.index_le (Nat.zero_le _)
    have hoffset : c.byteOffset = byteLength (content.take c.index) := by
      rw [byteOffset, hcontent]
    refine ⟨hcontent, hindex, ?_, ?_, fun read taken c' hread => ?_⟩
    · rw [getElem?_offsetsFrom content hindex, hoffset, Nat.zero_add]
    · rw [utf8ByteSize_ofList, hoffset]
    · have hreads := RawRead.reads hread
      exact ⟨hreads.index ▸ Nat.le_add_right _ _, hcontent ▸ hreads.between⟩
  · intro reads taken c h
    simpa using (readAll_reads h).between

/-- Between characters of two bytes, with a balanced region and a rule that is tried on the way. -/
theorem operations_stay_inside_multibyte :
    let content : List Char := ['é', '(', 'b', ')', 'ü', 'c']
    let e : Engine := .start (.ofSettings [.brackets '(' ')'])
    let operations : List Operation :=
      [.next, .raw (.readBalanced e), .readUntilRule 2 e (.literal "c"), .back, .jumpTo 9]
    let reads : List RawRead := [.nextN 1, .readBalanced e, .readWhileRule 3 (.literal "ü")]
    ∃ c, performAll { content } operations = some c ∧
      c.content = content ∧ c.index ≤ content.length ∧
      (offsetsFrom 0 content)[c.index]? = some c.byteOffset ∧
      c.byteOffset = (String.ofList (content.take c.index)).utf8ByteSize ∧
      (∃ taken c', (RawRead.nextN 3).perform c = some (taken, c') ∧
        c.index ≤ c'.index ∧ taken = (content.take c'.index).drop c.index) ∧
      ∃ taken c', readAll { content } reads = some (taken, c') ∧ c'.index = 5 ∧
        taken = content.take c'.index := by
  intro content e operations reads
  obtain ⟨hinside, hchain⟩ := operations_stay_inside content
  obtain ⟨c, hc⟩ : ∃ c, performAll { content } operations = some c :=
    Option.isSome_iff_exists.1 (by decide +kernel)
  obtain ⟨hcontent, hindex, htable, hoffset, hraw⟩ := hinside operations c hc
  obtain ⟨⟨taken, c'⟩, hreads, hplace⟩ : ∃ x, readAll { content } reads = some x ∧
      x.2.index = 5 := Option.map_eq_some_iff.1 (by decide +kernel)
  exact ⟨c, hc, hcontent, hindex, htable, hoffset, ⟨_, _, rfl, hraw (.nextN 3) _ _ rfl⟩,
    taken, c', hreads, hplace, hchain reads taken c' hreads⟩

end TextGrammar.Cursor
