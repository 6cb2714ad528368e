import TextGrammar.Proofs.Regex.Grouping
import TextGrammar.Proofs.Regex.Guard
import TextGrammar.Regex.Threads

/-!
# Patterns behind an anchor

The anchor and the group around a pattern are put there as text.  By the laws of engines, what is
compiled from the anchored text finds the pattern's match at the start of a text and no other, as
long as the pattern is one by itself.

The engine that follows threads is lawful: such a pattern is read in the group as it is read alone,
so the group has the program of the pattern, and the anchored text has it behind the anchor.
-/

namespace TextGrammar.Regex

section Laws

variable {m : Meaning} (hm : ∀ before ahead, before ≠ [] → m before ahead = none)

include hm

theorem Meaning.leftmostEnd?_eq_none {before : List Char} (hbefore : before ≠ [])
    (ahead : List Char) : m.leftmostEnd? before ahead = none := by
  induction ahead generalizing before with
  | nil => rw [leftmostEnd?, hm before [] hbefore, Option.map_none]
  | cons c cs ih =>
      rw [leftmostEnd?, hm before _ hbefore, Option.map_none, Option.none_or]
      exact ih (List.append_ne_nil_of_right_ne_nil _ (List.cons_ne_nil c []))

theorem Meaning.leftmostEnd?_start (text : List Char) : m.leftmostEnd? [] text = m [] text := by
  have hid : (([] : List Char) ++ ·) = id := funext List.nil_append
  cases text with
  | nil => rw [leftmostEnd?, hid, Option.map_id, id]
  | cons c cs =>
      rw [leftmostEnd?, leftmostEnd?_eq_none hm (by simp), Option.or_none, hid, Option.map_id, id]

end Laws

/-- Behind the anchor, a pattern is searched for at the start of the text only. -/
theorem Engine.Lawful.findEnd?_anchored {engine : Engine} {meaning : List Char → Meaning}
    (h : engine.Lawful meaning) {pattern : List Char} {r : Regex}
    (hpattern : engine.Accepts pattern)
    (hr : engine.compile? (anchored pattern) = some r) (text : List Char) :
    r.findEnd? text = meaning pattern [] text := by
  obtain ⟨hgrouped, hcaret⟩ := h.caret hpattern ⟨r, hr⟩
  have hstart (before ahead : List Char) (hbefore : before ≠ []) :
      meaning (anchored pattern) before ahead = none := by
    rw [hcaret, if_neg hbefore]
  rw [h.leftmost hr, Meaning.leftmostEnd?_start hstart, hcaret, if_pos rfl,
    h.group hpattern hgrouped]

variable {pattern : List Char} {program whole : Program} {part : Part} {r : Reader}

def read? (text : List Char) : Option (Part × Reader) :=
  readAlternatives (text.length + 1) {} [] [] { ahead := text }

theorem Program.ofPattern?_eq_some_iff :
    ofPattern? pattern = some program ↔
      ∃ part r, read? pattern = some (part, r) ∧ (r.ahead = [] ∧ part.depth ≤ nestLimit) ∧
        part.expression.weight < sizeLimit ∧ program = .ofExpression part.expression := by
  simp only [ofPattern?, Expression.ofPattern?, read?, Option.bind_eq_bind, Option.bind_eq_some_iff,
    Prod.exists, Option.ite_none_right_eq_some, Option.some.injEq]
  constructor
  · rintro ⟨e, ⟨part, r, hread, hfits, rfl⟩, hweight, rfl⟩
    exact ⟨part, r, hread, hfits, hweight, rfl⟩
  · rintro ⟨part, r, hread, hfits, hweight, rfl⟩
    exact ⟨_, ⟨part, r, hread, hfits, rfl⟩, hweight, rfl⟩

def Part.enclosed (part : Part) : Part :=
  { expression := part.expression, depth := part.depth + 1 }

/-- Reads the pattern in a group that is open, with parts in front of it, and what is behind. -/
def readGroup? (front : List Part) (pattern : List Char) : Option (Part × Reader) :=
  (readAlternatives (pattern.length + 4) {} [] [] { ahead := pattern ++ [')'] }).bind
    fun (body, r) =>
      match r.ahead with
      | ')' :: rest =>
          readAlternatives (pattern.length + 4) {} [] (body.enclosed :: front)
            { r with ahead := rest }
      | _ => none

private theorem read?_grouped (pattern : List Char) :
    read? (grouped pattern) = readGroup? [] pattern := by
  have hlength : (grouped pattern).length + 1 = pattern.length + 5 := by simp [grouped]
  rw [read?, hlength]
  rfl

private theorem read?_anchored (pattern : List Char) :
    read? (anchored pattern) = readGroup? [{ expression := .look .textStart }] pattern := by
  have hlength : (anchored pattern).length + 1 = pattern.length + 6 := by simp [anchored, grouped]
  rw [read?, hlength]
  rfl

private theorem readGroup?_eq (hread : read? pattern = some (part, r)) (hahead : r.ahead = [])
    {front : List Part} {x : Part × Reader} (h : readGroup? front pattern = some x)
    (front' : List Part) :
    ∃ r', readGroup? front' pattern = some (.sequence (part.enclosed :: front').reverse, r') ∧
      r'.ahead = [] := by
  obtain ⟨⟨body, r'⟩, hbody, hrest⟩ := Option.bind_eq_some_iff.1 h
  have hopen : r'.ahead ≠ [] := by
    intro hclosed
    simp [hclosed] at hrest
  have hagree : AgreeAlternatives pattern.length (pattern.length + 1) (read? pattern)
      (readAlternatives (pattern.length + 4) {} [] [] { ahead := pattern ++ [')'] }) :=
    agree_readAlternatives (.append_parenthesis pattern) (Nat.lt_succ_self _) (by simp)
  rw [hread, hbody] at hagree
  cases hagree with
  | both hsame =>
      obtain ⟨rfl, htrailed, -, -⟩ := hsame
      dsimp only at htrailed
      rw [hahead] at htrailed
      have hclose := htrailed.atEnd.resolve_left hopen
      exact ⟨{ r' with ahead := [] },
        by simp only [readGroup?, hbody, Option.bind_some, hclose, readAlternatives_nil]; rfl, rfl⟩

namespace Program

private theorem ofPattern?_grouped (h : ofPattern? pattern = some program)
    (hgrouped : ofPattern? (grouped pattern) = some whole) : whole = program := by
  obtain ⟨part, r, hread, ⟨hahead, -⟩, -, rfl⟩ := ofPattern?_eq_some_iff.1 h
  obtain ⟨group, _, hgroup, -, -, rfl⟩ := ofPattern?_eq_some_iff.1 hgrouped
  rw [read?_grouped] at hgroup
  obtain ⟨_, hsame, -⟩ := readGroup?_eq hread hahead hgroup []
  obtain ⟨rfl, -⟩ := Prod.mk.inj (Option.some.inj (hgroup.symm.trans hsame))
  exact ofExpression_sequence_singleton _

private theorem ofPattern?_anchored (h : ofPattern? pattern = some program)
    (hanchored : ofPattern? (anchored pattern) = some whole) :
    whole = .guarded .textStart program ∧ ofPattern? (grouped pattern) = some program := by
  obtain ⟨part, r, hread, ⟨hahead, -⟩, -, rfl⟩ := ofPattern?_eq_some_iff.1 h
  obtain ⟨group, _, hgroup, ⟨-, hdepth⟩, hweight, rfl⟩ := ofPattern?_eq_some_iff.1 hanchored
  rw [read?_anchored] at hgroup
  obtain ⟨_, hsame, -⟩ := readGroup?_eq hread hahead hgroup [{ expression := .look .textStart }]
  obtain ⟨rfl, -⟩ := Prod.mk.inj (Option.some.inj (hgroup.symm.trans hsame))
  obtain ⟨r', halone, hend⟩ := readGroup?_eq hread hahead hgroup []
  refine ⟨ofExpression_look _ _, ofPattern?_eq_some_iff.2
    ⟨_, r', (read?_grouped pattern).trans halone, ⟨hend, ?_⟩, ?_,
      (ofExpression_sequence_singleton _).symm⟩⟩
  · simp [Part.sequence, nest, Part.enclosed] at hdepth ⊢
    omega
  · simp [Part.sequence, Part.enclosed, Expression.weight_sequence, Expression.totalWeight,
      Expression.weight] at hweight ⊢
    omega

private theorem ofPattern?_closed (h : ofPattern? pattern = some program) : program.Closed := by
  obtain ⟨part, r, -, -, -, rfl⟩ := ofPattern?_eq_some_iff.1 h
  exact ofExpression_closed _

end Program

namespace Engine

def threadsMeaning (pattern : List Char) : Meaning := fun before ahead =>
  (Program.ofPattern? pattern).bind fun p => p.meaning before ahead

private theorem threads_compile?_eq_some_iff {r : Regex} :
    threads.compile? pattern = some r ↔
      ∃ p, Program.ofPattern? pattern = some p ∧ ofProgram pattern p = r :=
  Option.map_eq_some_iff

private theorem threads_accepts_iff :
    threads.Accepts pattern ↔ ∃ p, Program.ofPattern? pattern = some p := by
  simp [Accepts, threads_compile?_eq_some_iff]

private theorem threadsMeaning_eq (h : Program.ofPattern? pattern = some program) :
    threadsMeaning pattern = program.meaning := by
  funext before ahead
  rw [threadsMeaning, h, Option.bind_some]

theorem threads_lawful : threads.Lawful threadsMeaning where
  source_eq h := by
    obtain ⟨p, -, rfl⟩ := threads_compile?_eq_some_iff.1 h
    rfl
  leftmost h text := by
    obtain ⟨p, hp, rfl⟩ := threads_compile?_eq_some_iff.1 h
    rw [threadsMeaning_eq hp, ← Program.search_eq_leftmost (Program.ofPattern?_closed hp)]
    rfl
  group h hgrouped := by
    obtain ⟨p, hp⟩ := threads_accepts_iff.1 h
    obtain ⟨q, hq⟩ := threads_accepts_iff.1 hgrouped
    rw [threadsMeaning_eq hp, threadsMeaning_eq hq, Program.ofPattern?_grouped hp hq]
  caret h hanchored := by
    obtain ⟨p, hp⟩ := threads_accepts_iff.1 h
    obtain ⟨q, hq⟩ := threads_accepts_iff.1 hanchored
    obtain ⟨rfl, hgrouped⟩ := Program.ofPattern?_anchored hp hq
    refine ⟨threads_accepts_iff.2 ⟨p, hgrouped⟩, fun before ahead => ?_⟩
    rw [threadsMeaning_eq hq, threadsMeaning_eq hgrouped,
      Program.meaning_guarded (Program.ofPattern?_closed hp)]
    simp [Assertion.holds]

end Engine

end TextGrammar.Regex
