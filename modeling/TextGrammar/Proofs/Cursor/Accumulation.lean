import TextGrammar.Proofs.Cursor.Consumption
import TextGrammar.Proofs.Cursor.Stopping
import TextGrammar.Proofs.Rule.Closed

/-!
# Scans that ask about all they have read

An accumulating scan goes on as long as the text read so far is accepted.  It stops in front of the
first character with which it is not, and does not look for a longer text that would be accepted
again: what it reads is the longest text that is accepted at each step on the way.
-/

namespace TextGrammar.Cursor

open Rule (Gives)
open Text

def AcceptedThroughout (accepts : List Char → Prop) (text : List Char) : Prop :=
  ∀ front, front <+: text → front ≠ [] → accepts front

/-- The longest of the beginnings of `text` that are accepted throughout. -/
structure LongestAccepted (accepts : List Char → Prop) (text taken : List Char) : Prop where
  within : taken <+: text
  accepted : AcceptedThroughout accepts taken
  longest : ∀ other, other <+: text → AcceptedThroughout accepts other →
    other.length ≤ taken.length

section Accepted

variable {accepts : List Char → Prop} {x : Char} {text taken more : List Char}

private theorem acceptedThroughout_nil : AcceptedThroughout accepts [] :=
  fun _ hfront hne => absurd (List.prefix_nil.1 hfront) hne

private theorem acceptedThroughout_cons_iff : AcceptedThroughout accepts (x :: text) ↔
    accepts [x] ∧ AcceptedThroughout (fun front => accepts (x :: front)) text := by
  constructor
  · intro h
    refine ⟨h [x] ⟨text, rfl⟩ (List.cons_ne_nil x []), fun front hfront _ => ?_⟩
    exact h (x :: front) ((List.prefix_cons_inj x).2 hfront) (List.cons_ne_nil x front)
  · rintro ⟨hfirst, hrest⟩ front hfront hne
    obtain ⟨y, rest, rfl⟩ := List.exists_cons_of_ne_nil hne
    obtain ⟨rfl, hwithin⟩ := List.cons_prefix_cons.1 hfront
    by_cases hempty : rest = []
    · rwa [hempty]
    · exact hrest rest hwithin hempty

namespace LongestAccepted

theorem unique {taken' : List Char} (h : LongestAccepted accepts text taken)
    (h' : LongestAccepted accepts text taken') : taken = taken' := by
  have hle := h'.longest taken h.within h.accepted
  have hge := h.longest taken' h'.within h'.accepted
  exact (List.prefix_of_prefix_length_le h.within h'.within hle).eq_of_length
    (Nat.le_antisymm hle hge)

theorem nil : LongestAccepted accepts [] [] :=
  ⟨List.prefix_rfl, acceptedThroughout_nil, fun _ hother _ => hother.length_le⟩

theorem rejected (hfirst : ¬accepts [x]) : LongestAccepted accepts (x :: text) [] := by
  refine ⟨List.nil_prefix, acceptedThroughout_nil, fun other hother haccepted => ?_⟩
  cases other with
  | nil => exact Nat.le_refl _
  | cons y other =>
      obtain ⟨rfl, -⟩ := List.cons_prefix_cons.1 hother
      exact absurd (acceptedThroughout_cons_iff.1 haccepted).1 hfirst

theorem cons (hfirst : accepts [x])
    (h : LongestAccepted (fun front => accepts (x :: front)) text more) :
    LongestAccepted accepts (x :: text) (x :: more) where
  within := (List.prefix_cons_inj x).2 h.within
  accepted := acceptedThroughout_cons_iff.2 ⟨hfirst, h.accepted⟩
  longest other hother haccepted := by
    cases other with
    | nil => exact Nat.zero_le _
    | cons y other =>
        obtain ⟨rfl, hwithin⟩ := List.cons_prefix_cons.1 hother
        exact Nat.succ_le_succ
          (h.longest other hwithin (acceptedThroughout_cons_iff.1 haccepted).2)

theorem tail (h : LongestAccepted accepts (x :: text) (x :: more)) :
    LongestAccepted (fun front => accepts (x :: front)) text more where
  within := (List.prefix_cons_inj x).1 h.within
  accepted := (acceptedThroughout_cons_iff.1 h.accepted).2
  longest other hother haccepted := by
    have hfirst := (acceptedThroughout_cons_iff.1 h.accepted).1
    exact Nat.le_of_succ_le_succ (h.longest (x :: other) ((List.prefix_cons_inj x).2 hother)
      (acceptedThroughout_cons_iff.2 ⟨hfirst, haccepted⟩))

theorem not_of_nil (h : LongestAccepted accepts (x :: text) []) : ¬accepts [x] := by
  intro hfirst
  have hone := acceptedThroughout_cons_iff.2 ⟨hfirst, acceptedThroughout_nil⟩
  exact absurd (h.longest [x] ⟨text, rfl⟩ hone) (Nat.not_succ_le_zero 0)

end LongestAccepted

private theorem exists_longestAccepted (accepts : List Char → Prop) (text : List Char) :
    ∃ taken, LongestAccepted accepts text taken := by
  induction text generalizing accepts with
  | nil => exact ⟨[], .nil⟩
  | cons x text ih =>
      by_cases hfirst : accepts [x]
      · obtain ⟨more, hmore⟩ := ih fun front => accepts (x :: front)
        exact ⟨x :: more, .cons hfirst hmore⟩
      · exact ⟨[], .rejected hfirst⟩

end Accepted

/-! ## Accumulating -/

private theorem accumulate_longest (p : List Char → Bool) (sofar text : List Char) :
    ∃ taken, accumulate p sofar text = sofar ++ taken ∧
      LongestAccepted (fun front => p (sofar ++ front) = true) text taken := by
  induction text generalizing sofar with
  | nil => exact ⟨[], by simp [accumulate], .nil⟩
  | cons x text ih =>
      rw [accumulate]
      split
      · rename_i hfirst
        obtain ⟨more, hmore, hlongest⟩ := ih (sofar ++ [x])
        exact ⟨x :: more, by simp [hmore], .cons hfirst (by simpa using hlongest)⟩
      · rename_i hfirst
        exact ⟨[], by simp, .rejected hfirst⟩

section Fuel

variable {test : Nat → List Char → Option Bool} {fuel fuel' : Nat} {sofar text taken r : List Char}

variable (hsteady : ∀ text, Steady fun fuel => test fuel text)

include hsteady

private theorem accumulate?_extends (hle : fuel ≤ fuel')
    (h : accumulate? (test fuel) sofar text = some r) :
    accumulate? (test fuel') sofar text = some r := by
  induction text generalizing sofar with
  | nil => exact h
  | cons x text ih =>
      obtain ⟨b, hb, hrest⟩ := Option.bind_eq_some_iff.1 h
      refine Option.bind_eq_some_iff.2 ⟨b, hsteady _ hle b hb, ?_⟩
      cases b with
      | true => exact ih hrest
      | false => exact hrest

private theorem longest_of_accumulate? (h : accumulate? (test fuel) sofar text = some r) :
    ∃ taken, r = sofar ++ taken ∧
      LongestAccepted (fun front => Yields (test · (sofar ++ front)) true) text taken ∧
      ∀ x, taken ++ [x] <+: text → ∃ b, Yields (test · (sofar ++ (taken ++ [x]))) b := by
  induction text generalizing sofar with
  | nil =>
      obtain rfl := Option.some.inj h
      exact ⟨[], by simp, .nil, fun x hx => absurd (List.prefix_nil.1 hx) (by simp)⟩
  | cons x text ih =>
      obtain ⟨b, hb, hrest⟩ := Option.bind_eq_some_iff.1 h
      have hanswer : Yields (test · (sofar ++ [x])) b := ⟨fuel, hb⟩
      cases b with
      | true =>
          obtain ⟨more, rfl, hlongest, hnext⟩ := ih hrest
          refine ⟨x :: more, by simp, .cons hanswer (by simpa using hlongest), fun y hy => ?_⟩
          simpa using hnext y (List.cons_prefix_cons.1 hy).2
      | false =>
          obtain rfl := Option.some.inj hrest
          refine ⟨[], by simp, .rejected fun htrue => ?_, fun y hy => ?_⟩
          · exact absurd ((hsteady _).unique hanswer htrue) (by decide)
          · obtain ⟨rfl, -⟩ := List.cons_prefix_cons.1 hy
            exact ⟨false, hanswer⟩

private theorem exists_accumulate?_of_longest
    (h : LongestAccepted (fun front => Yields (test · (sofar ++ front)) true) text taken)
    (hnext : ∀ x, taken ++ [x] <+: text → ∃ b, Yields (test · (sofar ++ (taken ++ [x]))) b) :
    ∃ fuel, accumulate? (test fuel) sofar text = some (sofar ++ taken) := by
  induction taken generalizing sofar text with
  | nil =>
      cases text with
      | nil => exact ⟨0, by simp [accumulate?]⟩
      | cons x text =>
          obtain ⟨b, fuel, hb⟩ := hnext x ⟨text, rfl⟩
          cases b with
          | true => exact absurd ⟨fuel, hb⟩ h.not_of_nil
          | false => exact ⟨fuel, Option.bind_eq_some_iff.2 ⟨false, hb, by simp⟩⟩
  | cons x taken ih =>
      obtain ⟨behind, rfl⟩ := h.within
      obtain ⟨fuel, hfirst⟩ := (acceptedThroughout_cons_iff.1 h.accepted).1
      have htail : LongestAccepted (fun front => Yields (test · (sofar ++ [x] ++ front)) true)
          (taken ++ behind) taken := by simpa using h.tail
      obtain ⟨fuel', hrest⟩ := ih htail fun y hy => by simpa using hnext y (by simpa using hy)
      have hfirst' := hsteady _ (Nat.le_max_left fuel fuel') _ hfirst
      have hrest' := accumulate?_extends hsteady (Nat.le_max_right fuel fuel') hrest
      exact ⟨_, Option.bind_eq_some_iff.2 ⟨true, hfirst', by simpa using hrest'⟩⟩

end Fuel

def MatchesWhole (rule : Rule) (text : List Char) : Prop :=
  ∃ v k, Gives text rule 0 {} v k ∧ v.isSuccessful = true ∧ v.stop = byteLength text

section Rules

variable {rule : Rule} {text : List Char} {b : Bool}

private theorem yields_isCompleteMatch_iff :
    Yields (isCompleteMatch · rule text) b ↔
      ∃ v k, Gives text rule 0 {} v k ∧ (Rule.completion text v).isSuccessful = b := by
  constructor
  · rintro ⟨fuel, h⟩
    obtain ⟨w, hw, rfl⟩ := Option.map_eq_some_iff.1 h
    obtain ⟨⟨u, k⟩, hu, rfl⟩ := Option.map_eq_some_iff.1 hw
    obtain ⟨v, hv, rfl⟩ := Rule.completed_gives_iff.1 ⟨fuel, hu⟩
    exact ⟨v, k, hv, rfl⟩
  · rintro ⟨v, k, hv, rfl⟩
    obtain ⟨fuel, hu⟩ := Rule.completed_gives_iff.2 ⟨v, hv, rfl⟩
    exact ⟨fuel, Option.map_eq_some_iff.2 ⟨_, Option.map_eq_some_iff.2 ⟨_, hu, rfl⟩, rfl⟩⟩

private theorem yields_true_iff :
    Yields (isCompleteMatch · rule text) true ↔ MatchesWhole rule text := by
  simp only [yields_isCompleteMatch_iff, Rule.completion_isSuccessful_iff, MatchesWhole]

private theorem exists_yields_iff :
    (∃ b, Yields (isCompleteMatch · rule text) b) ↔
      ∃ v k, Gives text rule 0 {} v k := by
  simp only [yields_isCompleteMatch_iff]
  constructor
  · rintro ⟨b, v, k, hv, -⟩
    exact ⟨v, k, hv⟩
  · rintro ⟨v, k, hv⟩
    exact ⟨_, v, k, hv, rfl⟩

end Rules

/-! ## Scans -/

private theorem readWhileAccumulated_iff {c : Cursor} {p : List Char → Bool} {taken : List Char}
    {c' : Cursor} :
    c.readWhileAccumulated p = (taken, c') ↔
      LongestAccepted (fun text => p text = true) c.ahead taken ∧
        c' = { c with index := c.index + taken.length } := by
  obtain ⟨longest, hread, hlongest⟩ := accumulate_longest p [] c.ahead
  rw [readWhileAccumulated, hread, List.nil_append, reading, Prod.mk.injEq]
  constructor
  · rintro ⟨rfl, rfl⟩
    exact ⟨hlongest, rfl⟩
  · rintro ⟨htaken, rfl⟩
    obtain rfl := hlongest.unique htaken
    exact ⟨rfl, rfl⟩

private theorem exists_readWhileRule_iff {c : Cursor} {rule : Rule} {taken : List Char}
    {c' : Cursor} : (∃ fuel, c.readWhileRule fuel rule = some (taken, c')) ↔
      LongestAccepted (MatchesWhole rule) c.ahead taken ∧
        c' = { c with index := c.index + taken.length } ∧
        ∀ x, taken ++ [x] <+: c.ahead → ∃ v k, Gives (taken ++ [x]) rule 0 {} v k := by
  have hsteady := isCompleteMatch_steady rule
  constructor
  · rintro ⟨fuel, h⟩
    obtain ⟨read, hread, heq⟩ := Option.map_eq_some_iff.1 h
    obtain ⟨rfl, rfl⟩ := Prod.mk.inj heq
    obtain ⟨longest, rfl, hlongest, hnext⟩ := longest_of_accumulate? hsteady hread
    simp only [List.nil_append, yields_true_iff, exists_yields_iff] at hlongest hnext ⊢
    exact ⟨hlongest, rfl, hnext⟩
  · rintro ⟨hlongest, rfl, hnext⟩
    have haccepted : LongestAccepted
        (fun front => Yields (isCompleteMatch · rule ([] ++ front)) true) c.ahead taken := by
      simpa only [List.nil_append, yields_true_iff] using hlongest
    obtain ⟨fuel, hread⟩ := exists_accumulate?_of_longest hsteady haccepted
      (by simpa only [List.nil_append, exists_yields_iff] using hnext)
    exact ⟨fuel, Option.map_eq_some_iff.2 ⟨taken, hread, rfl⟩⟩

theorem accumulated_reads_longest (c : Cursor) :
    (∀ p taken c', c.readWhileAccumulated p = (taken, c') ↔
      LongestAccepted (fun text => p text = true) c.ahead taken ∧
        c' = { c with index := c.index + taken.length }) ∧
    ∀ rule,
      (∀ taken c', (∃ fuel, c.readWhileRule fuel rule = some (taken, c')) ↔
        LongestAccepted (MatchesWhole rule) c.ahead taken ∧
          c' = { c with index := c.index + taken.length } ∧
          ∀ x, taken ++ [x] <+: c.ahead → ∃ v k, Gives (taken ++ [x]) rule 0 {} v k) ∧
      ((∀ text, text <+: c.ahead → ∃ v k, Gives text rule 0 {} v k) →
        ∃ taken c' fuel, c.readWhileRule fuel rule = some (taken, c')) ∧
      ∀ fuel context, ({ c with context } : Cursor).readWhileRule fuel rule =
        (c.readWhileRule fuel rule).map fun r => (r.1, { r.2 with context }) := by
  refine ⟨fun p taken c' => readWhileAccumulated_iff, fun rule =>
    ⟨fun taken c' => exists_readWhileRule_iff, fun hends => ?_, fun fuel context => ?_⟩⟩
  · obtain ⟨taken, htaken⟩ := exists_longestAccepted (MatchesWhole rule) c.ahead
    exact ⟨taken, _, exists_readWhileRule_iff.2
      ⟨htaken, rfl, fun x hx => hends (taken ++ [x]) hx⟩⟩
  · simp only [readWhileRule, Option.map_map]
    rfl

/-- The rule matches all three characters, but not the first two of them. -/
theorem accumulated_reads_longest_interrupted :
    let c : Cursor := { content := ['x', 'é', 'a', 'é'], index := 1 }
    let rule : Rule := .or true [.literal "é", .literal "éaé"]
    (∀ text, text <+: c.ahead → ∃ v k, Gives text rule 0 {} v k) ∧ MatchesWhole rule c.ahead ∧
      ∃ taken c' fuel, c.readWhileRule fuel rule = some (taken, c') ∧
        LongestAccepted (MatchesWhole rule) c.ahead taken ∧ taken = ['é'] ∧ c'.index = 2 := by
  intro c rule
  have hclosed : rule.Closed := by decide
  have hends : ∀ text, text <+: c.ahead → ∃ v k, Gives text rule 0 {} v k := by
    intro text _
    obtain ⟨v, hv⟩ := hclosed.exists_gives text 0
    exact ⟨v, hv {}⟩
  obtain ⟨⟨v, k⟩, hv, hfound⟩ : ∃ x, rule.matchAt 8 c.ahead 0 {} = some x ∧
      (x.1.isSuccessful, x.1.stop) = (true, 5) := Option.map_eq_some_iff.1 (by decide +kernel)
  obtain ⟨hok, hstop⟩ := Prod.mk.inj hfound
  have hread : (c.readWhileRule 8 rule).map (·.1) = some ['é'] := by decide +kernel
  obtain ⟨⟨_, d⟩, hread, rfl⟩ := Option.map_eq_some_iff.1 hread
  obtain ⟨-, hrules⟩ := accumulated_reads_longest c
  obtain ⟨hreads, hreturns, -⟩ := hrules rule
  obtain ⟨hlongest, -, -⟩ := (hreads _ d).1 ⟨8, hread⟩
  obtain ⟨taken, c', fuel, hreturned⟩ := hreturns hends
  obtain ⟨htaken, rfl, -⟩ := (hreads taken c').1 ⟨fuel, hreturned⟩
  obtain rfl := htaken.unique hlongest
  exact ⟨hends, ⟨v, k, ⟨8, hv⟩, hok, hstop⟩, _, _, fuel, hreturned, htaken, rfl, rfl⟩

end TextGrammar.Cursor
