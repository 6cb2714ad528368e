import TextGrammar.Proofs.Rule.List
import TextGrammar.Proofs.Rule.Order

/-!
# Literals and lengths behind one another

A literal spans the text that it is, and a length any text of so many characters.  Two literals in a
sequence span what the literal of both texts together does, and two lengths what the length of their
sum does: whatever the one spans can be cut where the first of the two stops, since this is again a
position of the input.
-/

namespace TextGrammar

theorem Text.slice?_eq_some_append_iff {text first second : List Char} {start stop : Nat} :
    slice? text start stop = some (first ++ second) ↔
      ∃ middle, slice? text start middle = some first ∧ slice? text middle stop = some second := by
  constructor
  · intro h
    obtain ⟨front, back, rfl, rfl, rfl⟩ := slice?_eq_some_iff.1 h
    have hfirst : slice? (front ++ (first ++ second) ++ back) (byteLength front)
        (byteLength front + byteLength first) = some first :=
      slice?_eq_some_iff.2 ⟨front, second ++ back, by simp, rfl, rfl⟩
    have hsecond : slice? (front ++ (first ++ second) ++ back)
        (byteLength front + byteLength first)
        (byteLength front + byteLength (first ++ second)) = some second :=
      slice?_eq_some_iff.2 ⟨front ++ first, back, by simp, by simp, by simp [Nat.add_assoc]⟩
    exact ⟨_, hfirst, hsecond⟩
  · rintro ⟨middle, hfirst, hsecond⟩
    exact slice?_trans hfirst hsecond

namespace Rule

open Text

variable {input : List Char} {start stop : Nat}

private theorem closed_literal (text : String) :
    (Rule.literal text).Closed := .ofParts rfl rfl nofun

private theorem closed_length (n : Nat) : (Rule.length n).Closed := .ofParts rfl rfl nofun

private theorem literal_spans_iff {text : String} :
    Spans input (.literal text) start stop ↔ slice? input start stop = some text.toList := by
  rw [slice?_eq_some_iff]
  constructor
  · intro h
    obtain ⟨v, c', hv, hok, rfl⟩ := h {}
    obtain ⟨rfl, -⟩ := literal_gives_iff.1 hv
    obtain ⟨front, back, hinput, rfl⟩ := standsAt_of_isSuccessful hok
    have hverdict := literalVerdict_of_standsAt ⟨front, back, hinput, rfl⟩
    exact ⟨front, back, hinput, rfl, (congrArg Verdict.stop hverdict).symm⟩
  · rintro ⟨front, back, hinput, rfl, rfl⟩ c
    have hverdict := literalVerdict_of_standsAt ⟨front, back, hinput, rfl⟩
    exact ⟨_, c, literal_gives_iff.2 ⟨hverdict.symm, rfl⟩, rfl, rfl⟩

private theorem length_spans_iff {n : Nat} :
    Spans input (.length n) start stop ↔
      ∃ taken, slice? input start stop = some taken ∧ taken.length = n := by
  constructor
  · intro h
    obtain ⟨v, c', hv, hok, rfl⟩ := h {}
    obtain ⟨rfl, -⟩ := length_gives_iff.1 hv
    unfold lengthVerdict at hok ⊢
    split at hok
    · rename_i rest hrest
      split at hok
      · rename_i hle
        rw [if_pos hle]
        obtain ⟨front, rfl, rfl⟩ := dropBytes?_eq_some_iff.1 hrest
        refine ⟨rest.take n, slice?_eq_some_iff.2 ⟨front, rest.drop n, by simp, rfl, rfl⟩, ?_⟩
        exact List.length_take_of_le hle
      · cases hok
    · cases hok
  · rintro ⟨taken, htaken, rfl⟩ c
    obtain ⟨front, back, rfl, rfl, rfl⟩ := slice?_eq_some_iff.1 htaken
    have hverdict : lengthVerdict taken.length (front ++ taken ++ back) (byteLength front) =
        .success (byteLength front + byteLength taken) := by
      simp [lengthVerdict, List.append_assoc, dropBytes?_byteLength_append]
    exact ⟨_, c, length_gives_iff.2 ⟨hverdict.symm, rfl⟩, rfl, rfl⟩

private theorem spans_append_iff (a b : String) : Spans input (.literal (a ++ b)) start stop ↔
    Spans input (.sequence [.literal a, .literal b]) start stop := by
  rw [spans_pair_iff (closed_literal a) (closed_literal b), literal_spans_iff, String.toList_append,
    slice?_eq_some_append_iff]
  simp only [literal_spans_iff]

private theorem spans_add_iff (m n : Nat) : Spans input (.length (m + n)) start stop ↔
    Spans input (.sequence [.length m, .length n]) start stop := by
  rw [spans_pair_iff (closed_length m) (closed_length n)]
  simp only [length_spans_iff]
  constructor
  · rintro ⟨taken, htaken, hlength⟩
    rw [← List.take_append_drop m taken] at htaken
    obtain ⟨middle, hfirst, hsecond⟩ := slice?_eq_some_append_iff.1 htaken
    refine ⟨middle, ⟨_, hfirst, ?_⟩, ⟨_, hsecond, ?_⟩⟩
    · exact List.length_take_of_le (by omega)
    · rw [List.length_drop]
      omega
  · rintro ⟨middle, ⟨first, hfirst, rfl⟩, second, hsecond, rfl⟩
    exact ⟨first ++ second, slice?_trans hfirst hsecond, List.length_append⟩

/-- In every context both rules match at this offset, and up to the same one, or both fail. -/
inductive MatchAlike (input : List Char) (start : Nat) (first second : Rule) : Prop where
  | spans {stop : Nat} : Spans input first start stop → Spans input second start stop →
      MatchAlike input start first second
  | fails : Fails input first start → Fails input second start →
      MatchAlike input start first second

private theorem matchAlike_of_spans_iff {first second : Rule} (hfirst : first.Closed)
    (hsecond : second.Closed)
    (h : ∀ stop, Spans input first start stop ↔ Spans input second start stop) :
    MatchAlike input start first second := by
  rcases hfirst.spans_or_fails input start with ⟨stop, hspans⟩ | hfails
  · exact .spans hspans ((h stop).1 hspans)
  · rcases hsecond.spans_or_fails input start with ⟨stop, hspans⟩ | hfails'
    · exact absurd hfails ((h stop).2 hspans).not_fails
    · exact .fails hfails hfails'

theorem literals_and_lengths_compose (input : List Char) (start : Nat) :
    (∀ a b : String,
      MatchAlike input start (.literal (a ++ b)) (.sequence [.literal a, .literal b]) ∧
      ∀ stop, Spans input (.literal (a ++ b)) start stop ↔
        slice? input start stop = some (a.toList ++ b.toList)) ∧
    ∀ m n : Nat,
      MatchAlike input start (.length (m + n)) (.sequence [.length m, .length n]) ∧
      ∀ stop, Spans input (.length (m + n)) start stop ↔
        ∃ taken, slice? input start stop = some taken ∧ taken.length = m + n := by
  constructor
  · intro a b
    have hpair : (Rule.sequence [.literal a, .literal b]).Closed :=
      closed_sequence (by simp [closed_literal])
    refine ⟨matchAlike_of_spans_iff (closed_literal _) hpair fun _ => spans_append_iff a b, ?_⟩
    exact fun stop => by rw [literal_spans_iff, String.toList_append]
  · intro m n
    have hpair : (Rule.sequence [.length m, .length n]).Closed :=
      closed_sequence (by simp [closed_length])
    exact ⟨matchAlike_of_spans_iff (closed_length _) hpair fun _ => spans_add_iff m n,
      fun _ => length_spans_iff⟩

example :
    (Rule.matchText 8 (.sequence [.length 1, .length 2]) ['a', 'é', '€']).map Verdict.stop =
        some 6 ∧
    (Rule.matchAt 8 (.sequence [.literal "", .length 0]) ['a', 'é', '€'] 2 {}).map
      (·.1.isSuccessful) = some false := by decide +kernel

end Rule

end TextGrammar
