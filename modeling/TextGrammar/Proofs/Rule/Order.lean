import Mathlib.Data.List.Perm.Basic
import TextGrammar.Proofs.Rule.Choice
import TextGrammar.Proofs.Rule.Closed

/-!
# The order of rules

Rules that look up no name do not see what the rules tried before them left in the context.  So it
does not matter in which order they are tried: the choice of the furthest and the conjunction end
the same way, and the choice of the first matches in the same places.
-/

namespace TextGrammar.Rule

open Text
open List (Forall₂ Perm)
open Matcher (InTurn agreement)

variable {input : List Char} {rule : Rule} {rules permuted : List Rule} {start : Nat}
  {c c' : Context} {v : Verdict} {vs ws : List Verdict}

def Answers (input : List Char) (start : Nat) (rule : Rule) (v : Verdict) : Prop :=
  ∀ c, ∃ c', Gives input rule start c v c'

theorem Answers.unique {w : Verdict} (h : Answers input start rule v)
    (h' : Answers input start rule w) : v = w := by
  obtain ⟨c', hv⟩ := h {}
  obtain ⟨d', hw⟩ := h' {}
  exact (hv.unique hw).1

private theorem answers_unique_all (h : Forall₂ (Answers input start) rules vs)
    (h' : Forall₂ (Answers input start) rules ws) : vs = ws := by
  induction h generalizing ws with
  | nil =>
      cases h'
      rfl
  | cons hv _ ih =>
      cases h' with
      | cons hw hrest => rw [hv.unique hw, ih hrest]

private theorem answers_of_inTurn (hnone : ∀ rule ∈ rules, rule.lookedUp = [])
    (h : InTurn (fun rule => Gives input rule start) rules c vs c') :
    Forall₂ (Answers input start) rules vs := by
  induction h with
  | nil => exact .nil
  | cons hv _ ih =>
      obtain ⟨hrule, hrules⟩ := List.forall_mem_cons.1 hnone
      exact .cons (hv.elsewhere hrule) (ih hrules)

private theorem exists_inTurn (h : Forall₂ (Answers input start) rules vs) (c : Context) :
    ∃ c', InTurn (fun rule => Gives input rule start) rules c vs c' := by
  induction h generalizing c with
  | nil => exact ⟨c, .nil c⟩
  | cons hv _ ih =>
      obtain ⟨d, hv⟩ := hv c
      obtain ⟨c', hrest⟩ := ih d
      exact ⟨c', .cons hv hrest⟩

private theorem exists_answers_perm (hperm : rules.Perm permuted)
    (h : Forall₂ (Answers input start) rules vs) :
    ∃ ws, vs.Perm ws ∧ Forall₂ (Answers input start) permuted ws := by
  obtain ⟨ws, hws, hsame⟩ := List.perm_comp_forall₂ hperm.symm h
  exact ⟨ws, hsame.symm, hws⟩

/-- Whether it matches, and up to where, or where it is given up. -/
def EndsWith (input : List Char) (rule : Rule) (start : Nat) (c : Context) (matched : Bool)
    (stop : Nat) : Prop :=
  ∃ v c', Gives input rule start c v c' ∧ v.isSuccessful = matched ∧ v.stop = stop

private theorem endsWith_iff {matched : Bool} {stop : Nat} :
    EndsWith input rule start c matched stop ↔ ∃ fuel, (rule.matchAt fuel input start c).map
      (fun x => (x.1.isSuccessful, x.1.stop)) = some (matched, stop) := by
  constructor
  · rintro ⟨v, c', ⟨fuel, hv⟩, rfl, rfl⟩
    exact ⟨fuel, by rw [hv]; rfl⟩
  · rintro ⟨fuel, h⟩
    obtain ⟨⟨v, c'⟩, hv, heq⟩ := Option.map_eq_some_iff.1 h
    obtain ⟨hok, hstop⟩ := Prod.mk.inj heq
    exact ⟨v, c', ⟨fuel, hv⟩, hok, hstop⟩

theorem EndsWith.unique {matched matched' : Bool} {stop stop' : Nat}
    (h : EndsWith input rule start c matched stop)
    (h' : EndsWith input rule start c matched' stop') : matched = matched' ∧ stop = stop' := by
  obtain ⟨v, c', hv, rfl, rfl⟩ := h
  obtain ⟨w, d', hw, rfl, rfl⟩ := h'
  obtain ⟨rfl, -⟩ := hv.unique hw
  exact ⟨rfl, rfl⟩

/-- How the furthest of several verdicts ends; without a match it is given up at `start`. -/
inductive Furthest (start : Nat) (vs : List Verdict) : Bool → Nat → Prop where
  | matched {v : Verdict} : v ∈ vs → v.isSuccessful = true →
      (∀ w ∈ vs, w.isSuccessful = true → w.stop ≤ v.stop) → Furthest start vs true v.stop
  | failed : (∀ v ∈ vs, v.isSuccessful = false) → Furthest start vs false start

theorem Furthest.unique {matched matched' : Bool} {stop stop' : Nat}
    (h : Furthest start vs matched stop) (h' : Furthest start vs matched' stop') :
    matched = matched' ∧ stop = stop' := by
  cases h with
  | matched hmem hok hmost =>
      cases h' with
      | matched hmem' hok' hmost' =>
          exact ⟨rfl, Nat.le_antisymm (hmost' _ hmem hok) (hmost _ hmem' hok')⟩
      | failed hfails => exact absurd ((hfails _ hmem).symm.trans hok) (by decide)
  | failed hfails =>
      cases h' with
      | matched hmem' hok' _ => exact absurd ((hfails _ hmem').symm.trans hok') (by decide)
      | failed => exact ⟨rfl, rfl⟩

theorem Furthest.perm {matched : Bool} {stop : Nat} (hperm : vs.Perm ws)
    (h : Furthest start vs matched stop) : Furthest start ws matched stop := by
  cases h with
  | matched hmem hok hmost =>
      exact .matched (hperm.mem_iff.1 hmem) hok fun w hw => hmost w (hperm.mem_iff.2 hw)
  | failed hfails => exact .failed fun v hv => hfails v (hperm.mem_iff.2 hv)

structure Agree (start : Nat) (vs : List Verdict) (stop : Nat) : Prop where
  matched : ∀ v ∈ vs, v.isSuccessful = true
  stops : ∀ v ∈ vs, v.stop = stop
  nothing : vs = [] → stop = start

theorem Agree.unique {stop stop' : Nat} (h : Agree start vs stop) (h' : Agree start vs stop') :
    stop = stop' := by
  cases vs with
  | nil => rw [h.nothing rfl, h'.nothing rfl]
  | cons v vs => rw [← h.stops v List.mem_cons_self, h'.stops v List.mem_cons_self]

theorem Agree.perm {stop : Nat} (hperm : vs.Perm ws) (h : Agree start vs stop) :
    Agree start ws stop where
  matched v hv := h.matched v (hperm.mem_iff.2 hv)
  stops v hv := h.stops v (hperm.mem_iff.2 hv)
  nothing hws := h.nothing (hws ▸ hperm).eq_nil

private theorem agreement_ends (start : Nat) (vs : List Verdict) :
    (agreement start vs).isSuccessful = true ∧ Agree start vs (agreement start vs).stop ∨
      (agreement start vs).isSuccessful = false ∧ (agreement start vs).stop = start ∧
        ∀ stop, ¬Agree start vs stop := by
  unfold agreement
  dsimp only
  split
  next hany =>
    obtain ⟨v, hv, hfail⟩ := List.any_eq_true.1 hany
    refine .inr ⟨rfl, rfl, fun stop h => ?_⟩
    simp [h.matched v hv] at hfail
  next hnone =>
    have hmatched : ∀ v ∈ vs, v.isSuccessful = true := by simpa using hnone
    split
    next hany =>
      obtain ⟨v, hv, hdiffer⟩ := List.any_eq_true.1 hany
      refine .inr ⟨rfl, rfl, fun stop h => ?_⟩
      cases vs with
      | nil => exact absurd hv List.not_mem_nil
      | cons w vs => simp [h.stops v hv, h.stops w List.mem_cons_self] at hdiffer
    next hsame =>
      have hcounts : ∀ v ∈ vs, v.isFailure = false := fun v hv =>
        Matcher.isFailure_of_isSuccessful (hmatched v hv)
      refine .inl ⟨Verdict.composed_isSuccessful hcounts, hmatched, ?_, ?_⟩
      · rw [Verdict.composed_stop]
        simpa using hsame
      · rintro rfl
        rfl

private theorem agreement_perm (start : Nat) (hperm : vs.Perm ws) :
    (agreement start vs).isSuccessful = (agreement start ws).isSuccessful ∧
      (agreement start vs).stop = (agreement start ws).stop := by
  rcases agreement_ends start vs with ⟨hok, h⟩ | ⟨hfail, hstop, h⟩
  · rcases agreement_ends start ws with ⟨hok', h'⟩ | ⟨-, -, h'⟩
    · exact ⟨hok.trans hok'.symm, (h.perm hperm).unique h'⟩
    · exact absurd (h.perm hperm) (h' _)
  · rcases agreement_ends start ws with ⟨-, h'⟩ | ⟨hfail', hstop', -⟩
    · exact absurd (h'.perm hperm.symm) (h _)
    · exact ⟨hfail.trans hfail'.symm, hstop.trans hstop'.symm⟩

/-! ## The furthest, the conjunction and the first -/

private theorem furthest_endsWith {matched : Bool} {stop : Nat}
    (hnone : ∀ rule ∈ rules, rule.lookedUp = [])
    (h : EndsWith input (.or true rules) start c matched stop) :
    ∃ vs, Forall₂ (Answers input start) rules vs ∧ Furthest start vs matched stop := by
  obtain ⟨v, c', hv, rfl, rfl⟩ := h
  cases furthest_gives_iff.1 hv with
  | @matched before r after _ hturn hmost =>
      refine ⟨_, answers_of_inTurn hnone hturn, ?_⟩
      have hok : v.isSuccessful = true := hmost.matched
      rw [hok]
      exact .matched (List.mem_append_right _ List.mem_cons_self) hok hmost.stop_le
  | failed hturn hfails => exact ⟨_, answers_of_inTurn hnone hturn, .failed hfails⟩

private theorem exists_furthest (h : Forall₂ (Answers input start) rules vs) (c : Context) :
    ∃ matched stop, EndsWith input (.or true rules) start c matched stop := by
  obtain ⟨c', hturn⟩ := exists_inTurn h c
  obtain ⟨v, d, hv⟩ := (or_acceptAlike input rules start c).furthest_ends_iff.2 ⟨vs, c', hturn⟩
  exact ⟨_, _, v, d, hv, rfl, rfl⟩

private theorem furthest_perm {matched : Bool} {stop : Nat} (hperm : rules.Perm permuted)
    (hnone : ∀ rule ∈ rules, rule.lookedUp = [])
    (h : EndsWith input (.or true rules) start c matched stop) :
    EndsWith input (.or true permuted) start c matched stop := by
  obtain ⟨vs, hvs, hmost⟩ := furthest_endsWith hnone h
  obtain ⟨ws, hsame, hws⟩ := exists_answers_perm hperm hvs
  obtain ⟨matched', stop', h'⟩ := exists_furthest hws c
  obtain ⟨us, hus, hmost'⟩ :=
    furthest_endsWith (fun rule hrule => hnone rule (hperm.mem_iff.2 hrule)) h'
  obtain rfl := answers_unique_all hus hws
  obtain ⟨rfl, rfl⟩ := hmost'.unique (hmost.perm hsame)
  exact h'

private theorem and_perm {matched : Bool} {stop : Nat} (hperm : rules.Perm permuted)
    (hnone : ∀ rule ∈ rules, rule.lookedUp = [])
    (h : EndsWith input (.and rules) start c matched stop) :
    EndsWith input (.and permuted) start c matched stop := by
  obtain ⟨_, c', hv, rfl, rfl⟩ := h
  obtain ⟨vs, hturn, rfl⟩ := and_gives_iff.1 hv
  obtain ⟨ws, hsame, hws⟩ := exists_answers_perm hperm (answers_of_inTurn hnone hturn)
  obtain ⟨d', hturn'⟩ := exists_inTurn hws c
  obtain ⟨hok, hstop⟩ := agreement_perm start hsame.symm
  exact ⟨_, d', and_gives_iff.2 ⟨ws, hturn', rfl⟩, hok, hstop⟩

private theorem first_fails_perm {stop : Nat} (hperm : rules.Perm permuted)
    (hnone : ∀ rule ∈ rules, rule.lookedUp = [])
    (h : EndsWith input (.or false rules) start c false stop) :
    EndsWith input (.or false permuted) start c false stop := by
  obtain ⟨v, c', hv, hfail, rfl⟩ := h
  cases first_gives_iff.1 hv with
  | matched _ _ _ _ hok => exact absurd (hfail.symm.trans hok) (by decide)
  | failed hturn hfails =>
      obtain ⟨ws, hsame, hws⟩ := exists_answers_perm hperm (answers_of_inTurn hnone hturn)
      obtain ⟨d', hturn'⟩ := exists_inTurn hws c
      have hfails' : ∀ w ∈ ws, (id w).isSuccessful = false :=
        fun w hw => hfails w (hsame.mem_iff.2 hw)
      exact ⟨_, d', first_gives_iff.2 (.failed hturn' hfails'), rfl, rfl⟩

private theorem first_matched_eq {matched matched' : Bool} {stop stop' : Nat}
    (hperm : rules.Perm permuted) (hnone : ∀ rule ∈ rules, rule.lookedUp = [])
    (h : EndsWith input (.or false rules) start c matched stop)
    (h' : EndsWith input (.or false permuted) start c matched' stop') : matched = matched' := by
  cases matched with
  | false => exact ((first_fails_perm hperm hnone h).unique h').1
  | true =>
      cases matched' with
      | true => rfl
      | false =>
          have hnone' : ∀ rule ∈ permuted, rule.lookedUp = [] :=
            fun rule hrule => hnone rule (hperm.mem_iff.2 hrule)
          exact (h.unique (first_fails_perm hperm.symm hnone' h')).1

private theorem exists_first (hnone : ∀ rule ∈ rules, rule.lookedUp = [])
    (h : ∀ rule ∈ rules, ∃ matched stop, EndsWith input rule start c matched stop) :
    ∃ matched stop, EndsWith input (.or false rules) start c matched stop := by
  have hanswers : ∃ vs, Forall₂ (Answers input start) rules vs := by
    induction rules with
    | nil => exact ⟨[], .nil⟩
    | cons rule rules ih =>
        obtain ⟨⟨_, _, v, c', hv, -, -⟩, hrest⟩ := List.forall_mem_cons.1 h
        obtain ⟨hrule, hrules⟩ := List.forall_mem_cons.1 hnone
        obtain ⟨vs, hvs⟩ := ih hrules hrest
        exact ⟨v :: vs, .cons (hv.elsewhere hrule) hvs⟩
  obtain ⟨vs, hvs⟩ := hanswers
  obtain ⟨_, _, w, d, hw, -, -⟩ := exists_furthest hvs c
  obtain ⟨v, c', hv⟩ := (or_acceptAlike input rules start c).first_ends w d hw
  exact ⟨_, _, v, c', hv, rfl, rfl⟩

/-! ## Choices of literals -/

def StandsAt (input : List Char) (start : Nat) (text : String) : Prop :=
  ∃ front back, input = front ++ text.toList ++ back ∧ byteLength front = start

theorem literalVerdict_of_standsAt {text : String} (h : StandsAt input start text) :
    literalVerdict text input start = .success (start + byteLength text.toList) := by
  obtain ⟨front, back, rfl, rfl⟩ := h
  rw [literalVerdict, List.append_assoc, dropBytes?_byteLength_append]
  simp

theorem standsAt_of_isSuccessful {text : String}
    (h : (literalVerdict text input start).isSuccessful = true) : StandsAt input start text := by
  unfold literalVerdict at h
  split at h
  · rename_i rest hrest
    split at h
    · rename_i hprefix
      obtain ⟨front, rfl, hfront⟩ := dropBytes?_eq_some_iff.1 hrest
      obtain ⟨back, rfl⟩ := List.isPrefixOf_iff_prefix.1 hprefix
      exact ⟨front, back, by simp, hfront⟩
    · exact absurd h nofun
  · exact absurd h nofun

theorem standsAt_append_iff {front rest : List Char} {text : String} :
    StandsAt (front ++ rest) (byteLength front) text ↔ text.toList <+: rest := by
  constructor
  · rintro ⟨front', back, hinput, hlength⟩
    rw [List.append_assoc] at hinput
    obtain rfl := eq_of_byteLength_eq ⟨rest, hinput⟩ ⟨text.toList ++ back, rfl⟩ hlength.symm
    exact ⟨back, (List.append_cancel_left hinput).symm⟩
  · rintro ⟨back, rfl⟩
    exact ⟨front, back, (List.append_assoc _ _ _).symm, rfl⟩

structure LongestAt (input : List Char) (start : Nat) (literals : List String) (text : String) :
    Prop where
  mem : text ∈ literals
  standsAt : StandsAt input start text
  longest : ∀ other ∈ literals, StandsAt input start other →
    byteLength other.toList ≤ byteLength text.toList

variable {literals reordered : List String} {text other : String}

theorem LongestAt.byteLength_eq (h : LongestAt input start literals text)
    (h' : LongestAt input start literals other) :
    byteLength text.toList = byteLength other.toList :=
  Nat.le_antisymm (h'.longest text h.mem h.standsAt) (h.longest other h'.mem h'.standsAt)

theorem LongestAt.perm (hperm : literals.Perm reordered)
    (h : LongestAt input start literals text) : LongestAt input start reordered text where
  mem := hperm.mem_iff.1 h.mem
  standsAt := h.standsAt
  longest other hother := h.longest other (hperm.mem_iff.2 hother)

private theorem inTurn_literals_iff :
    InTurn (fun rule => Gives input rule start) (literals.map .literal) c vs c' ↔
      vs = literals.map (fun text => literalVerdict text input start) ∧ c' = c := by
  induction literals generalizing vs with
  | nil =>
      constructor
      · rintro ⟨⟩
        exact ⟨rfl, rfl⟩
      · rintro ⟨rfl, rfl⟩
        exact .nil _
  | cons text literals ih =>
      constructor
      · intro h
        cases h with
        | cons hv hrest =>
            obtain ⟨rfl, rfl⟩ := literal_gives_iff.1 hv
            obtain ⟨rfl, rfl⟩ := ih.1 hrest
            exact ⟨rfl, rfl⟩
      · rintro ⟨rfl, rfl⟩
        exact .cons (literal_gives_iff.2 ⟨rfl, rfl⟩) (ih.2 ⟨rfl, rfl⟩)

private theorem exists_oneOf (input : List Char) (literals : List String) (start : Nat)
    (c : Context) : ∃ v, Gives input (oneOf literals) start c v c := by
  have hturn : InTurn (fun rule => Gives input rule start) (literals.map .literal) c
      (literals.map fun text => literalVerdict text input start) c :=
    inTurn_literals_iff.2 ⟨rfl, rfl⟩
  obtain ⟨v, c', hv⟩ := (or_acceptAlike input _ start c).furthest_ends_iff.2 ⟨_, _, hturn⟩
  obtain ⟨rs, hrs⟩ := (furthest_gives_iff.1 hv).inTurn
  obtain ⟨-, rfl⟩ := inTurn_literals_iff.1 hrs
  exact ⟨v, hv⟩

private theorem oneOf_matched (h : Gives input (oneOf literals) start c v c')
    (hok : v.isSuccessful = true) : ∃ text, LongestAt input start literals text ∧
      v = .success (start + byteLength text.toList) := by
  cases furthest_gives_iff.1 h with
  | @matched before _ after _ hturn hmost =>
      obtain ⟨hvs, -⟩ := inTurn_literals_iff.1 hturn
      have hall : ∀ other ∈ literals, (literalVerdict other input start).isSuccessful = true →
          (literalVerdict other input start).stop ≤ v.stop := by
        intro other hother
        exact hmost.stop_le _ (hvs ▸ List.mem_map_of_mem hother)
      have hmem : v ∈ before ++ v :: after := List.mem_append_right _ List.mem_cons_self
      rw [hvs] at hmem
      obtain ⟨text, htext, rfl⟩ := List.mem_map.1 hmem
      have hstands := standsAt_of_isSuccessful hok
      rw [literalVerdict_of_standsAt hstands] at hall
      refine ⟨text, ⟨htext, hstands, fun other hother hat => ?_⟩,
        literalVerdict_of_standsAt hstands⟩
      have hle := hall other hother
      rw [literalVerdict_of_standsAt hat] at hle
      exact Nat.le_of_add_le_add_left (hle rfl)
  | failed => cases hok

private theorem oneOf_isSuccessful_iff (h : Gives input (oneOf literals) start c v c') :
    v.isSuccessful = true ↔ ∃ text ∈ literals, StandsAt input start text := by
  constructor
  · intro hok
    obtain ⟨text, hlongest, -⟩ := oneOf_matched h hok
    exact ⟨text, hlongest.mem, hlongest.standsAt⟩
  · rintro ⟨text, htext, hat⟩
    cases furthest_gives_iff.1 h with
    | matched _ hmost => exact hmost.matched
    | failed hturn hfails =>
        obtain ⟨rfl, -⟩ := inTurn_literals_iff.1 hturn
        have hfailed := hfails _ (List.mem_map_of_mem htext)
        rw [literalVerdict_of_standsAt hat] at hfailed
        cases hfailed

private theorem oneOf_reordered (hperm : literals.Perm reordered)
    (h : Gives input (oneOf literals) start c v c') (hok : v.isSuccessful = true) :
    Gives input (oneOf reordered) start c v c := by
  obtain ⟨text, hlongest, rfl⟩ := oneOf_matched h hok
  have hlongest' := hlongest.perm hperm
  obtain ⟨w, hw⟩ := exists_oneOf input reordered start c
  have hok' := (oneOf_isSuccessful_iff hw).2 ⟨text, hlongest'.mem, hlongest'.standsAt⟩
  obtain ⟨other, hother, rfl⟩ := oneOf_matched hw hok'
  rwa [hlongest'.byteLength_eq hother]

/-! ## Any order -/

/-- The choice of the furthest and the conjunction try all rules in any order.  A choice of the
first may leave out a rule that never comes to an end, or not, as its place may be. -/
theorem order_of_rules_is_irrelevant (input : List Char) (start : Nat) (c : Context) :
    (∀ rules permuted : List Rule, rules.Perm permuted → (∀ rule ∈ rules, rule.lookedUp = []) →
      (∀ matched stop, EndsWith input (.or true rules) start c matched stop ↔
        EndsWith input (.or true permuted) start c matched stop) ∧
      (∀ matched stop, EndsWith input (.and rules) start c matched stop ↔
        EndsWith input (.and permuted) start c matched stop) ∧
      (∀ matched stop matched' stop', EndsWith input (.or false rules) start c matched stop →
        EndsWith input (.or false permuted) start c matched' stop' → matched = matched') ∧
      (∀ stop, EndsWith input (.or false rules) start c false stop ↔
        EndsWith input (.or false permuted) start c false stop) ∧
      ((∀ rule ∈ rules, ∃ matched stop, EndsWith input rule start c matched stop) →
        ((∃ stop, EndsWith input (.or false rules) start c true stop) ↔
          ∃ stop, EndsWith input (.or false permuted) start c true stop))) ∧
    ∀ literals : List String, ∃ v, Gives input (oneOf literals) start c v c ∧
      (v.isSuccessful = true ↔ ∃ text ∈ literals, StandsAt input start text) ∧
      (v.isSuccessful = true → ∃ text, LongestAt input start literals text ∧
        v = .success (start + byteLength text.toList)) ∧
      (v.isSuccessful = true → ∀ reordered : List String, literals.Perm reordered →
        Gives input (oneOf reordered) start c v c) := by
  constructor
  · intro rules permuted hperm hnone
    have hnone' : ∀ rule ∈ permuted, rule.lookedUp = [] :=
      fun rule hrule => hnone rule (hperm.mem_iff.2 hrule)
    refine ⟨fun matched stop => ?_, fun matched stop => ?_, ?_, fun stop => ?_, fun hends => ?_⟩
    · exact ⟨furthest_perm hperm hnone, furthest_perm hperm.symm hnone'⟩
    · exact ⟨and_perm hperm hnone, and_perm hperm.symm hnone'⟩
    · exact fun matched stop matched' stop' => first_matched_eq hperm hnone
    · exact ⟨first_fails_perm hperm hnone, first_fails_perm hperm.symm hnone'⟩
    · obtain ⟨matched, stop, h⟩ := exists_first hnone hends
      obtain ⟨matched', stop', h'⟩ :=
        exists_first hnone' fun rule hrule => hends rule (hperm.mem_iff.2 hrule)
      obtain rfl := first_matched_eq hperm hnone h h'
      constructor
      · rintro ⟨_, hok⟩
        obtain ⟨rfl, -⟩ := hok.unique h
        exact ⟨stop', h'⟩
      · rintro ⟨_, hok⟩
        obtain ⟨rfl, -⟩ := hok.unique h'
        exact ⟨stop, h⟩
  · intro literals
    obtain ⟨v, hv⟩ := exists_oneOf input literals start c
    exact ⟨v, hv, oneOf_isSuccessful_iff hv, oneOf_matched hv,
      fun hok reordered hperm => oneOf_reordered hperm hv hok⟩

/-- Both rules capture text under one name, each in the place of the other. -/
theorem order_of_rules_is_irrelevant_captures :
    let rules : List Rule := [.set "x" (.literal "ab"), .repeating (.set "x" anyChar) true]
    let permuted : List Rule := [.repeating (.set "x" anyChar) true, .set "x" (.literal "ab")]
    let input := ['a', 'b', ';']
    rules.Perm permuted ∧ (∀ rule ∈ rules, rule.lookedUp = []) ∧
      (∀ rule ∈ rules, ∃ matched stop, EndsWith input rule 0 {} matched stop) ∧
      EndsWith input (.or true permuted) 0 {} true 3 ∧
      EndsWith input (.and permuted) 0 {} false 0 ∧
      ∃ stop, EndsWith input (.or false permuted) 0 {} true stop := by
  intro rules permuted input
  have hperm : rules.Perm permuted := List.Perm.swap _ _ _
  have hnone : ∀ rule ∈ rules, rule.lookedUp = [] := by decide
  have hset : EndsWith input (.set "x" (.literal "ab")) 0 {} true 2 :=
    endsWith_iff.2 ⟨8, by decide +kernel⟩
  have hrepeating : EndsWith input (.repeating (.set "x" anyChar) true) 0 {} true 3 :=
    endsWith_iff.2 ⟨8, by decide +kernel⟩
  have hends : ∀ rule ∈ rules, ∃ matched stop, EndsWith input rule 0 {} matched stop :=
    List.forall_mem_cons.2 ⟨⟨_, _, hset⟩, List.forall_mem_singleton.2 ⟨_, _, hrepeating⟩⟩
  have hfurthest : EndsWith input (.or true rules) 0 {} true 3 :=
    endsWith_iff.2 ⟨8, by decide +kernel⟩
  have hand : EndsWith input (.and rules) 0 {} false 0 := endsWith_iff.2 ⟨8, by decide +kernel⟩
  have hfirst : EndsWith input (.or false rules) 0 {} true 2 :=
    endsWith_iff.2 ⟨8, by decide +kernel⟩
  have h := (order_of_rules_is_irrelevant input 0 {}).1 rules permuted hperm hnone
  exact ⟨hperm, hnone, hends, (h.1 true 3).1 hfurthest, (h.2.1 false 0).1 hand,
    (h.2.2.2.2 hends).1 ⟨2, hfirst⟩⟩

/-- A repetition that moves to and fro is left out behind a match, and is tried in front of it. -/
theorem endless_repetition_parts_orders :
    let round : Rule := .or false [.refined (.literal "b") fun _ _ => .success 0, .literal "a"]
    let rules : List Rule := [.literal "a", .repeating round false]
    let permuted : List Rule := [.repeating round false, .literal "a"]
    rules.Perm permuted ∧ (∀ rule ∈ rules, rule.lookedUp = []) ∧
      EndsWith ['a', 'b'] (.or false rules) 0 {} true 1 ∧
      ∀ matched stop, ¬EndsWith ['a', 'b'] (.or false permuted) 0 {} matched stop := by
  intro round rules permuted
  have hround (pos : Nat) (c : Context) (v : Verdict) (c' : Context) (hpos : pos = 0 ∨ pos = 1)
      (h : Gives ['a', 'b'] round pos c v c') :
      v.isSuccessful = true ∧ v.stop ≠ pos ∧ (v.stop = 0 ∨ v.stop = 1) := by
    have hthere : Gives ['a', 'b'] round pos c (.success (1 - pos)) c := by
      rcases hpos with rfl | rfl
      · exact ⟨3, rfl⟩
      · exact ⟨3, rfl⟩
    obtain ⟨rfl, -⟩ := h.unique hthere
    exact ⟨rfl, by rcases hpos with rfl | rfl <;> decide, by
      rcases hpos with rfl | rfl <;> decide⟩
  refine ⟨.swap _ _ _, by decide, endsWith_iff.2 ⟨8, by decide +kernel⟩, ?_⟩
  rintro matched stop ⟨v, c', h, -, -⟩
  exact not_or_gives (fun w d => not_repeating_gives hround (.inl rfl)) h

end TextGrammar.Rule
