import TextGrammar.Proofs.Rule.Influence
import TextGrammar.Proofs.Rule.Stepwise
import TextGrammar.Proofs.Rule.Termination

/-!
# Closed rules

A rule that looks up no name and has no check of its own comes to an end wherever it is tried, and
the context has no say in its verdict.  At every offset it either fails or spans a stretch of the
text, and always the same one.
-/

namespace TextGrammar.Rule

open Text

/-- No name is looked up in it, and no rule in it has a check of its own. -/
structure Closed (rule : Rule) : Prop where
  lookedUp : rule.lookedUp = []
  unrefined : rule.Unrefined

instance (rule : Rule) : Decidable rule.Closed :=
  decidable_of_iff (rule.lookedUp = [] ∧ rule.Unrefined)
    ⟨fun h => ⟨h.1, h.2⟩, fun h => ⟨h.lookedUp, h.unrefined⟩⟩

private theorem lookedUp_eq_nil_iff {rule : Rule} :
    rule.lookedUp = [] ↔ ∀ other ∈ rule.subrules, other.lookup? = none := by
  simp [lookedUp, List.filterMap_eq_nil_iff]

theorem Closed.part {rule part : Rule} (h : rule.Closed) (hpart : part ∈ rule.parts) :
    part.Closed where
  lookedUp := lookedUp_eq_nil_iff.2 fun other hother =>
    lookedUp_eq_nil_iff.1 h.lookedUp other (mem_subrules_of_part hpart hother)
  unrefined := h.unrefined.part hpart

theorem Closed.ofParts {rule : Rule} (hlookup : rule.lookup? = none)
    (hrefined : rule.isRefined = false) (hparts : ∀ part ∈ rule.parts, part.Closed) :
    rule.Closed := by
  constructor
  · rw [lookedUp_eq_nil_iff]
    intro other hother
    rcases mem_subrules_iff.1 hother with rfl | ⟨part, hpart, hinside⟩
    · exact hlookup
    · exact lookedUp_eq_nil_iff.1 (hparts part hpart).lookedUp other hinside
  · intro other hother
    rcases mem_subrules_iff.1 hother with rfl | ⟨part, hpart, hinside⟩
    · exact hrefined
    · exact (hparts part hpart).unrefined other hinside

theorem Closed.subrule {rule other : Rule} (h : rule.Closed) (hother : other ∈ rule.subrules) :
    other.Closed := by
  induction rule using inductionOnParts with
  | step rule ih =>
      rcases mem_subrules_iff.1 hother with rfl | ⟨part, hpart, hinside⟩
      · exact h
      · exact ih part hpart (h.part hpart) hinside

private theorem lookups_sequence_eq_nil {rules : List Rule}
    (h : ∀ rule ∈ rules, rule.lookups = []) : (Rule.sequence rules).lookups = [] := by
  induction rules with
  | nil => simp [lookups, lookupsBehind]
  | cons rule rules ih =>
      obtain ⟨hrule, hrules⟩ := List.forall_mem_cons.1 h
      rw [List.eq_nil_iff_forall_not_mem]
      intro front hfront
      simp [mem_lookups_sequence, hrule, ih hrules] at hfront

theorem Closed.lookups_eq_nil {rule : Rule} (h : rule.Closed) : rule.lookups = [] := by
  induction rule using inductionOnParts with
  | step rule ih =>
      have hparts : ∀ part ∈ rule.parts, part.lookups = [] :=
        fun part hpart => ih part hpart (h.part hpart)
      cases rule with
      | literal text | length n | regex r => rw [lookups]
      | lazy name =>
          have hnone := lookedUp_eq_nil_iff.1 h.lookedUp _ (mem_subrules_self (.lazy name))
          cases hnone
      | sequence rules => exact lookups_sequence_eq_nil hparts
      | and rules | or longest rules =>
          rw [lookups, lookupsAll_eq]
          exact List.flatMap_eq_nil_iff.2 hparts
      | refined rule check | not rule | optional rule | repeating rule atLeastOne | set name rule
      | setAndUse name rule | completed rule =>
          rw [lookups]
          exact hparts rule (List.mem_singleton_self rule)
      | nonGreedy rule stop atLeastOne =>
          rw [lookups, hparts rule (by simp [parts]), hparts stop (by simp [parts])]
          rfl

theorem Closed.guarded {rule : Rule} (h : rule.Closed) : rule.Guarded := by
  intro front hfront
  rw [h.lookups_eq_nil] at hfront
  exact absurd hfront List.not_mem_nil

theorem WellGuarded.exists_gives {rule : Rule} (h : rule.WellGuarded) (input : List Char)
    (pos : Nat) : ∃ v c', Gives input rule pos {} v c' := by
  obtain ⟨⟨a, c'⟩, enough, ha⟩ :=
    eval_settles (byteLength input - pos) rule pos {} h .empty (Nat.le_refl _)
  exact ⟨a.verdict, c', enough, Option.map_eq_some_iff.2 ⟨(a, c'), ha enough (Nat.le_refl _), rfl⟩⟩

theorem Closed.wellGuarded {rule : Rule} (h : rule.Closed) : rule.WellGuarded where
  unrefined := h.unrefined
  guarded := h.guarded
  bindsGuarded := by
    rintro other hother ⟨name, bound⟩ hbinding
    exact ((h.subrule hother).part (binding?_eq_some hbinding).2).guarded

variable {input : List Char} {rule : Rule} {pos stop : Nat} {c c' : Context} {v : Verdict}

theorem Gives.elsewhere (hnone : rule.lookedUp = []) (hv : Gives input rule pos c v c')
    (d : Context) : ∃ d', Gives input rule pos d v d' := by
  obtain ⟨fuel, hv⟩ := hv
  have hlooks : rule.LooksUpIn fun _ => False := by
    intro name hname
    rw [hnone] at hname
    exact absurd hname List.not_mem_nil
  have hagree : c.AgreeOn (fun _ => False) d ∧ c.Supports fun _ => False :=
    ⟨fun _ hname => hname.elim, fun _ _ _ hname => hname.elim⟩
  have hsame := matchAt_verdict_eq (agreeOn_respects _) hlooks hagree fuel input pos
  rw [hv] at hsame
  obtain ⟨⟨w, d'⟩, hw, rfl⟩ := Option.map_eq_some_iff.1 hsame.symm
  exact ⟨d', fuel, hw⟩

theorem Closed.gives (h : rule.Closed) (hv : Gives input rule pos c v c') (d : Context) :
    ∃ d', Gives input rule pos d v d' := hv.elsewhere h.lookedUp d

theorem Closed.exists_gives (h : rule.Closed) (input : List Char) (pos : Nat) :
    ∃ v, ∀ c, ∃ c', Gives input rule pos c v c' := by
  obtain ⟨v, c', hv⟩ := h.wellGuarded.exists_gives input pos
  exact ⟨v, h.gives hv⟩

def Spans (input : List Char) (rule : Rule) (pos stop : Nat) : Prop :=
  ∀ c, ∃ v c', Gives input rule pos c v c' ∧ v.isSuccessful = true ∧ v.stop = stop

def Fails (input : List Char) (rule : Rule) (pos : Nat) : Prop :=
  ∀ c, ∃ v c', Gives input rule pos c v c' ∧ v.isSuccessful = false

theorem Closed.spans (h : rule.Closed) (hv : Gives input rule pos c v c')
    (hok : v.isSuccessful = true) : Spans input rule pos v.stop := by
  intro d
  obtain ⟨d', hd⟩ := h.gives hv d
  exact ⟨v, d', hd, hok, rfl⟩

theorem Closed.fails (h : rule.Closed) (hv : Gives input rule pos c v c')
    (hfail : v.isSuccessful = false) : Fails input rule pos := by
  intro d
  obtain ⟨d', hd⟩ := h.gives hv d
  exact ⟨v, d', hd, hfail⟩

theorem Closed.spans_or_fails (h : rule.Closed) (input : List Char) (pos : Nat) :
    (∃ stop, Spans input rule pos stop) ∨ Fails input rule pos := by
  obtain ⟨v, hv⟩ := h.exists_gives input pos
  obtain ⟨c', hv⟩ := hv {}
  cases hok : v.isSuccessful with
  | true => exact .inl ⟨v.stop, h.spans hv hok⟩
  | false => exact .inr (h.fails hv hok)

theorem Spans.stop_eq (h : Spans input rule pos stop) (hv : Gives input rule pos c v c') :
    v.isSuccessful = true ∧ v.stop = stop := by
  obtain ⟨w, d, hw, hok, hstop⟩ := h c
  obtain ⟨rfl, -⟩ := hv.unique hw
  exact ⟨hok, hstop⟩

theorem Spans.unique {stop' : Nat} (h : Spans input rule pos stop)
    (h' : Spans input rule pos stop') : stop = stop' := by
  obtain ⟨v, c', hv, -, rfl⟩ := h {}
  exact (h'.stop_eq hv).2

theorem Spans.not_fails (h : Spans input rule pos stop) : ¬ Fails input rule pos := by
  intro hfails
  obtain ⟨v, c', hv, hok, -⟩ := h {}
  obtain ⟨w, d, hw, hfail⟩ := hfails {}
  exact hv.not_fails hok hw hfail

end TextGrammar.Rule
