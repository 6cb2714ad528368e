import TextGrammar.Proofs.Rule.Position
import TextGrammar.Proofs.Rule.Trial

/-!
# Guarded grammars come to an end

A grammar that refers to itself by name need not come to an end.  It does when every look-up of a
name lies in a sequence behind a member that gets ahead: then there is less text left at each
look-up than at the one before it, and between two of them evaluation only goes down the tree of a
rule, or through rounds of a repetition, each of which leaves less text as well.
-/

namespace TextGrammar

open Text

namespace Rule

def isGuard : Rule → Bool
  | .literal text => text ≠ ""
  | .length n => 1 ≤ n
  | _ => false

mutual

/-- For each look-up in a rule, the rules in front of it in the sequences around it. -/
def lookups : Rule → List (List Rule)
  | .literal _ | .length _ | .regex _ => []
  | .lazy _ => [[]]
  | .sequence rules => lookupsBehind [] rules
  | .and rules | .or _ rules => lookupsAll rules
  | .refined rule _ | .not rule | .optional rule | .repeating rule _ | .set _ rule
  | .setAndUse _ rule | .completed rule => lookups rule
  | .nonGreedy rule stop _ => lookups rule ++ lookups stop

def lookupsBehind : List Rule → List Rule → List (List Rule)
  | _, [] => []
  | front, rule :: rules =>
      (lookups rule).map (front ++ ·) ++ lookupsBehind (front ++ [rule]) rules

def lookupsAll : List Rule → List (List Rule)
  | [] => []
  | rule :: rules => lookups rule ++ lookupsAll rules

end

/-- Every look-up lies in a member of a sequence behind a guard. -/
def Guarded (rule : Rule) : Prop :=
  ∀ front ∈ rule.lookups, ∃ guard ∈ front, guard.isGuard = true

instance (rule : Rule) : Decidable rule.Guarded :=
  inferInstanceAs (Decidable (∀ front ∈ rule.lookups, ∃ guard ∈ front, guard.isGuard = true))

theorem lookupsAll_eq (rules : List Rule) : lookupsAll rules = rules.flatMap lookups := by
  induction rules with
  | nil => simp [lookupsAll]
  | cons rule rules ih => simp [lookupsAll, ih]

private theorem lookupsBehind_eq_map (front rules : List Rule) :
    lookupsBehind front rules = (lookupsBehind [] rules).map (front ++ ·) := by
  induction rules generalizing front with
  | nil => simp [lookupsBehind]
  | cons rule rules ih =>
      rw [lookupsBehind, lookupsBehind, ih (front ++ [rule]), ih ([] ++ [rule])]
      simp [Function.comp_def]

theorem mem_lookups_sequence {rule : Rule} {rules front : List Rule} :
    front ∈ (Rule.sequence (rule :: rules)).lookups ↔
      front ∈ rule.lookups ∨ ∃ behind ∈ (Rule.sequence rules).lookups, rule :: behind = front := by
  rw [lookups, lookups, lookupsBehind, lookupsBehind_eq_map]
  simp

private theorem not_guarded_lazy (name : String) : ¬ (Rule.lazy name).Guarded := by
  intro h
  obtain ⟨guard, hguard, -⟩ := h [] (by simp [lookups])
  exact absurd hguard List.not_mem_nil

def isSequence : Rule → Bool
  | .sequence _ => true
  | _ => false

private theorem lookups_subset_of_part {rule part : Rule} (hsequence : rule.isSequence = false)
    (hpart : part ∈ rule.parts) : part.lookups ⊆ rule.lookups := by
  intro front hfront
  cases rule with
  | literal text => exact absurd hpart List.not_mem_nil
  | length n => exact absurd hpart List.not_mem_nil
  | regex r => exact absurd hpart List.not_mem_nil
  | lazy name => exact absurd hpart List.not_mem_nil
  | sequence rules => exact absurd hsequence nofun
  | and rules | or longest rules =>
      rw [lookups, lookupsAll_eq]
      exact List.mem_flatMap.2 ⟨part, hpart, hfront⟩
  | refined rule check | not rule | optional rule | repeating rule atLeastOne | set name rule
  | setAndUse name rule | completed rule =>
      obtain rfl := List.mem_singleton.1 hpart
      rwa [lookups]
  | nonGreedy rule stop atLeastOne =>
      have hboth : part = rule ∨ part = stop := by simpa [parts] using hpart
      rw [lookups, List.mem_append]
      rcases hboth with rfl | rfl
      · exact .inl hfront
      · exact .inr hfront

theorem Guarded.part {rule part : Rule} (h : rule.Guarded) (hsequence : rule.isSequence = false)
    (hpart : part ∈ rule.parts) : part.Guarded :=
  fun front hfront => h front (lookups_subset_of_part hsequence hpart hfront)

theorem Guarded.first {rule : Rule} {rules : List Rule} (h : (sequence (rule :: rules)).Guarded) :
    rule.Guarded := fun front hfront => h front (mem_lookups_sequence.2 (.inl hfront))

theorem Guarded.behind {rule : Rule} {rules : List Rule} (h : (sequence (rule :: rules)).Guarded)
    (hrule : rule.isGuard = false) : (sequence rules).Guarded := by
  intro front hfront
  have hbehind : rule :: front ∈ (sequence (rule :: rules)).lookups :=
    mem_lookups_sequence.2 (.inr ⟨front, hfront, rfl⟩)
  obtain ⟨guard, hmem, hguard⟩ := h (rule :: front) hbehind
  rcases List.mem_cons.1 hmem with rfl | hmem
  · exact absurd (hrule.symm.trans hguard) nofun
  · exact ⟨guard, hmem, hguard⟩

theorem Guarded.rest {rule rest : Rule} (h : rule.Guarded) (hsequence : rule.isSequence = false)
    (hrest : Rest rule rest) : rest.Guarded := by
  have hfront : ∀ front ∈ rest.lookups, ∃ part ∈ rest.parts, front ∈ part.lookups := by
    cases hrest with
    | sequence rule rules => exact absurd hsequence nofun
    | and rule rules | or longest rule rules =>
        rw [lookups, lookupsAll_eq]
        exact fun front hfront => List.mem_flatMap.1 hfront
  intro front hmem
  obtain ⟨part, hpart, hinside⟩ := hfront front hmem
  exact h front (lookups_subset_of_part hsequence (hrest.mem_parts hpart) hinside)

def BindsGuarded (rule : Rule) : Prop :=
  ∀ other ∈ rule.subrules, ∀ binding ∈ other.binding?, binding.2.Guarded

instance (rule : Rule) : Decidable rule.BindsGuarded :=
  inferInstanceAs
    (Decidable (∀ other ∈ rule.subrules, ∀ binding ∈ other.binding?, binding.2.Guarded))

theorem BindsGuarded.part {rule part : Rule} (h : rule.BindsGuarded) (hpart : part ∈ rule.parts) :
    part.BindsGuarded := fun other hother => h other (mem_subrules_of_part hpart hother)

/-- A rule that comes to an end wherever it is tried. -/
structure WellGuarded (rule : Rule) : Prop where
  unrefined : rule.Unrefined
  guarded : rule.Guarded
  bindsGuarded : rule.BindsGuarded

theorem BindsGuarded.rest {rule rest : Rule} (h : rule.BindsGuarded) (hrest : Rest rule rest) :
    rest.BindsGuarded := by
  refine hrest.forall_mem_subrules ?_ h
  rw [hrest.binding?_eq_none]
  exact nofun

private theorem bindsGuarded_keeps : Keeps (fun rule => rule.Unrefined ∧ rule.BindsGuarded)
    (Context.Binds fun _ bound => bound.WellGuarded) :=
  .ofBinds (fun h hpart => ⟨h.1.part hpart, h.2.part hpart⟩)
    (by
      intro rule bound name h hbinding
      have hpart : bound ∈ rule.parts := (binding?_eq_some hbinding).2
      have hguarded : bound.Guarded := h.2 rule rule.mem_subrules_self (name, bound) hbinding
      exact ⟨h.1.part hpart, hguarded, h.2.part hpart⟩)
    (fun _ hbound => ⟨hbound.unrefined, hbound.bindsGuarded⟩)

/-! ## Guards get ahead -/

private theorem lt_stop_of_literalVerdict {text : String} {input : List Char} {start : Nat}
    (htext : text ≠ "") (h : (literalVerdict text input start).isSuccessful = true) :
    start < (literalVerdict text input start).stop := by
  have hpos : 0 < byteLength text.toList :=
    byteLength_pos fun hempty => htext (by simpa using hempty)
  unfold literalVerdict at h ⊢
  split at h
  · split at h
    · rename_i hprefix
      rw [if_pos hprefix]
      exact Nat.lt_add_of_pos_right hpos
    · exact absurd h nofun
  · exact absurd h nofun

private theorem lt_stop_of_lengthVerdict {n : Nat} {input : List Char} {start : Nat} (hn : 1 ≤ n)
    (h : (lengthVerdict n input start).isSuccessful = true) :
    start < (lengthVerdict n input start).stop := by
  unfold lengthVerdict at h ⊢
  split at h
  · split at h
    · rename_i rest _ hle
      have hpos : 0 < byteLength (rest.take n) := by
        apply byteLength_pos
        rw [ne_eq, List.take_eq_nil_iff]
        rintro (rfl | rfl)
        · exact absurd hn nofun
        · exact absurd (Nat.le_trans hn hle) nofun
      rw [if_pos hle]
      exact Nat.lt_add_of_pos_right hpos
    · exact absurd h nofun
  · exact absurd h nofun

private theorem isGuard_eq_true {rule : Rule} (h : rule.isGuard = true) :
    (∃ text, rule = .literal text ∧ text ≠ "") ∨ ∃ n, rule = .length n ∧ 1 ≤ n := by
  cases rule with
  | literal text => exact .inl ⟨text, rfl, of_decide_eq_true h⟩
  | length n => exact .inr ⟨n, rfl, of_decide_eq_true h⟩
  | _ => cases h

private theorem lt_stop_of_isGuard {rule : Rule} (hguard : rule.isGuard = true) {input : List Char}
    {fuel pos : Nat} {c c' : Context} {a : Attempt Empty}
    (h : eval input fuel rule pos c = some (a, c')) (hok : a.isSuccessful = true) :
    pos < a.stop := by
  cases fuel with
  | zero => cases h
  | succ fuel =>
      rcases isGuard_eq_true hguard with ⟨text, rfl, htext⟩ | ⟨n, rfl, hn⟩
      · obtain ⟨rfl, -⟩ := Prod.mk.inj (Option.some.inj h)
        exact lt_stop_of_literalVerdict htext hok
      · obtain ⟨rfl, -⟩ := Prod.mk.inj (Option.some.inj h)
        exact lt_stop_of_lengthVerdict hn hok

/-! ## Budgets -/

/-- There is less text left than the budget, or at most as much and the rule is guarded. -/
def InBudget (input : List Char) (budget : Nat) (rule : Rule) (pos : Nat) : Prop :=
  byteLength input - pos < budget ∨ byteLength input - pos ≤ budget ∧ rule.Guarded

namespace InBudget

variable {input : List Char} {budget pos stop : Nat} {rule other : Rule} {rules : List Rule}

private theorem of_guarded (h : rule.Guarded) (pos : Nat) :
    InBudget input (byteLength input - pos) rule pos := .inr ⟨Nat.le_refl _, h⟩

private theorem part (h : InBudget input budget rule pos) (hsequence : rule.isSequence = false)
    (hpart : other ∈ rule.parts) : InBudget input budget other pos :=
  h.imp id fun ⟨hle, hguarded⟩ => ⟨hle, hguarded.part hsequence hpart⟩

private theorem rest (h : InBudget input budget rule pos) (hsequence : rule.isSequence = false)
    (hrest : Rest rule other) : InBudget input budget other pos :=
  h.imp id fun ⟨hle, hguarded⟩ => ⟨hle, hguarded.rest hsequence hrest⟩

private theorem first (h : InBudget input budget rule pos)
    (hfirst : Trial.first? rule = some other) : InBudget input budget other pos := by
  cases hsequence : rule.isSequence with
  | false => exact h.part hsequence (Trial.mem_parts_of_first? hfirst)
  | true =>
      obtain ⟨rules, rfl⟩ : ∃ rules, rule = .sequence rules := by
        cases rule with
        | sequence rules => exact ⟨rules, rfl⟩
        | _ => cases hsequence
      obtain ⟨behind, rfl⟩ := List.head?_eq_some_iff.1 hfirst
      exact h.imp id fun ⟨hle, hguarded⟩ => ⟨hle, hguarded.first⟩

private theorem later (h : InBudget input budget rule pos) (hstop : Advances input pos stop) :
    InBudget input budget rule stop := by
  have hle := hstop.le
  unfold InBudget at h ⊢
  refine h.imp ?_ (And.imp_left ?_) <;> omega

private theorem behind (h : InBudget input budget (.sequence (rule :: rules)) pos)
    (hstop : Advances input pos stop) (hguard : rule.isGuard = true → pos < stop) :
    InBudget input budget (.sequence rules) stop := by
  have hle := hstop.le
  rcases h with hless | ⟨hatMost, hguarded⟩
  · exact .inl (by omega)
  cases hrule : rule.isGuard with
  | true =>
      have hmove := hguard hrule
      have hless := hstop.sub_lt (by omega)
      exact .inl (by omega)
  | false => exact .inr ⟨by omega, hguarded.behind hrule⟩

end InBudget

end Rule

/-! ## Guarded trials -/

namespace Trial

variable {input : List Char} {budget : Nat} {t u : Trial}

structure Affordable (input : List Char) (budget : Nat) (t : Trial) : Prop where
  rule : t.rule.Unrefined ∧ t.rule.BindsGuarded
  binds : t.context.Binds fun _ bound => bound.WellGuarded
  inBudget : Rule.InBudget input budget t.rule t.pos

theorem Gives.advances {a : Attempt Empty} {c : Context} (h : t.Gives input a c)
    (hrule : t.rule.Unrefined ∧ t.rule.BindsGuarded)
    (hbinds : t.context.Binds fun _ bound => bound.WellGuarded) :
    Advances input t.pos a.stop := by
  obtain ⟨fuel, ha⟩ := h
  have hjudges : Rule.Judges input (fun rule => rule.Unrefined ∧ rule.BindsGuarded)
      fun pos v => v.Within input pos := Rule.within_judges fun _ h => h.1.isRefined_eq_false
  exact (Rule.eval_ensures Rule.bindsGuarded_keeps hjudges fuel t.rule hrule t.pos t.context hbinds
    a c ha).1.advances

def Lessens (input : List Char) (t u : Trial) : Prop :=
  sizeOf u.rule < sizeOf t.rule ∨
    u.rule = t.rule ∧ byteLength input - u.pos < byteLength input - t.pos

theorem Demands.inBudget (h : Demands input t u) (ht : t.Affordable input budget) :
    (∃ less, less < budget ∧ Rule.InBudget input less u.rule u.pos) ∨
      Rule.InBudget input budget u.rule u.pos ∧ Lessens input t u := by
  obtain ⟨hrule, hbinds, hbudget⟩ := ht
  have hpart : ∀ part ∈ t.rule.parts, part.Unrefined ∧ part.BindsGuarded :=
    fun part hmem => Rule.bindsGuarded_keeps.part hrule hmem
  cases h with
  | first hfirst =>
      have hmem := mem_parts_of_first? hfirst
      exact .inr ⟨hbudget.first hfirst, .inl (Rule.sizeOf_lt_of_mem_parts hmem)⟩
  | @bound name rule pos c hbound =>
      have hless : byteLength input - pos < budget :=
        hbudget.resolve_right fun h => Rule.not_guarded_lazy name h.2
      exact .inl ⟨_, hless, .of_guarded (hbinds name rule hbound).guarded pos⟩
  | @sequence rule rules pos c c' a ha hok =>
      have hstop := ha.advances (hpart rule List.mem_cons_self) hbinds
      obtain ⟨fuel, heval⟩ := ha
      have hguard : rule.isGuard = true → pos < a.stop :=
        fun hguard => Rule.lt_stop_of_isGuard hguard heval hok
      exact .inr ⟨hbudget.behind hstop hguard, .inl (Rule.Rest.sequence rule rules).sizeOf_lt⟩
  | @and rule rules pos c c' a ha =>
      have hrest := Rule.Rest.and rule rules
      exact .inr ⟨hbudget.rest rfl hrest, .inl hrest.sizeOf_lt⟩
  | @or longest rule rules pos c c' a ha hleft =>
      have hrest := Rule.Rest.or longest rule rules
      exact .inr ⟨hbudget.rest rfl hrest, .inl hrest.sizeOf_lt⟩
  | @repeating rule atLeastOne pos c c' a ha hok hmove =>
      have hstop := ha.advances (hpart rule (List.mem_singleton_self rule)) hbinds
      exact .inr ⟨hbudget.later hstop, .inr ⟨rfl, hstop.sub_lt hmove⟩⟩
  | @unstopped rule stop atLeastOne pos c c' a ha hfail =>
      have hmem : rule ∈ (Rule.nonGreedy rule stop atLeastOne).parts := List.mem_cons_self
      exact .inr ⟨hbudget.part rfl hmem, .inl (Rule.sizeOf_lt_of_mem_parts hmem)⟩
  | @nonGreedy rule stop atLeastOne pos c c' c'' a b ha hfail hb hok hmove =>
      have hasked : c'.Binds fun _ bound => bound.WellGuarded :=
        ha.governed Rule.bindsGuarded_keeps.governs
          ⟨hpart stop (by simp [Rule.parts]), hbinds⟩ hbinds
      have hstop := hb.advances (hpart rule List.mem_cons_self) hasked
      exact .inr ⟨hbudget.later hstop, .inr ⟨rfl, hstop.sub_lt hmove⟩⟩

theorem Demands.affordable (h : Demands input t u) (ht : t.Affordable input budget) :
    (∃ less, less < budget ∧ u.Affordable input less) ∨
      u.Affordable input budget ∧ Lessens input t u := by
  obtain ⟨hrule, hbinds⟩ := h.governed Rule.bindsGuarded_keeps.governs
    (fun hrest hq => ⟨⟨hrest.unrefined hq.1.1, hq.1.2.rest hrest⟩, hq.2⟩) ⟨ht.rule, ht.binds⟩
  refine (h.inBudget ht).imp ?_ ?_
  · rintro ⟨less, hless, hbudget⟩
    exact ⟨less, hless, hrule, hbinds, hbudget⟩
  · rintro ⟨hbudget, hlessens⟩
    exact ⟨⟨hrule, hbinds, hbudget⟩, hlessens⟩

theorem Affordable.acc {budget : Nat} {t : Trial} (h : t.Affordable input budget) :
    Acc (fun u t => Demands input t u) t := by
  -- By induction on the budget, and on the rule and on the text left within a budget.
  refine .intro t fun u hu => ?_
  rcases hu.affordable h with ⟨less, hless, hbudget⟩ | ⟨hbudget, hsmaller | ⟨hsame, hleft⟩⟩
  · exact hbudget.acc
  · exact hbudget.acc
  · exact hbudget.acc
termination_by (budget, sizeOf t.rule, byteLength input - t.pos)
decreasing_by
  · exact .left _ _ hless
  · exact .right _ (.left _ _ hsmaller)
  · rw [hsame]
    exact .right _ (.right _ hleft)

end Trial

namespace Rule

theorem eval_settles {input : List Char} (budget : Nat) (rule : Rule) (pos : Nat) (c : Context)
    (hrule : rule.WellGuarded) (hc : c.Binds fun _ bound => bound.WellGuarded)
    (hbudget : byteLength input - pos ≤ budget) :
    Settles fun fuel => eval input fuel rule pos c := by
  have haffordable : Trial.Affordable input budget ⟨rule, pos, c⟩ :=
    ⟨⟨hrule.unrefined, hrule.bindsGuarded⟩, hc, .inr ⟨hbudget, hrule.guarded⟩⟩
  exact Trial.ends_of_acc haffordable.acc

theorem guarded_matchAt_ends (rule : Rule) (hrule : rule.WellGuarded) (c : Context)
    (hc : c.Binds fun _ bound => bound.WellGuarded) (input : List Char) (start : Nat) :
    ∃ fuel, rule.matchAt fuel input start c ≠ none := by
  obtain ⟨⟨a, c'⟩, enough, ha⟩ :=
    eval_settles (byteLength input - start) rule start c hrule hc (Nat.le_refl _)
  exact ⟨enough, by simp [matchAt, ha enough (Nat.le_refl _)]⟩

def tailedGroups : Rule :=
  .setAndUse "group" (.sequence [.literal "(",
    .repeating (.or true [.lazy "group", .length 1]) false, .not (.lazy "tail"), .literal ")"])

theorem guarded_matchAt_ends_groups :
    let tail : Rule := .sequence [.length 1, .or false [.lazy "group", .lazy "tail"]]
    tailedGroups.WellGuarded ∧
      (({} : Context).bind "tail" tail).Binds (fun _ bound => bound.WellGuarded) ∧
      ∃ fuel, tailedGroups.matchAt fuel ['(', '(', ')', 'é'] 0 (({} : Context).bind "tail" tail) ≠
        none := by
  intro tail
  have hgroups : tailedGroups.WellGuarded := ⟨by decide, by decide, by decide⟩
  have htail : (({} : Context).bind "tail" tail).Binds fun _ bound => bound.WellGuarded :=
    Context.Binds.empty.bind ⟨by decide, by decide, by decide⟩
  exact ⟨hgroups, htail, guarded_matchAt_ends _ hgroups _ htail _ 0⟩

end Rule

end TextGrammar
