import TextGrammar.Proofs.Rule.Frame
import TextGrammar.Proofs.Rule.Heredity
import TextGrammar.Proofs.Rule.Trial
import TextGrammar.Proofs.Verdict.Tree

/-!
# Scoped grammars

A name stands for the rule that was bound to it last, wherever that was done: a rule can be looked
up and tried far from the rule around it that bound the names in it.  Names are never given up
though, and a rule is bound only where the names that are free in it are bound.  So a grammar in
which every look-up of a name lies inside a rule bound to that name never looks up a name in vain.
-/

namespace TextGrammar

namespace Rule

mutual

/-- The names looked up outside of every rule that is bound to them before it is tried. -/
def freeNames : Rule → List String
  | .literal _ | .length _ | .regex _ => []
  | .lazy name => [name]
  | .setAndUse name rule => (freeNames rule).filter (· ≠ name)
  | .sequence rules | .and rules | .or _ rules => freeNamesAll rules
  | .refined rule _ | .not rule | .optional rule | .repeating rule _ | .set _ rule
  | .completed rule => freeNames rule
  | .nonGreedy rule stop _ => freeNames rule ++ freeNames stop

def freeNamesAll : List Rule → List String
  | [] => []
  | rule :: rules => freeNames rule ++ freeNamesAll rules

end

private theorem freeNamesAll_eq (rules : List Rule) :
    freeNamesAll rules = rules.flatMap freeNames := by
  induction rules with
  | nil => simp [freeNamesAll]
  | cons rule rules ih => simp [freeNamesAll, ih]

private theorem mem_freeNames_of_part {rule part : Rule} (hpart : part ∈ rule.parts) {name : String}
    (h : name ∈ part.freeNames) : name ∈ rule.freeNames ∨ rule = .setAndUse name part := by
  cases rule with
  | literal text => exact absurd hpart List.not_mem_nil
  | length n => exact absurd hpart List.not_mem_nil
  | regex r => exact absurd hpart List.not_mem_nil
  | lazy name => exact absurd hpart List.not_mem_nil
  | sequence rules | and rules | or longest rules =>
      rw [freeNames, freeNamesAll_eq]
      exact .inl (List.mem_flatMap.2 ⟨part, hpart, h⟩)
  | refined rule check | not rule | optional rule | repeating rule atLeastOne | set name rule
  | completed rule =>
      obtain rfl := List.mem_singleton.1 hpart
      rw [freeNames]
      exact .inl h
  | setAndUse other rule =>
      obtain rfl := List.mem_singleton.1 hpart
      by_cases hne : name = other
      · exact .inr (by rw [hne])
      · rw [freeNames]
        exact .inl (List.mem_filter.2 ⟨h, by simpa using hne⟩)
  | nonGreedy rule stop atLeastOne =>
      have hboth : part = rule ∨ part = stop := by simpa [parts] using hpart
      rw [freeNames, List.mem_append]
      rcases hboth with rfl | rfl
      · exact .inl (.inl h)
      · exact .inl (.inr h)

private theorem part_of_mem_freeNames {rule : Rule} {name : String} (h : name ∈ rule.freeNames) :
    rule = .lazy name ∨ ∃ part ∈ rule.parts, name ∈ part.freeNames := by
  cases rule with
  | literal text => simp [freeNames] at h
  | length n => simp [freeNames] at h
  | regex r => simp [freeNames] at h
  | lazy other =>
      obtain rfl : name = other := by simpa [freeNames] using h
      exact .inl rfl
  | sequence rules | and rules | or longest rules =>
      rw [freeNames, freeNamesAll_eq] at h
      exact .inr (List.mem_flatMap.1 h)
  | refined rule check | not rule | optional rule | repeating rule atLeastOne | set name rule
  | completed rule =>
      rw [freeNames] at h
      exact .inr ⟨rule, List.mem_singleton_self rule, h⟩
  | setAndUse other rule =>
      rw [freeNames] at h
      exact .inr ⟨rule, List.mem_singleton_self rule, (List.mem_filter.1 h).1⟩
  | nonGreedy rule stop atLeastOne =>
      rw [freeNames, List.mem_append] at h
      rcases h with h | h
      · exact .inr ⟨rule, by simp [parts], h⟩
      · exact .inr ⟨stop, by simp [parts], h⟩

end Rule

namespace Context

def Closed (c : Context) : Prop :=
  c.Binds fun _ bound => bound.Unrefined ∧ ∀ name ∈ bound.freeNames, c.isBound name = true

structure Grows (c d : Context) : Prop where
  isBound : ∀ name, c.isBound name = true → d.isBound name = true
  closed : c.Closed → d.Closed

theorem Grows.bind {c : Context} {name : String} {rule : Rule} (hunrefined : rule.Unrefined)
    (hfree : ∀ other ∈ rule.freeNames, (c.bind name rule).isBound other = true) :
    c.Grows (c.bind name rule) where
  isBound _ := isBound_bind rule
  closed hclosed := by
    have hbefore : c.Binds fun _ bound => bound.Unrefined ∧
        ∀ other ∈ bound.freeNames, (c.bind name rule).isBound other = true := by
      intro other bound hbound
      obtain ⟨hplain, hnames⟩ := hclosed other bound hbound
      exact ⟨hplain, fun free hmem => isBound_bind rule (hnames free hmem)⟩
    exact hbefore.bind ⟨hunrefined, hfree⟩

private theorem isBound_bind_self (c : Context) (name : String) (rule : Rule) :
    (c.bind name rule).isBound name = true :=
  isBound_iff.2 ⟨rule, rule?_bind_self c name rule⟩

end Context

namespace Rule

/-- In this context the rule, and every rule that is bound, looks up bound names only. -/
structure ScopedIn (c : Context) (rule : Rule) : Prop where
  unrefined : rule.Unrefined
  free : ∀ name ∈ rule.freeNames, c.isBound name = true
  closed : c.Closed

namespace ScopedIn

variable {c d : Context} {rule bound : Rule} {name : String}

private theorem later (h : rule.ScopedIn c) (hgrows : c.Grows d) : rule.ScopedIn d where
  unrefined := h.unrefined
  free other hother := hgrows.isBound other (h.free other hother)
  closed := hgrows.closed h.closed

private theorem isBound_of_part {part : Rule} (h : rule.ScopedIn c) (hpart : part ∈ rule.parts)
    (hname : name ∈ part.freeNames) : (rule.entering c).isBound name = true := by
  rcases mem_freeNames_of_part hpart hname with hfree | rfl
  · rcases rule.entering_eq c with heq | ⟨other, bound, -, heq⟩
    · rw [heq]
      exact h.free name hfree
    · rw [heq]
      exact Context.isBound_bind bound (h.free name hfree)
  · exact Context.isBound_bind_self c name part

private theorem grows_bind (h : rule.ScopedIn c) (hbinding : rule.binding? = some (name, bound)) :
    c.Grows (c.bind name bound) := by
  have hpart : bound ∈ rule.parts := (binding?_eq_some hbinding).2
  refine .bind (h.unrefined.part hpart) fun other hother => ?_
  rcases mem_freeNames_of_part hpart hother with hfree | rfl
  · exact Context.isBound_bind bound (h.free other hfree)
  · obtain ⟨rfl, -⟩ := Prod.mk.inj (Option.some.inj hbinding)
    exact Context.isBound_bind_self c other bound

private theorem part {part : Rule} (h : rule.ScopedIn c) (hpart : part ∈ rule.parts) :
    part.ScopedIn (rule.entering c) where
  unrefined := h.unrefined.part hpart
  free _ hname := h.isBound_of_part hpart hname
  closed := by
    rcases rule.entering_eq c with heq | ⟨name, bound, hbinding, heq⟩
    · rw [heq]
      exact h.closed
    · rw [heq]
      exact (h.grows_bind hbinding).closed h.closed

private theorem rest {rest : Rule} (hrest : Rest rule rest) (h : rule.ScopedIn c) :
    rest.ScopedIn c where
  unrefined := hrest.unrefined h.unrefined
  free other hother := by
    obtain ⟨part, hpart, hfree⟩ := (part_of_mem_freeNames hother).resolve_left (hrest.ne_lazy other)
    have hbound := h.isBound_of_part (hrest.mem_parts hpart) hfree
    rwa [hrest.entering_eq c] at hbound
  closed := h.closed

private theorem exists_bound (h : (Rule.lazy name).ScopedIn c) :
    ∃ bound, c.rule? name = .ok bound :=
  Context.isBound_iff.1 (h.free name (by simp [freeNames]))

end ScopedIn

private theorem scoped_governs : Governs (fun c rule => rule.ScopedIn c) Context.Grows where
  refl _ := ⟨fun _ => id, id⟩
  trans h h' := ⟨fun name => h'.isBound name ∘ h.isBound name, h'.closed ∘ h.closed⟩
  later := .later
  part := .part
  bind := ScopedIn.grows_bind
  record _ _ := ⟨fun _ => id, id⟩
  lookup h hrule := ⟨(h.closed _ _ hrule).1, (h.closed _ _ hrule).2, h.closed⟩

end Rule

namespace Verdict

/-- Neither the verdict nor one inside it says that the grammar could not be evaluated. -/
def Evaluated (v : Verdict) : Prop := ∀ node ∈ v.nodes, node.outcome ≠ .unknownError

theorem Evaluated.ofParts {v : Verdict} (hv : v.outcome ≠ .unknownError)
    (hparts : ∀ part ∈ v.parts, part.Evaluated) : v.Evaluated :=
  forall_mem_nodes_iff.2 ⟨hv, hparts⟩

theorem Evaluated.setAside {v : Verdict} (h : v.Evaluated) : v.setAside.Evaluated :=
  .ofParts (forall_mem_nodes_iff.1 h).1 (forall_mem_nodes_iff.1 h).2

private theorem evaluated_hereditary : Hereditary Evaluated where
  success _ := .ofParts nofun nofun
  parseError _ _ := .ofParts nofun nofun
  composed {stop} {parts} hparts := by
    have hevaluated : ∀ part ∈ parts, part.Evaluated := by
      intro part hpart
      rcases hparts part hpart with ⟨h, -⟩ | ⟨v, h, -, rfl⟩
      · exact h
      · exact h.setAside
    unfold Verdict.composed
    split <;> exact .ofParts nofun hevaluated
  broken _ hparts _ := .ofParts nofun hparts
  stalled hparts := .ofParts nofun fun part hpart => (hparts part hpart).1
  unequal hparts _ := .ofParts nofun fun part hpart => (hparts part hpart).1
  noAlternative _ := .ofParts nofun nofun

end Verdict

namespace Rule

theorem scoped_lookups_succeed (rule : Rule) (hrule : rule.Unrefined)
    (hscoped : rule.freeNames = []) (input : List Char) (start : Nat) :
    (∀ fuel v c, rule.matchAt fuel input start {} = some (v, c) →
      ∀ node ∈ v.nodes, node.outcome ≠ .unknownError) ∧
    ∀ name pos c, Trial.Reaches input ⟨rule, start, {}⟩ ⟨.lazy name, pos, c⟩ →
      ∃ bound, c.rule? name = .ok bound := by
  have hstart : rule.ScopedIn {} := by
    refine ⟨hrule, fun name hname => ?_, .empty⟩
    rw [hscoped] at hname
    exact absurd hname List.not_mem_nil
  constructor
  · intro fuel v c h
    have hjudges : JudgesBound input (fun rule => ∃ c, rule.ScopedIn c) fun _ v => v.Evaluated :=
      Verdict.evaluated_hereditary.judges fun _ ⟨_, hplain⟩ => hplain.unrefined.isRefined_eq_false
    refine (matchAt_governed scoped_governs hjudges ?_ hstart h).1
    -- A look-up that fails would need a verdict here, but it does not occur.
    intro c name e pos hlookup hunbound
    obtain ⟨bound, hbound⟩ := hlookup.exists_bound
    exact absurd (hunbound.symm.trans hbound) nofun
  · intro name pos c h
    have hlookup : (Rule.lazy name).ScopedIn c := h.governed scoped_governs ScopedIn.rest hstart
    exact hlookup.exists_bound

/-- The name is looked up inside a negation first. -/
theorem scoped_lookups_succeed_groups :
    let rule : Rule := .setAndUse "group" (.sequence [.literal "(",
      .not (.sequence [.lazy "group", .literal "!"]), .repeating (.lazy "group") false,
      .set "closing" (.literal ")")])
    let input := ['(', '(', ')', ')']
    rule.Unrefined ∧ rule.freeNames = [] ∧
      (∃ v c, rule.matchAt 12 input 0 {} = some (v, c) ∧ v.isSuccessful = true ∧
        ∀ node ∈ v.nodes, node.outcome ≠ .unknownError) ∧
      ∃ c, Trial.Reaches input ⟨rule, 0, {}⟩ ⟨.lazy "group", 1, c⟩ ∧
        ∃ bound, c.rule? "group" = .ok bound := by
  intro rule input
  have hrule : rule.Unrefined := by decide
  have hscoped : rule.freeNames = [] := by decide
  obtain ⟨⟨v, c⟩, h, hv⟩ : ∃ x, rule.matchAt 12 input 0 {} = some x ∧ x.1.isSuccessful = true :=
    Option.map_eq_some_iff.1 (by decide +kernel)
  obtain ⟨hevaluated, hlookups⟩ := scoped_lookups_succeed rule hrule hscoped input 0
  have hopening : (⟨.literal "(", 0, rule.entering {}⟩ : Trial).Gives input
      ⟨[], literalVerdict "(" input 0⟩ (rule.entering {}) := ⟨1, rfl⟩
  have hreaches : Trial.Reaches input ⟨rule, 0, {}⟩ ⟨.lazy "group", 1, rule.entering {}⟩ := by
    refine .head (.first rfl) (.head (.sequence hopening (by decide)) ?_)
    exact .head (.first rfl) (.head (.first rfl) (.single (.first rfl)))
  exact ⟨hrule, hscoped, ⟨v, c, h, hv, hevaluated 12 v c h⟩, rule.entering {}, hreaches,
    hlookups "group" 1 _ hreaches⟩

end Rule

end TextGrammar
