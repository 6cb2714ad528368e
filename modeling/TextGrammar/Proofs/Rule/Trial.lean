import Mathlib.Logic.Relation
import TextGrammar.Proofs.Matcher.Termination
import TextGrammar.Proofs.Rule.Invariant

/-!
# What is tried on the way

To try a rule, other rules are tried at other offsets and in other contexts.  What is demanded in
this way, one trial after another, is all that an evaluation does: it comes to an end when nothing
is demanded for ever.
-/

namespace TextGrammar

namespace Rule

inductive Rest : Rule → Rule → Prop where
  | sequence (rule : Rule) (rules : List Rule) : Rest (.sequence (rule :: rules)) (.sequence rules)
  | and (rule : Rule) (rules : List Rule) : Rest (.and (rule :: rules)) (.and rules)
  | or (longest : Bool) (rule : Rule) (rules : List Rule) :
      Rest (.or longest (rule :: rules)) (.or longest rules)

namespace Rest

variable {rule rest : Rule}

theorem parts_eq (h : Rest rule rest) : ∃ first, rule.parts = first :: rest.parts := by
  cases h <;> exact ⟨_, rfl⟩

theorem mem_parts (h : Rest rule rest) {part : Rule} (hpart : part ∈ rest.parts) :
    part ∈ rule.parts := by
  obtain ⟨first, hparts⟩ := h.parts_eq
  rw [hparts]
  exact List.mem_cons_of_mem first hpart

theorem entering_eq (h : Rest rule rest) (c : Context) : rule.entering c = c := by
  cases h <;> rfl

theorem isRefined_eq_false (h : Rest rule rest) : rest.isRefined = false := by
  cases h <;> rfl

theorem binding?_eq_none (h : Rest rule rest) : rest.binding? = none := by
  cases h <;> rfl

theorem ne_lazy (h : Rest rule rest) (name : String) : rest ≠ .lazy name := by
  cases h <;> exact nofun

theorem sizeOf_lt (h : Rest rule rest) : sizeOf rest < sizeOf rule := by
  cases h <;>
    (simp only [Rule.sequence.sizeOf_spec, Rule.and.sizeOf_spec, Rule.or.sizeOf_spec,
      List.cons.sizeOf_spec]; omega)

theorem forall_mem_subrules {p : Rule → Prop} (h : Rest rule rest) (hrest : p rest)
    (hall : ∀ other ∈ rule.subrules, p other) : ∀ other ∈ rest.subrules, p other := by
  intro other hother
  rcases mem_subrules_iff.1 hother with rfl | ⟨part, hpart, hinside⟩
  · exact hrest
  · exact hall other (mem_subrules_of_part (h.mem_parts hpart) hinside)

theorem unrefined (h : Rest rule rest) (hrule : rule.Unrefined) : rest.Unrefined :=
  h.forall_mem_subrules h.isRefined_eq_false hrule

end Rest

end Rule

structure Trial where
  rule : Rule
  pos : Nat
  context : Context

namespace Trial

variable {input : List Char}

def Gives (input : List Char) (t : Trial) (a : Attempt Empty) (c : Context) : Prop :=
  ∃ fuel, t.rule.eval input fuel t.pos t.context = some (a, c)

def first? : Rule → Option Rule
  | .nonGreedy _ stop _ => some stop
  | rule => rule.parts.head?

/-- To try a rule, another one is tried first; when that has been done, what is left of the rule
goes on from there. -/
inductive Demands (input : List Char) : Trial → Trial → Prop where
  | first {rule part : Rule} {pos : Nat} {c : Context} : first? rule = some part →
      Demands input ⟨rule, pos, c⟩ ⟨part, pos, rule.entering c⟩
  | bound {name : String} {rule : Rule} {pos : Nat} {c : Context} : c.rule? name = .ok rule →
      Demands input ⟨.lazy name, pos, c⟩ ⟨rule, pos, c⟩
  | sequence {rule : Rule} {rules : List Rule} {pos : Nat} {c c' : Context} {a : Attempt Empty} :
      Gives input ⟨rule, pos, c⟩ a c' → a.isSuccessful = true →
      Demands input ⟨.sequence (rule :: rules), pos, c⟩ ⟨.sequence rules, a.stop, c'⟩
  | and {rule : Rule} {rules : List Rule} {pos : Nat} {c c' : Context} {a : Attempt Empty} :
      Gives input ⟨rule, pos, c⟩ a c' →
      Demands input ⟨.and (rule :: rules), pos, c⟩ ⟨.and rules, pos, c'⟩
  | or {longest : Bool} {rule : Rule} {rules : List Rule} {pos : Nat} {c c' : Context}
      {a : Attempt Empty} : Gives input ⟨rule, pos, c⟩ a c' →
      longest = true ∨ a.isSuccessful = false →
      Demands input ⟨.or longest (rule :: rules), pos, c⟩ ⟨.or longest rules, pos, c'⟩
  | repeating {rule : Rule} {atLeastOne : Bool} {pos : Nat} {c c' : Context} {a : Attempt Empty} :
      Gives input ⟨rule, pos, c⟩ a c' → a.isSuccessful = true → a.stop ≠ pos →
      Demands input ⟨.repeating rule atLeastOne, pos, c⟩ ⟨.repeating rule atLeastOne, a.stop, c'⟩
  | unstopped {rule stop : Rule} {atLeastOne : Bool} {pos : Nat} {c c' : Context}
      {a : Attempt Empty} : Gives input ⟨stop, pos, c⟩ a c' → a.isSuccessful = false →
      Demands input ⟨.nonGreedy rule stop atLeastOne, pos, c⟩ ⟨rule, pos, c'⟩
  | nonGreedy {rule stop : Rule} {atLeastOne : Bool} {pos : Nat} {c c' c'' : Context}
      {a b : Attempt Empty} : Gives input ⟨stop, pos, c⟩ a c' → a.isSuccessful = false →
      Gives input ⟨rule, pos, c'⟩ b c'' → b.isSuccessful = true → b.stop ≠ pos →
      Demands input ⟨.nonGreedy rule stop atLeastOne, pos, c⟩
        ⟨.nonGreedy rule stop atLeastOne, b.stop, c''⟩

theorem mem_parts_of_first? {rule part : Rule} (h : first? rule = some part) :
    part ∈ rule.parts := by
  cases rule with
  | nonGreedy rule stop atLeastOne =>
      obtain rfl := Option.some.inj h
      simp [Rule.parts]
  | _ => exact List.mem_of_head? h

def Reaches (input : List Char) : Trial → Trial → Prop := Relation.ReflTransGen (Demands input)

section Governed

variable {Q : Context → Rule → Prop} {F : Context → Context → Prop}
  (hgoverns : Rule.Governs Q F)

include hgoverns

theorem Gives.governed {t : Trial} {a : Attempt Empty} {c : Context} (h : t.Gives input a c)
    (ht : Q t.context t.rule) : F t.context c := by
  obtain ⟨fuel, ha⟩ := h
  have hjudges := (Rule.anything_judges input fun rule => ∃ c, Q c rule).toJudgesBound
  exact (Rule.eval_answers hgoverns hjudges (fun _ _ _ => trivial) fuel t.rule t.pos t.context ht
    a c ha).2

variable (hrest : ∀ {rule rest : Rule} {c : Context}, Rule.Rest rule rest → Q c rule → Q c rest)

include hrest

theorem Demands.governed {t u : Trial} (h : Demands input t u) (ht : Q t.context t.rule) :
    Q u.context u.rule := by
  cases h with
  | first hfirst => exact hgoverns.part ht (mem_parts_of_first? hfirst)
  | bound hbound => exact hgoverns.lookup ht hbound
  | sequence ha hok =>
      have hfirst := hgoverns.part ht List.mem_cons_self
      exact hgoverns.later (hrest (.sequence _ _) ht) (ha.governed hgoverns hfirst)
  | and ha =>
      have hfirst := hgoverns.part ht List.mem_cons_self
      exact hgoverns.later (hrest (.and _ _) ht) (ha.governed hgoverns hfirst)
  | or ha hleft =>
      have hfirst := hgoverns.part ht List.mem_cons_self
      exact hgoverns.later (hrest (.or _ _ _) ht) (ha.governed hgoverns hfirst)
  | repeating ha hok hmove =>
      have hround := hgoverns.part ht (List.mem_singleton_self _)
      exact hgoverns.later ht (ha.governed hgoverns hround)
  | @unstopped rule stop atLeastOne pos c c' a ha hfail =>
      have hrule : Q c rule := hgoverns.part ht List.mem_cons_self
      have hstop : Q c stop := hgoverns.part ht (by simp [Rule.parts])
      exact hgoverns.later hrule (ha.governed hgoverns hstop)
  | @nonGreedy rule stop atLeastOne pos c c' c'' a b ha hfail hb hok hmove =>
      have hrule : Q c rule := hgoverns.part ht List.mem_cons_self
      have hstop : Q c stop := hgoverns.part ht (by simp [Rule.parts])
      have hstopped : F c c' := ha.governed hgoverns hstop
      have hround : F c' c'' := hb.governed hgoverns (hgoverns.later hrule hstopped)
      exact hgoverns.later ht (hgoverns.trans hstopped hround)

theorem Reaches.governed {t u : Trial} (h : Reaches input t u) (ht : Q t.context t.rule) :
    Q u.context u.rule := by
  induction h with
  | refl => exact ht
  | tail _ hnext ih => exact hnext.governed hgoverns hrest ih

end Governed

def Ends (input : List Char) (t : Trial) : Prop :=
  Settles fun fuel => t.rule.eval input fuel t.pos t.context

theorem judged_ends {m : Nat → Rule.Matching} (judge : Nat → Verdict → Verdict) {pos : Nat}
    {c : Context} (h : Settles fun fuel => m fuel pos c) :
    Settles fun fuel => Rule.judged (m fuel) judge pos c := h.andThen fun _ => ⟨_, rfl⟩

theorem holds_ends {m : Nat → Rule.Matching} {pos : Nat} {c : Context}
    (h : Settles fun fuel => m fuel pos c) : Settles fun fuel => Rule.holds (m fuel) pos c := by
  simp only [Rule.holds, Option.map_eq_bind]
  exact h.andThen fun _ => ⟨_, rfl⟩

theorem exists_of_holds {m : Rule.Matching} {pos : Nat} {c c' : Context} {stopped : Bool}
    (h : Rule.holds m pos c = some (stopped, c')) :
    ∃ a, m pos c = some (a, c') ∧ a.isSuccessful = stopped := by
  obtain ⟨⟨a, _⟩, ha, hresult⟩ := Option.map_eq_some_iff.1 h
  obtain ⟨hstopped, rfl⟩ := Prod.mk.inj hresult
  exact ⟨a, ha, hstopped⟩

theorem ends_of_demanded {t : Trial} (hacc : Acc (fun u t => Demands input t u) t)
    (hdemanded : ∀ u, Relation.TransGen (Demands input) t u → u.Ends input) : t.Ends input := by
  obtain ⟨rule, pos, c⟩ := t
  have hends {u v : Trial} (hu : Reaches input ⟨rule, pos, c⟩ u) (hv : Demands input u v) :
      v.Ends input := hdemanded v (.tail' hu hv)
  have hfirst : ∀ part, first? rule = some part →
      Settles fun fuel => part.eval input fuel pos (rule.entering c) :=
    fun part hpart => hends .refl (.first hpart)
  apply Settles.succ
  -- What is left of a rule is reached from the rule, and demands the next part to be tried.
  cases rule with
  | literal text => exact .answer _
  | length n => exact .answer _
  | regex r => exact .answer _
  | refined base check => exact judged_ends _ (hfirst base rfl)
  | sequence rules =>
      refine Matcher.sequence_settles (K := fun members pos' c' =>
        Reaches input ⟨.sequence rules, pos, c⟩ ⟨.sequence members, pos', c'⟩) ?_ ?_ .refl
      · exact fun member members pos' c' hk => hends hk (.first rfl)
      · exact fun fuel member members pos' c' a c'' hk ha hok => hk.tail (.sequence ⟨fuel, ha⟩ hok)
  | and rules =>
      refine Matcher.conjunction_settles (K := fun members c' =>
        Reaches input ⟨.and rules, pos, c⟩ ⟨.and members, pos, c'⟩) ?_ ?_ .refl
      · exact fun member members c' hk => hends hk (.first rfl)
      · exact fun fuel member members c' a c'' hk ha => hk.tail (.and ⟨fuel, ha⟩)
  | or longest alternatives =>
      refine Matcher.choice_settles (K := fun members c' =>
        Reaches input ⟨.or longest alternatives, pos, c⟩ ⟨.or longest members, pos, c'⟩)
        ?_ longest ?_ .refl
      · exact fun member members c' hk => hends hk (.first rfl)
      · intro fuel member members c' a c'' hk ha hon
        have hleft : longest = true ∨ a.isSuccessful = false :=
          (Bool.and_eq_false_iff.1 hon).imp_left (by simp)
        exact hk.tail (.or ⟨fuel, ha⟩ hleft)
  | not rule => exact judged_ends _ (hfirst rule rfl)
  | optional rule => exact Matcher.optional_settles (hfirst rule rfl)
  | repeating rule atLeastOne =>
      have hround : Acc (InvImage (fun u t => Demands input t u) fun round : Nat × Context =>
          ⟨.repeating rule atLeastOne, round.1, round.2⟩) (pos, c) := InvImage.accessible _ hacc
      refine Matcher.repeating_settles (K := fun pos' c' =>
        Reaches input ⟨.repeating rule atLeastOne, pos, c⟩ ⟨.repeating rule atLeastOne, pos', c'⟩)
        ?_ ?_ atLeastOne hround .refl
      · exact fun pos' c' hk => hends hk (.first rfl)
      · intro fuel pos' c' a c'' hk ha hok hmove
        have hnext : Demands input ⟨.repeating rule atLeastOne, pos', c'⟩
            ⟨.repeating rule atLeastOne, a.stop, c''⟩ := .repeating ⟨fuel, ha⟩ hok hmove
        exact ⟨hk.tail hnext, hnext⟩
  | nonGreedy rule stop atLeastOne =>
      have hround : Acc (InvImage (fun u t => Demands input t u) fun round : Nat × Context =>
          ⟨.nonGreedy rule stop atLeastOne, round.1, round.2⟩) (pos, c) :=
        InvImage.accessible _ hacc
      refine Matcher.nonGreedy_settles (K := fun pos' c' =>
        Reaches input ⟨.nonGreedy rule stop atLeastOne, pos, c⟩
          ⟨.nonGreedy rule stop atLeastOne, pos', c'⟩) ?_ ?_ ?_ atLeastOne hround .refl
      · exact fun pos' c' hk => holds_ends (hends hk (.first rfl))
      · intro fuel pos' c' c'' hk hstopped
        obtain ⟨a, ha, hfail⟩ := exists_of_holds hstopped
        exact hends hk (.unstopped ⟨fuel, ha⟩ hfail)
      · intro fuel fuel' pos' c' c₁ b c₂ hk hstopped hb hok hmove
        obtain ⟨a, ha, hfail⟩ := exists_of_holds hstopped
        have hnext : Demands input ⟨.nonGreedy rule stop atLeastOne, pos', c'⟩
            ⟨.nonGreedy rule stop atLeastOne, b.stop, c₂⟩ :=
          .nonGreedy ⟨fuel, ha⟩ hfail ⟨fuel', hb⟩ hok hmove
        exact ⟨hk.tail hnext, hnext⟩
  | set name rule => exact Matcher.onSuccess_settles _ (hfirst rule rfl)
  | setAndUse name rule => exact Matcher.onSuccess_settles _ (hfirst rule rfl)
  | lazy name =>
      refine Matcher.resolved_settles ?_
      cases hfound : c.rule? name with
      | error e => exact .inl ⟨e.message, fun _ => rfl⟩
      | ok bound =>
          exact .inr ⟨fun fuel => bound.eval input fuel, fun _ => rfl, hends .refl (.bound hfound)⟩
  | completed rule => exact judged_ends _ (hfirst rule rfl)

theorem ends_of_acc {t : Trial} (hacc : Acc (fun u t => Demands input t u) t) : t.Ends input := by
  -- The induction is along all that is demanded on the way, not only next.
  induction hacc.transGen with
  | intro t _ ih =>
      refine ends_of_demanded hacc fun u hu => ?_
      have hbelow := Relation.transGen_swap.1 hu
      exact ih u hbelow (hacc.inv_of_transGen hbelow)

end Trial

end TextGrammar
