import TextGrammar.Proofs.Action.Erasure

/-!
# Tokenizing and matching in step

Evaluating an action and evaluating its rule take the same course, verdict by verdict.  An action
spends fuel on wrapping and consuming, a rule does not.  So a rule never needs more fuel than the
action, and the action needs at most its own size for each unit that the rule spends.
-/

namespace TextGrammar.Action

section Embedded

variable {root : Action} {m n : Rule.Matching} {input : List Char}

private theorem embedded_left (h : ∀ c : TokenizingContext,
      m.SimulatedBy (fun s t => Mirrors root { c with matching := s } t) n) :
    (embedded input m).SimulatedBy (Mirrors root) n := by
  intro pos c t hr
  refine (h c pos c.matching t hr).bind_left ?_
  intro a b s t' hab hr'
  exact .answer hab hr'

private theorem embedded_right (h : ∀ c : TokenizingContext,
      n.SimulatedBy (fun t s => Mirrors root { c with matching := s } t) m) :
    n.SimulatedBy (fun t c => Mirrors root c t) (embedded input m) := by
  intro pos t c hr
  refine (h c pos t c.matching hr).bind_right ?_
  intro b a t' s hba hr'
  exact .answer hba hr'

private theorem holds_left (h : ∀ c : TokenizingContext,
      m.SimulatedBy (fun s t => Mirrors root { c with matching := s } t) n) (pos : Nat)
    {c : TokenizingContext} {t : Context} (hr : Mirrors root c t) :
    Follows Eq (Mirrors root) (holds m pos c) (Rule.holds n pos t) := by
  unfold holds
  rw [Option.map_eq_bind]
  refine (Rule.holds_simulated (h c) pos hr).bind_left ?_
  intro stopped stopped' s t' heq hr'
  exact .answer heq hr'

private theorem holds_right (h : ∀ c : TokenizingContext,
      n.SimulatedBy (fun t s => Mirrors root { c with matching := s } t) m) (pos : Nat)
    {c : TokenizingContext} {t : Context} (hr : Mirrors root c t) :
    Follows Eq (fun t c => Mirrors root c t) (Rule.holds n pos t) (holds m pos c) := by
  unfold holds
  rw [Option.map_eq_bind]
  refine (Rule.holds_simulated (h c) pos hr).bind_right ?_
  intro stopped stopped' t' s heq hr'
  exact .answer heq hr'

end Embedded

section Emitting

variable {τ ε : Type} {m : Tokenizing} {n : Matcher τ ε}

private theorem emitting_left {R : TokenizingContext → τ → Prop} (h : m.SimulatedBy R n)
    (change : List Element → List Element) : (emitting m change).SimulatedBy R n := by
  intro pos c t hr
  refine (h pos c t hr).bind_left ?_
  intro a b c' t' hab hr'
  exact .answer hab hr'

private theorem emitting_right {R : τ → TokenizingContext → Prop} (h : n.SimulatedBy R m)
    (change : List Element → List Element) : n.SimulatedBy R (emitting m change) := by
  intro pos t c hr
  refine (h pos t c hr).bind_right ?_
  intro b a t' c' hba hr'
  exact .answer hba hr'

end Emitting

def Affords (root action : Action) (fuel more : Nat) : Prop :=
  fuel * sizeOf root + sizeOf action ≤ more

namespace Affords

variable {root action other : Action} {fuel more : Nat}

private theorem pos (h : Affords root action fuel more) : 0 < more := by
  have hpos := sizeOf_pos action
  unfold Affords at h
  omega

private theorem inner (h : Affords root action fuel (more + 1)) (hpart : other ∈ action.parts) :
    Affords root other fuel more := by
  have hlt := sizeOf_lt_of_mem_parts hpart
  unfold Affords at h ⊢
  omega

private theorem bound (h : Affords root action (fuel + 1) (more + 1))
    (hbound : other ∈ root.subactions) : Affords root other fuel more := by
  have hpos := sizeOf_pos action
  have hle := sizeOf_le_of_mem_subactions hbound
  unfold Affords at h ⊢
  rw [Nat.succ_mul] at h
  omega

private theorem part (h : Affords root action (fuel + 1) (more + 1))
    (hpart : other ∈ action.parts) : Affords root other fuel more := by
  have hinner := h.inner hpart
  unfold Affords at hinner ⊢
  rw [Nat.succ_mul] at hinner
  omega

private theorem lt (h : Affords root action (fuel + 1) (more + 1)) : fuel < more := by
  have hpos := sizeOf_pos action
  have hroot := sizeOf_pos root
  have hmul : fuel ≤ fuel * sizeOf root := Nat.le_mul_of_pos_right fuel hroot
  unfold Affords at h
  rw [Nat.succ_mul] at h
  omega

end Affords

/-! ## Evaluation -/

section Evaluation

variable {root : Action} (hapart : root.NamesApart)

include hapart

private theorem rule_simulated (input : List Char) {action : Action}
    (haction : action ∈ root.subactions)
    {rule : Rule} (hrule : rule ∈ action.rules) {fuel fuel' : Nat} (hfuel : fuel ≤ fuel')
    (c : TokenizingContext) :
    (rule.eval input fuel).SimulatedBy (fun s t => Mirrors root { c with matching := s } t)
      (rule.eval input fuel') := by
  apply Rule.eval_simulated (Mirrors.respects hapart c) input hfuel
  exact fun used hused => mem_ruleNames haction hrule hused

private theorem rule_simulated_back (input : List Char) {action : Action}
    (haction : action ∈ root.subactions) {rule : Rule} (hrule : rule ∈ action.rules)
    {fuel fuel' : Nat} (hfuel : fuel ≤ fuel') (c : TokenizingContext) :
    (rule.eval input fuel).SimulatedBy (fun t s => Mirrors root { c with matching := s } t)
      (rule.eval input fuel') := by
  apply Rule.eval_simulated (Mirrors.respects hapart c).symm input hfuel
  exact fun used hused => mem_ruleNames haction hrule hused

private theorem eval_erase (input : List Char) {fuel fuel' : Nat} (hfuel : fuel ≤ fuel') :
    ∀ action ∈ root.subactions,
      (eval input fuel action).SimulatedBy (Mirrors root) (action.erase.eval input fuel') := by
  induction fuel generalizing fuel' with
  | zero =>
      intro action _ pos c t _
      simp only [eval]
      exact .nothing _
  | succ fuel ih =>
      have hle : fuel ≤ fuel' := by omega
      obtain ⟨more, rfl⟩ : ∃ more, fuel' = more + 1 := ⟨fuel' - 1, by omega⟩
      have hmore : fuel ≤ more := by omega
      intro action haction
      have hpart : ∀ part ∈ action.parts,
          (eval input fuel part).SimulatedBy (Mirrors root) (part.erase.eval input more) :=
        fun part hmem => ih hmore part (mem_subactions_of_part haction hmem)
      cases action with
      | literal rule =>
          exact embedded_left (rule_simulated hapart input haction (by simp [rules]) hle)
      | wrap name action =>
          have hinner : action ∈ root.subactions :=
            mem_subactions_of_part haction (by simp [parts])
          exact emitting_left (ih hle action hinner) _
      | consume action =>
          have hinner : action ∈ root.subactions :=
            mem_subactions_of_part haction (by simp [parts])
          exact emitting_left (ih hle action hinner) _
      | sequence actions =>
          simp only [erase, eraseAll_eq, eval, Rule.eval, List.map_map]
          exact Matcher.sequence_simulated hpart
      | or longest alternatives =>
          simp only [erase, eraseAll_eq, eval, Rule.eval, List.map_map]
          exact Matcher.choice_simulated hpart longest
      | optional action => exact Matcher.optional_simulated (hpart action (by simp [parts]))
      | repeating action atLeastOne =>
          exact Matcher.repeating_simulated (hpart action (by simp [parts])) hmore atLeastOne
      | nonGreedy action stop atLeastOne =>
          have hmem : stop ∈ (Action.nonGreedy action stop atLeastOne).rules := by simp [rules]
          have hstop := rule_simulated hapart input haction hmem hmore
          exact Matcher.nonGreedy_simulated (hpart action (by simp [parts]))
            (fun pos c t hr => holds_left hstop pos hr) hmore atLeastOne
      | set name action =>
          have hmem : action ∈ (Action.set name action).parts := by simp [parts]
          apply Matcher.onSuccess_simulated (hpart action hmem)
          intro pos a b c t hab hr
          exact (hr.bind hapart haction rfl hmem).capture hab.stop
      | setAndUse name action =>
          have hmem : action ∈ (Action.setAndUse name action).parts := by simp [parts]
          refine Matcher.before_simulated (Matcher.onSuccess_simulated (hpart action hmem) ?_) ?_
          · intro pos a b c t hab hr
            exact hr.capture hab.stop
          · intro c t hr
            exact hr.bind hapart haction rfl hmem
      | lazy name =>
          refine Matcher.resolved_simulated fun c t hr => ?_
          rcases hr.lookup (mem_names haction rfl) with ⟨e, hc, ht⟩ | ⟨bound, hbound, hc, ht⟩
          · exact .inl ⟨e.message, by rw [hc]; rfl, by rw [ht]; rfl⟩
          · exact .inr ⟨_, _, by rw [hc]; rfl, by rw [ht]; rfl, ih hmore bound hbound⟩

private theorem erase_eval (input : List Char) {more : Nat} : ∀ fuel, ∀ action ∈ root.subactions,
    Affords root action fuel more →
      (action.erase.eval input fuel).SimulatedBy (fun t c => Mirrors root c t)
        (eval input more action) := by
  -- By induction on the fuel of the action, which has to last for wrapping and consuming too.
  induction more with
  | zero =>
      intro fuel action _ hfuel
      exact absurd hfuel.pos (Nat.lt_irrefl 0)
  | succ more ih =>
      intro fuel action haction hfuel
      cases fuel with
      | zero =>
          intro pos t c _
          simp only [Rule.eval]
          exact .nothing _
      | succ fuel =>
          have hlt : fuel < more := hfuel.lt
          have hle : fuel ≤ more := Nat.le_of_lt hlt
          have hpart : ∀ part ∈ action.parts,
              (part.erase.eval input fuel).SimulatedBy (fun t c => Mirrors root c t)
                (eval input more part) :=
            fun part hmem => ih fuel part (mem_subactions_of_part haction hmem) (hfuel.part hmem)
          have hinner : ∀ part ∈ action.parts,
              (part.erase.eval input (fuel + 1)).SimulatedBy (fun t c => Mirrors root c t)
                (eval input more part) :=
            fun part hmem =>
              ih (fuel + 1) part (mem_subactions_of_part haction hmem) (hfuel.inner hmem)
          cases action with
          | literal rule =>
              rw [erase]
              exact embedded_right (rule_simulated_back hapart input haction (by simp [rules]) hlt)
          | wrap name action => exact emitting_right (hinner action (by simp [parts])) _
          | consume action => exact emitting_right (hinner action (by simp [parts])) _
          | sequence actions =>
              simp only [erase, eraseAll_eq, eval, Rule.eval, List.map_map]
              exact Matcher.sequence_simulated hpart
          | or longest alternatives =>
              simp only [erase, eraseAll_eq, eval, Rule.eval, List.map_map]
              exact Matcher.choice_simulated hpart longest
          | optional action => exact Matcher.optional_simulated (hpart action (by simp [parts]))
          | repeating action atLeastOne =>
              exact Matcher.repeating_simulated (hpart action (by simp [parts])) hle atLeastOne
          | nonGreedy action stop atLeastOne =>
              have hmem : stop ∈ (Action.nonGreedy action stop atLeastOne).rules := by
                simp [rules]
              have hstop := rule_simulated_back hapart input haction hmem hle
              exact Matcher.nonGreedy_simulated (hpart action (by simp [parts]))
                (fun pos t c hr => holds_right hstop pos hr) hle atLeastOne
          | set name action =>
              have hmem : action ∈ (Action.set name action).parts := by simp [parts]
              apply Matcher.onSuccess_simulated (hpart action hmem)
              intro pos b a t c hba hr
              exact (hr.bind hapart haction rfl hmem).capture hba.stop.symm
          | setAndUse name action =>
              have hmem : action ∈ (Action.setAndUse name action).parts := by simp [parts]
              refine Matcher.before_simulated
                (Matcher.onSuccess_simulated (hpart action hmem) ?_) ?_
              · intro pos b a t c hba hr
                exact hr.capture hba.stop.symm
              · intro t c hr
                exact hr.bind hapart haction rfl hmem
          | lazy name =>
              refine Matcher.resolved_simulated fun t c hr => ?_
              rcases hr.lookup (mem_names haction rfl) with ⟨e, hc, ht⟩ | ⟨bound, hbound, hc, ht⟩
              · exact .inl ⟨e.message, by rw [ht]; rfl, by rw [hc]; rfl⟩
              · have hmore := ih fuel bound hbound (hfuel.bound hbound)
                exact .inr ⟨_, _, by rw [ht]; rfl, by rw [hc]; rfl, hmore⟩

end Evaluation

/-! ## Tokenizing and matching -/

section Tokenizing

variable {action : Action} (hapart : action.NamesApart) {input : List Char} {start fuel : Nat}

include hapart

private theorem matchAt_of_tokenizeAt {elements : List Element} {v : Verdict}
    {c : TokenizingContext} (h : action.tokenizeAt fuel input start {} = some (elements, v, c)) :
    ∃ t, action.erase.matchAt fuel input start {} = some (v, t) ∧ Mirrors action c t := by
  obtain ⟨⟨a, _⟩, ha, hv⟩ := Option.map_eq_some_iff.1 h
  cases hv
  have hsimulated := eval_erase hapart input (Nat.le_refl fuel) action action.mem_subactions_self
  obtain ⟨b, t, hb, hverdict, hmirrors⟩ :=
    hsimulated start {} {} (Mirrors.empty action) a c ha
  have hab : a.verdict = b.verdict := hverdict
  exact ⟨t, Option.map_eq_some_iff.2 ⟨(b, t), hb, by rw [hab]⟩, hmirrors⟩

private theorem tokenizeAt_of_matchAt {v : Verdict} {t : Context}
    (h : action.erase.matchAt fuel input start {} = some (v, t)) :
    ∃ fuel' elements c, action.tokenizeAt fuel' input start {} = some (elements, v, c) := by
  obtain ⟨⟨b, _⟩, hb, hv⟩ := Option.map_eq_some_iff.1 h
  cases hv
  have hsimulated := erase_eval hapart input fuel action action.mem_subactions_self
    (Nat.le_refl _)
  obtain ⟨a, c, ha, hverdict, -⟩ := hsimulated start {} {} (Mirrors.empty action) b t hb
  have hab : b.verdict = a.verdict := hverdict
  exact ⟨_, a.emitted, c, Option.map_eq_some_iff.2 ⟨(a, c), ha, by rw [hab]⟩⟩

end Tokenizing

/-- Tokenizing and matching end on the same inputs, with the same verdict and the same texts. -/
theorem tokenizeAt_agrees_with_erasure (action : Action) (hapart : action.NamesApart)
    (input : List Char) (start : Nat) :
    ((∃ fuel, action.tokenizeAt fuel input start {} ≠ none) ↔
      ∃ fuel, action.erase.matchAt fuel input start {} ≠ none) ∧
    ∀ fuel fuel' elements v c v' t,
      action.tokenizeAt fuel input start {} = some (elements, v, c) →
      action.erase.matchAt fuel' input start {} = some (v', t) →
        v = v' ∧ ∀ name, c.matching.captured? name = t.captured? name := by
  constructor
  · constructor
    · rintro ⟨fuel, h⟩
      obtain ⟨⟨elements, v, c⟩, hanswer⟩ := Option.ne_none_iff_exists'.1 h
      obtain ⟨t, ht, -⟩ := matchAt_of_tokenizeAt hapart hanswer
      exact ⟨fuel, by simp [ht]⟩
    · rintro ⟨fuel, h⟩
      obtain ⟨⟨v, t⟩, hanswer⟩ := Option.ne_none_iff_exists'.1 h
      obtain ⟨fuel', elements, c, hc⟩ := tokenizeAt_of_matchAt hapart hanswer
      exact ⟨fuel', by simp [hc]⟩
  · intro fuel fuel' elements v c v' t htokenize hmatch
    obtain ⟨t', ht', hmirrors⟩ := matchAt_of_tokenizeAt hapart htokenize
    obtain ⟨rfl, rfl⟩ :=
      Prod.mk.inj ((action.erase.matchAt_steady input start {}).unique ⟨fuel, ht'⟩ ⟨fuel', hmatch⟩)
    refine ⟨rfl, fun name => ?_⟩
    unfold Context.captured?
    rw [hmirrors.texts]

def nestedGroups : Action :=
  .setAndUse "group" (.wrap ⟨"group", by decide⟩ (.sequence [consumeRule (.literal "("),
    .optional (.lazy "group"), .literal (.set "closing" (.literal ")"))]))

theorem tokenizeAt_agrees_with_erasure_nested :
    nestedGroups.NamesApart ∧
      (∃ fuel, nestedGroups.tokenizeAt fuel ['(', '(', ')', ')'] 0 {} ≠ none) ∧
      (∃ fuel, nestedGroups.erase.matchAt fuel ['(', '(', ')', ')'] 0 {} ≠ none) ∧
      ∀ fuel fuel' elements v c v' t,
        nestedGroups.tokenizeAt fuel ['(', '(', ')', ')'] 0 {} = some (elements, v, c) →
        nestedGroups.erase.matchAt fuel' ['(', '(', ')', ')'] 0 {} = some (v', t) →
          v = v' ∧ ∀ name, c.matching.captured? name = t.captured? name := by
  have hapart : nestedGroups.NamesApart := by decide
  have hend : ∃ fuel, nestedGroups.tokenizeAt fuel ['(', '(', ')', ')'] 0 {} ≠ none :=
    ⟨16, Option.isSome_iff_ne_none.1 (by decide +kernel)⟩
  have h := tokenizeAt_agrees_with_erasure nestedGroups hapart ['(', '(', ')', ')'] 0
  exact ⟨hapart, hend, h.1.1 hend, h.2⟩

end TextGrammar.Action
