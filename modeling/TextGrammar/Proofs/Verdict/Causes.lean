import TextGrammar.Proofs.Action.Invariant
import TextGrammar.Proofs.Rule.Heredity
import TextGrammar.Proofs.Verdict.Tree

/-!
# What a failure is put down to

A verdict that says what happened can be read from the root on: a success rests on parts that
succeeded or do not count, and a syntax error on a part that failed, until an error is reached that
has a cause of its own.  Checks are free to answer anything, so this holds of grammars without them.
Whatever the checks answer though, a verdict is composed only where no part makes the whole fail.
-/

namespace TextGrammar

namespace Verdict

/-- What a syntax error can find fault with though no part failed. -/
inductive HasOwnCause (v : Verdict) : Prop where
  | disagreement : v.message = "Rules matched different lengths" →
      (∀ part ∈ v.parts, part.isSuccessful = true) →
      (∃ part ∈ v.parts, ∃ other ∈ v.parts, part.stop ≠ other.stop) → HasOwnCause v
  | noProgress : v.message = "Repetition made no progress before the stop rule matched" →
      (∀ part ∈ v.parts, part.isSuccessful = true) → HasOwnCause v
  | noAlternative : v.message = "No alternative matched" → v.parts = [] → HasOwnCause v

structure WellShaped (v : Verdict) : Prop where
  success : v.isSuccessful = true →
    ∀ part ∈ v.parts, part.isSuccessful = true ∨ part.aside = true
  aside : v.aside = true → v.isSuccessful = false
  cause : v.outcome = .syntaxError →
    (∃ part ∈ v.parts, part.isSuccessful = false ∧ part.aside = false) ∨ v.HasOwnCause

theorem WellShaped.setAside {v : Verdict} (h : v.WellShaped) (hfail : v.isSuccessful = false) :
    v.setAside.WellShaped where
  success hok := absurd (hfail.symm.trans hok) nofun
  aside _ := hfail
  cause herror := by
    rcases h.cause herror with hfailed | hown
    · exact .inl hfailed
    · cases hown with
      | disagreement hmessage hparts hdiffer => exact .inr (.disagreement hmessage hparts hdiffer)
      | noProgress hmessage hparts => exact .inr (.noProgress hmessage hparts)
      | noAlternative hmessage hparts => exact .inr (.noAlternative hmessage hparts)

structure HasCauses (v : Verdict) : Prop where
  counts : v.aside = false
  nodes : ∀ node ∈ v.nodes, node.WellShaped

namespace HasCauses

theorem ofParts {v : Verdict} (hcounts : v.aside = false) (hv : v.WellShaped)
    (hparts : ∀ part ∈ v.parts, ∀ node ∈ part.nodes, node.WellShaped) : v.HasCauses :=
  ⟨hcounts, forall_mem_nodes_iff.2 ⟨hv, hparts⟩⟩

theorem leaf {v : Verdict} (hcounts : v.aside = false) (houtcome : v.outcome ≠ .syntaxError)
    (hparts : v.parts = []) : v.HasCauses :=
  .ofParts hcounts
    ⟨by simp [hparts], fun haside => absurd (hcounts.symm.trans haside) nofun,
      fun herror => absurd herror houtcome⟩
    (by simp [hparts])

theorem syntaxError {message : String} {stop : Nat} {parts : List Verdict}
    (hparts : ∀ part ∈ parts, part.HasCauses)
    (hcause : (∃ part ∈ parts, part.isSuccessful = false) ∨
      (Verdict.syntaxError message stop parts).HasOwnCause) :
    (Verdict.syntaxError message stop parts).HasCauses := by
  refine .ofParts rfl ⟨nofun, nofun, fun _ => ?_⟩ fun part hpart => (hparts part hpart).nodes
  refine hcause.imp_left ?_
  rintro ⟨part, hpart, hfail⟩
  exact ⟨part, hpart, hfail, (hparts part hpart).counts⟩

theorem wellShaped_of_accepted {part : Verdict} (h : Accepted HasCauses part) :
    ∀ node ∈ part.nodes, node.WellShaped := by
  rcases h with ⟨hcauses, -⟩ | ⟨v, hcauses, hfail, rfl⟩
  · exact hcauses.nodes
  · obtain ⟨hv, hparts⟩ := forall_mem_nodes_iff.1 hcauses.nodes
    exact forall_mem_nodes_iff.2 ⟨hv.setAside hfail, hparts⟩

end HasCauses

theorem Accepted.isSuccessful_or_aside {V : Verdict → Prop} {part : Verdict}
    (h : Accepted V part) : part.isSuccessful = true ∨ part.aside = true := by
  rcases h with ⟨-, hok⟩ | ⟨v, -, -, rfl⟩
  · exact .inl hok
  · exact .inr rfl

private theorem hasCauses_hereditary : Hereditary HasCauses where
  success _ := .leaf rfl nofun rfl
  parseError _ _ := .leaf rfl nofun rfl
  composed {stop} {parts} hparts := by
    rw [composed_eq_success "" stop fun part hpart => (hparts part hpart).isFailure]
    refine .ofParts rfl ⟨fun _ part hpart => ?_, nofun, nofun⟩ fun part hpart => ?_
    · exact (hparts part hpart).isSuccessful_or_aside
    · exact HasCauses.wellShaped_of_accepted (hparts part hpart)
  broken _ hparts hfailed := .syntaxError hparts (.inl hfailed)
  stalled hparts :=
    .syntaxError (fun part hpart => (hparts part hpart).1)
      (.inr (.noProgress rfl fun part hpart => (hparts part hpart).2))
  unequal hparts hdiffer :=
    .syntaxError (fun part hpart => (hparts part hpart).1)
      (.inr (.disagreement rfl (fun part hpart => (hparts part hpart).2) hdiffer))
  noAlternative _ := .syntaxError nofun (.inr (.noAlternative rfl rfl))

/-- A success composed of parts none of which makes the whole fail, or a failure that was not
composed at all. -/
def PutTogether (v : Verdict) : Prop :=
  (∃ stop parts, v = .composed "" stop parts ∧ ∀ part ∈ parts, part.isFailure = false) ∨
    v.isSuccessful = false ∧ ∀ stop parts, v ≠ .composed "" stop parts

namespace PutTogether

private theorem composed (stop : Nat) {parts : List Verdict}
    (h : ∀ part ∈ parts, part.isFailure = false) :
    (Verdict.composed "" stop parts).PutTogether := .inl ⟨stop, parts, rfl, h⟩

private theorem parseError (message : String) (stop : Nat) :
    (Verdict.parseError message stop).PutTogether := by
  refine .inr ⟨rfl, fun stop' parts heq => ?_⟩
  unfold Verdict.composed at heq
  split at heq <;> exact absurd (congrArg Verdict.outcome heq) nofun

private theorem syntaxError {message : String} (hmessage : message ≠ "") (stop : Nat)
    (parts : List Verdict) : (Verdict.syntaxError message stop parts).PutTogether := by
  refine .inr ⟨rfl, fun stop' parts' heq => ?_⟩
  unfold Verdict.composed at heq
  split at heq
  · exact hmessage (congrArg Verdict.message heq)
  · exact absurd (congrArg Verdict.outcome heq) nofun

private theorem agreement (pos : Nat) (vs : List Verdict) :
    (Matcher.agreement pos vs).PutTogether := by
  unfold Matcher.agreement
  dsimp only
  split
  · exact .syntaxError (by decide) pos vs
  rename_i hall
  split
  · exact .syntaxError (by decide) pos vs
  · refine .composed _ fun v hv => ?_
    simp only [List.any_eq_true, Bool.not_eq_true', not_exists, not_and, Bool.not_eq_false] at hall
    simp [Verdict.isFailure, hall v hv]

private theorem compositional {ε : Type} :
    Matcher.CompositionalBound (fun _ (_ : Attempt ε) => True)
      fun _ a => a.verdict.PutTogether where
  passed hpath := .composed _ (hpath.isFailure_verdicts nofun)
  leftOff hpath _ _ := .composed _ (hpath.isFailure_verdicts (List.forall_mem_singleton.2 rfl))
  broken hmessage _ _ _ := .syntaxError hmessage _ _
  stalled _ := .syntaxError (by decide) _ _
  refused hmessage _ _ := .syntaxError hmessage _ _
  disallowed pos message := .parseError message pos

end PutTogether

end Verdict

theorem Matcher.ensures_true {σ ε : Type} (m : Matcher σ ε) :
    m.Ensures (fun _ => True) fun _ _ => True := fun _ _ _ _ _ _ => ⟨trivial, trivial⟩

inductive Rule.Composite : Rule → Prop where
  | sequence (rules : List Rule) : Composite (.sequence rules)
  | and (rules : List Rule) : Composite (.and rules)
  | optional (rule : Rule) : Composite (.optional rule)
  | repeating (rule : Rule) (atLeastOne : Bool) : Composite (.repeating rule atLeastOne)
  | nonGreedy (rule stop : Rule) (atLeastOne : Bool) : Composite (.nonGreedy rule stop atLeastOne)

inductive Action.Composite : Action → Prop where
  | sequence (actions : List Action) : Composite (.sequence actions)
  | optional (action : Action) : Composite (.optional action)
  | repeating (action : Action) (atLeastOne : Bool) : Composite (.repeating action atLeastOne)
  | nonGreedy (action : Action) (stop : Rule) (atLeastOne : Bool) :
      Composite (.nonGreedy action stop atLeastOne)

open Verdict Matcher

theorem Rule.Composite.putTogether {rule : Rule} (h : rule.Composite) {fuel : Nat}
    {input : List Char} {start : Nat} {c c' : Context} {v : Verdict}
    (hmatch : rule.matchAt fuel input start c = some (v, c')) : v.PutTogether := by
  obtain ⟨⟨a, _⟩, ha, hv⟩ := Option.map_eq_some_iff.1 hmatch
  cases hv
  cases fuel with
  | zero => exact absurd ha nofun
  | succ fuel =>
      have hp := PutTogether.compositional (ε := Empty)
      have hparts : ∀ part : Rule, (part.eval input fuel).Ensures _ _ := fun _ => ensures_true _
      suffices hensures : (rule.eval input (fuel + 1)).Ensures (fun _ => True)
          fun _ a => a.verdict.PutTogether from (hensures start c trivial a c' ha).1
      cases h with
      | sequence rules => exact sequence_ensures (fun part _ => hparts part) hp
      | and rules =>
          exact conjunction_ensures (V := fun _ _ => True) (fun part _ => hparts part)
            fun _ => .agreement _ _
      | optional rule => exact optional_ensures (hparts rule) hp
      | repeating rule atLeastOne => exact repeating_ensures (hparts rule) hp fuel atLeastOne
      | nonGreedy rule stop atLeastOne =>
          exact nonGreedy_ensures (hparts rule) hp (fun _ _ _ _ _ _ => ⟨trivial, trivial⟩) fuel
            atLeastOne

theorem Action.Composite.putTogether {action : Action} (h : action.Composite) {fuel : Nat}
    {input : List Char} {start : Nat} {c c' : TokenizingContext} {es : List Element} {v : Verdict}
    (htokenize : action.tokenizeAt fuel input start c = some (es, v, c')) : v.PutTogether := by
  obtain ⟨⟨a, _⟩, ha, hv⟩ := Option.map_eq_some_iff.1 htokenize
  cases hv
  cases fuel with
  | zero => exact absurd ha nofun
  | succ fuel =>
      have hp := PutTogether.compositional (ε := Element)
      have hparts : ∀ part : Action, (part.eval input fuel).Ensures _ _ := fun _ => ensures_true _
      suffices hensures : (action.eval input (fuel + 1)).Ensures (fun _ => True)
          fun _ a => a.verdict.PutTogether from (hensures start c trivial a c' ha).1
      cases h with
      | sequence actions => exact sequence_ensures (fun part _ => hparts part) hp
      | optional action => exact optional_ensures (hparts action) hp
      | repeating action atLeastOne => exact repeating_ensures (hparts action) hp fuel atLeastOne
      | nonGreedy action stop atLeastOne =>
          exact nonGreedy_ensures (hparts action) hp (fun _ _ _ _ _ _ => ⟨trivial, trivial⟩) fuel
            atLeastOne

theorem Rule.hasCauses_judges (input : List Char) :
    Judges input Unrefined fun _ v => v.HasCauses where
  toJudgesBound := hasCauses_hereditary.judges fun _ => Unrefined.isRefined_eq_false
  unknown _ _ := .leaf rfl nofun rfl

/-- As rules and contexts are arbitrary in the last two parts, what they say holds wherever an
evaluation puts verdicts together. -/
theorem Verdict.failures_have_causes (input : List Char) (fuel start : Nat) :
    (∀ (rule : Rule) (c : Context) v c', rule.Unrefined →
      c.Binds (fun _ bound => bound.Unrefined) →
      rule.matchAt fuel input start c = some (v, c') →
        v.aside = false ∧ ∀ node ∈ v.nodes, node.WellShaped) ∧
    (∀ (rule : Rule) (c : Context) v c', rule.Composite →
      rule.matchAt fuel input start c = some (v, c') → v.PutTogether) ∧
    ∀ (action : Action) (c : TokenizingContext) es v c', action.Composite →
      action.tokenizeAt fuel input start c = some (es, v, c') → v.PutTogether := by
  refine ⟨?_, fun _ _ _ _ hrule => hrule.putTogether, fun _ _ _ _ _ haction => haction.putTogether⟩
  intro rule c v c' hrule hc h
  obtain ⟨⟨hcounts, hnodes⟩, -⟩ :=
    Rule.matchAt_answers Rule.unrefined_keeps (Rule.hasCauses_judges input) hrule hc h
  exact ⟨hcounts, hnodes⟩

/-- Nothing to try and parts of different lengths, through a name; then a check that answers with a
failure without a message, and one that answers with a success that was set aside. -/
theorem Verdict.failures_have_causes_misleading :
    let input := ['a', 'b']
    let c := Context.bind {} "item" (.and [.literal "a", .literal "ab"])
    let plain : Rule := .sequence [.optional (.or true []), .lazy "item"]
    let refined : Rule := .sequence [.literal "a", .refined (.length 1) fun _ stop =>
      .syntaxError "" stop []]
    let action : Action := .repeating (.literal (.refined (.length 1) fun _ stop =>
      ⟨stop, .success, "", [.parseError "" stop], true⟩)) true
    plain.Unrefined ∧ c.Binds (fun _ bound => bound.Unrefined) ∧
      (∃ v c', plain.matchAt 9 input 0 c = some (v, c') ∧ v.isSuccessful = false ∧
        v.aside = false ∧ ∀ node ∈ v.nodes, node.WellShaped) ∧
      (∃ v c', refined.matchAt 9 input 0 c = some (v, c') ∧ v.isSuccessful = false ∧
        v.PutTogether) ∧
      ∃ es v c', action.tokenizeAt 9 input 0 {} = some (es, v, c') ∧ v.isSuccessful = true ∧
        v.PutTogether := by
  intro input c plain refined action
  have hplain : plain.Unrefined := by decide
  have hc : c.Binds fun _ bound => bound.Unrefined := Context.Binds.empty.bind (by decide)
  obtain ⟨⟨v, d⟩, h, hfail⟩ : ∃ x, plain.matchAt 9 input 0 c = some x ∧
      x.1.isSuccessful = false := Option.map_eq_some_iff.1 (by decide +kernel)
  obtain ⟨⟨v', d'⟩, h', hfail'⟩ : ∃ x, refined.matchAt 9 input 0 c = some x ∧
      x.1.isSuccessful = false := Option.map_eq_some_iff.1 (by decide +kernel)
  obtain ⟨⟨es, w, e⟩, htokens, hok⟩ : ∃ x, action.tokenizeAt 9 input 0 {} = some x ∧
      x.2.1.isSuccessful = true := Option.map_eq_some_iff.1 (by decide +kernel)
  obtain ⟨hcauses, hrules, hactions⟩ := failures_have_causes input 9 0
  exact ⟨hplain, hc, ⟨v, d, h, hfail, hcauses plain c v d hplain hc h⟩,
    ⟨v', d', h', hfail', hrules refined c v' d' (.sequence _) h'⟩,
    ⟨es, w, e, htokens, hok, hactions action {} es w e (.repeating _ true) htokens⟩⟩

end TextGrammar
