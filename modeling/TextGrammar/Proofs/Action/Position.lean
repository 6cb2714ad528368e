import TextGrammar.Proofs.Action.Invariant
import TextGrammar.Proofs.Rule.Position

/-!
# Matching and tokenizing stay within the text

What an action answers stops at positions of the text from the start on, as what a rule answers
does, with all verdicts inside it.
-/

namespace TextGrammar

open Text

namespace Action

private theorem within_emits (input : List Char) (A : Action → Prop) :
    Emits input A (fun pos v => v.Within input pos) fun pos a => a.verdict.Within input pos where
  compositional := Matcher.within_compositional input
  literal h := h
  wrap h := h
  consume _ h := h

end Action

theorem Verdict.Within.inside {input : List Char} {start : Nat} {v : Verdict}
    (h : v.Within input start) (hstart : IsPosition input start) :
    ∀ node ∈ v.nodes,
      start ≤ node.stop ∧ node.stop ≤ byteLength input ∧ IsPosition input node.stop := by
  intro node hnode
  have hstop : IsPosition input node.stop := (h node hnode).isPosition hstart
  exact ⟨(h node hnode).le, hstop.le_byteLength, hstop⟩

theorem verdicts_stop_inside (input : List Char) (start : Nat) (hstart : IsPosition input start) :
    (∀ (rule : Rule) (c : Context), rule.Unrefined → c.Binds (fun _ bound => bound.Unrefined) →
      ∀ fuel v c', rule.matchAt fuel input start c = some (v, c') →
        ∀ node ∈ v.nodes,
          start ≤ node.stop ∧ node.stop ≤ byteLength input ∧ IsPosition input node.stop) ∧
    ∀ (action : Action) (c : TokenizingContext), action.Unrefined →
      c.Binds (fun _ bound => bound.Unrefined) (fun _ bound => bound.Unrefined) →
      ∀ fuel elements v c', action.tokenizeAt fuel input start c = some (elements, v, c') →
        ∀ node ∈ v.nodes,
          start ≤ node.stop ∧ node.stop ≤ byteLength input ∧ IsPosition input node.stop := by
  constructor
  · intro rule c hrule hc fuel v c' h
    obtain ⟨hwithin, -⟩ :=
      Rule.matchAt_answers Rule.unrefined_keeps Rule.unrefined_judges hrule hc h
    exact hwithin.inside hstart
  · intro action c haction hc fuel elements v c' h
    obtain ⟨hwithin, -⟩ := Action.tokenizeAt_answers Action.unrefined_keeps Rule.unrefined_judges
      (Action.within_emits input _) haction hc h
    exact hwithin.inside hstart

/-- The second round gets behind the second letter and fails there. -/
theorem verdicts_stop_inside_multibyte :
    let input := ['é', 'a', 'é']
    let rule : Rule := .repeating (.sequence [.length 1, .lazy "a"]) true
    let c : Context := ({} : Context).bind "a" (.literal "a")
    let action : Action := .repeating (.sequence [.literal (.length 1), .lazy "a"]) true
    let ac : TokenizingContext := ({} : TokenizingContext).bind "a" (.literal (.literal "a"))
    IsPosition input 0 ∧ rule.Unrefined ∧ c.Binds (fun _ bound => bound.Unrefined) ∧
      action.Unrefined ∧
      ac.Binds (fun _ bound => bound.Unrefined) (fun _ bound => bound.Unrefined) ∧
      (∃ v c', rule.matchAt 8 input 0 c = some (v, c') ∧ ∀ node ∈ v.nodes,
        0 ≤ node.stop ∧ node.stop ≤ byteLength input ∧ IsPosition input node.stop) ∧
      ∃ elements v ac', action.tokenizeAt 8 input 0 ac = some (elements, v, ac') ∧ ∀ node ∈ v.nodes,
        0 ≤ node.stop ∧ node.stop ≤ byteLength input ∧ IsPosition input node.stop := by
  intro input rule c action ac
  have hstart : IsPosition input 0 := by decide
  have hrule : rule.Unrefined := by decide
  have hc : c.Binds fun _ bound => bound.Unrefined := Context.Binds.empty.bind (by decide)
  have haction : action.Unrefined := by decide
  have hac : ac.Binds (fun _ bound => bound.Unrefined) fun _ bound => bound.Unrefined :=
    TokenizingContext.Binds.empty.bind (by decide)
  have h := verdicts_stop_inside input 0 hstart
  obtain ⟨⟨v, c'⟩, hv⟩ : ∃ x, rule.matchAt 8 input 0 c = some x :=
    Option.isSome_iff_exists.1 (by decide +kernel)
  obtain ⟨⟨elements, w, ac'⟩, hw⟩ : ∃ x, action.tokenizeAt 8 input 0 ac = some x :=
    Option.isSome_iff_exists.1 (by decide +kernel)
  exact ⟨hstart, hrule, hc, haction, hac, ⟨v, c', hv, h.1 rule c hrule hc 8 v c' hv⟩,
    elements, w, ac', hw, h.2 action ac haction hac 8 elements w ac' hw⟩

end TextGrammar
