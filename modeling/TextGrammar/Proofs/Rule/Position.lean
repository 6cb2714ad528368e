import TextGrammar.Proofs.Rule.Invariant
import TextGrammar.Proofs.Text.Position
import TextGrammar.Proofs.Verdict.Tree

/-!
# Where verdicts stop

Rules without a check of their own never look in front of the offset at which they are tried, and
stop at positions of the text only.  A check has the last word on where it stops, so it is left out.
-/

namespace TextGrammar

open Text

/-- The verdict and all verdicts inside it stop at positions of the text from `start` on. -/
def Verdict.Within (input : List Char) (start : Nat) (v : Verdict) : Prop :=
  ∀ node ∈ v.nodes, Advances input start node.stop

namespace Verdict.Within

variable {input : List Char} {start stop : Nat} {v : Verdict}

theorem advances (h : v.Within input start) : Advances input start v.stop := h v v.mem_nodes_self

private theorem ofParts (hstop : Advances input start v.stop)
    (hparts : ∀ part ∈ v.parts, part.Within input start) : v.Within input start := by
  intro node hnode
  rcases mem_nodes_iff.1 hnode with rfl | ⟨part, hpart, hinner⟩
  · exact hstop
  · exact hparts part hpart node hinner

private theorem part (h : v.Within input start) {part : Verdict} (hpart : part ∈ v.parts) :
    part.Within input start :=
  fun node hnode => h node (mem_nodes_iff.2 (.inr ⟨part, hpart, hnode⟩))

private theorem earlier (h : v.Within input stop) (hstart : Advances input start stop) :
    v.Within input start := fun node hnode => hstart.trans (h node hnode)

private theorem setAside (h : v.Within input start) : v.setAside.Within input start :=
  .ofParts h.advances fun _ hpart => h.part hpart

private theorem leaf {v : Verdict} (hstop : Advances input start v.stop) (hparts : v.parts = []) :
    v.Within input start := .ofParts hstop (by simp [hparts])

private theorem composed {error : String} {parts : List Verdict} (hstop : Advances input start stop)
    (hparts : ∀ part ∈ parts, part.Within input start) :
    (Verdict.composed error stop parts).Within input start :=
  .ofParts (by simpa using hstop) (by simpa using hparts)

private theorem syntaxError {message : String} {parts : List Verdict}
    (hstop : Advances input start stop) (hparts : ∀ part ∈ parts, part.Within input start) :
    (Verdict.syntaxError message stop parts).Within input start := .ofParts hstop hparts

end Verdict.Within

namespace Matcher

variable {ε : Type} {input : List Char}

private theorem within_of_path {pos stop : Nat} {as : List (Attempt ε)}
    (h : Path (fun pos a => a.verdict.Within input pos) pos as stop) :
    Advances input pos stop ∧ ∀ v ∈ as.map Attempt.verdict, v.Within input pos := by
  induction h with
  | nil pos => exact ⟨.stay, fun v hv => absurd hv List.not_mem_nil⟩
  | cons ha _ _ ih =>
      obtain ⟨hstop, hrest⟩ := ih
      exact ⟨ha.advances.trans hstop,
        List.forall_mem_cons.2 ⟨ha, fun v hv => (hrest v hv).earlier ha.advances⟩⟩

theorem within_compositional (input : List Char) :
    Compositional fun pos (a : Attempt ε) => a.verdict.Within input pos where
  passed hpath := by
    obtain ⟨hstop, hparts⟩ := within_of_path hpath
    exact .composed hstop (by simpa [Run.verdicts] using hparts)
  leftOff hpath ha _ := by
    obtain ⟨hstop, hparts⟩ := within_of_path hpath
    exact .composed hstop
      (List.forall_mem_append.2 ⟨hparts, List.forall_mem_singleton.2 (ha.earlier hstop).setAside⟩)
  broken _ hpath ha _ := by
    obtain ⟨hstop, hparts⟩ := within_of_path hpath
    exact .syntaxError (hstop.trans ha.advances)
      (List.forall_mem_append.2 ⟨hparts, List.forall_mem_singleton.2 (ha.earlier hstop)⟩)
  stalled hpath := by
    obtain ⟨hstop, hparts⟩ := within_of_path hpath
    exact .syntaxError hstop hparts
  refused _ _ h := .syntaxError .stay (List.forall_mem_map.2 fun a ha => (h a ha).1)
  disallowed _ _ := .leaf .stay rfl
  unknown _ _ := .leaf .stay rfl

end Matcher

namespace Rule

variable {input : List Char}

private theorem literalVerdict_within (text : String) (pos : Nat) :
    (literalVerdict text input pos).Within input pos := by
  unfold literalVerdict
  split
  · rename_i rest hrest
    split
    · rename_i hprefix
      obtain ⟨behind, hbehind⟩ := List.isPrefixOf_iff_prefix.1 hprefix
      exact .leaf (advances_of_dropBytes? hrest hbehind.symm) rfl
    · exact .leaf .stay rfl
  · exact .leaf .stay rfl

private theorem lengthVerdict_within (n pos : Nat) :
    (lengthVerdict n input pos).Within input pos := by
  unfold lengthVerdict
  split
  · rename_i rest hrest
    split
    · exact .leaf (advances_of_dropBytes? hrest (List.take_append_drop n rest).symm) rfl
    · exact .leaf .stay rfl
  · exact .leaf .stay rfl

private theorem regexVerdict_within (r : Regex) (pos : Nat) :
    (regexVerdict r input pos).Within input pos := by
  unfold regexVerdict
  split
  · rename_i found hfound
    obtain ⟨rest, hrest, hend⟩ := Option.bind_eq_some_iff.1 hfound
    obtain ⟨behind, hbehind⟩ := r.within hend
    exact .leaf (advances_of_dropBytes? hrest hbehind.symm) rfl
  · exact .leaf .stay rfl

private theorem agreement_within {pos : Nat} {vs : List Verdict}
    (h : ∀ v ∈ vs, v.Within input pos) : (Matcher.agreement pos vs).Within input pos := by
  unfold Matcher.agreement
  dsimp only
  split
  · exact .syntaxError .stay h
  split
  · exact .syntaxError .stay h
  · refine .composed ?_ h
    cases vs with
    | nil => exact .stay
    | cons v vs => exact (h v List.mem_cons_self).advances

private theorem negation_within {pos : Nat} {v : Verdict} :
    (negation input pos v).Within input pos := by
  unfold negation
  split <;> exact .leaf .stay rfl

private theorem completion_within {pos : Nat} {v : Verdict} (h : v.Within input pos) :
    (completion input v).Within input pos := by
  unfold completion
  split
  · exact .syntaxError h.advances (List.forall_mem_singleton.2 h)
  split
  · exact .leaf h.advances rfl
  · exact h

theorem within_judges {Q : Rule → Prop} (h : ∀ rule, Q rule → rule.isRefined = false) :
    Judges input Q fun pos v => v.Within input pos where
  compositional := (Matcher.within_compositional input).toCompositionalBound
  literal := literalVerdict_within
  length := lengthVerdict_within
  regex := regexVerdict_within
  refinement hrefined := absurd (h _ hrefined) nofun
  agreement := agreement_within
  negation _ := negation_within
  completion := completion_within
  unknown _ _ := .leaf .stay rfl

theorem unrefined_judges : Judges input Unrefined fun pos v => v.Within input pos :=
  within_judges fun _ h => h.isRefined_eq_false

end Rule

end TextGrammar
