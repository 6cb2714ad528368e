import TextGrammar.Proofs.Rule.Invariant

/-!
# Properties that verdicts inherit from their parts

What a verdict on a rule can look like does not depend on the offset: it is a leaf, it is composed
of successes and of failures that were set aside, or it is a syntax error.  A syntax error has a
part that failed, or else it is one of three kinds that find fault with parts that succeeded or with
there being none.  A property that goes over to the whole in each of these cases holds of all
verdicts, checks apart.
-/

namespace TextGrammar

namespace Verdict

def Accepted (V : Verdict → Prop) (part : Verdict) : Prop :=
  (V part ∧ part.isSuccessful = true) ∨
    ∃ v, V v ∧ v.isSuccessful = false ∧ part = v.setAside

theorem Accepted.isFailure {V : Verdict → Prop} {part : Verdict} (h : Accepted V part) :
    part.isFailure = false := by
  rcases h with ⟨-, hok⟩ | ⟨v, -, -, rfl⟩
  · simp [Verdict.isFailure, hok]
  · simp [Verdict.isFailure, Verdict.setAside]

/-- Verdicts are as `V` says when their parts are. -/
structure Hereditary (V : Verdict → Prop) : Prop where
  success : ∀ stop, V (.success stop)
  parseError : ∀ message stop, V (.parseError message stop)
  composed : ∀ {stop : Nat} {parts : List Verdict}, (∀ part ∈ parts, Accepted V part) →
    V (.composed "" stop parts)
  broken : ∀ {stop : Nat} {parts : List Verdict} (message : String), (∀ part ∈ parts, V part) →
    (∃ part ∈ parts, part.isSuccessful = false) → V (.syntaxError message stop parts)
  stalled : ∀ {stop : Nat} {parts : List Verdict},
    (∀ part ∈ parts, V part ∧ part.isSuccessful = true) →
      V (.syntaxError "Repetition made no progress before the stop rule matched" stop parts)
  unequal : ∀ {stop : Nat} {parts : List Verdict},
    (∀ part ∈ parts, V part ∧ part.isSuccessful = true) →
      (∃ part ∈ parts, ∃ other ∈ parts, part.stop ≠ other.stop) →
        V (.syntaxError "Rules matched different lengths" stop parts)
  noAlternative : ∀ stop, V (.syntaxError "No alternative matched" stop [])

end Verdict

variable {V : Verdict → Prop}

private theorem verdicts_of_path {ε : Type} {pos stop : Nat} {as : List (Attempt ε)}
    (h : Path (fun _ a => V a.verdict) pos as stop) :
    ∀ v ∈ as.map Attempt.verdict, V v ∧ v.isSuccessful = true := by
  induction h with
  | nil pos => exact fun v hv => absurd hv List.not_mem_nil
  | cons ha hok _ ih => exact List.forall_mem_cons.2 ⟨⟨ha, hok⟩, ih⟩

namespace Verdict.Hereditary

variable (h : Hereditary V)

include h

theorem compositional {ε : Type} :
    Matcher.CompositionalBound (fun _ (a : Attempt ε) => V a.verdict) fun _ a => V a.verdict where
  passed hpath := by
    refine h.composed fun part hpart => .inl (verdicts_of_path hpath part ?_)
    simpa [Run.verdicts] using hpart
  leftOff {_} {_} {a} hpath ha hfail := by
    refine h.composed (List.forall_mem_append.2 ⟨?_, ?_⟩)
    · exact fun part hpart => .inl (verdicts_of_path hpath part hpart)
    · exact List.forall_mem_singleton.2 (.inr ⟨a.verdict, ha, hfail, rfl⟩)
  broken {_} {_} {_} {a} {message} _ hpath ha hfail := by
    refine h.broken message (List.forall_mem_append.2 ⟨?_, List.forall_mem_singleton.2 ha⟩)
      ⟨a.verdict, by simp, hfail⟩
    exact fun part hpart => (verdicts_of_path hpath part hpart).1
  stalled hpath := h.stalled (verdicts_of_path hpath)
  refused {pos} {as} {message} _ hnone hall := by
    cases as with
    | nil =>
        obtain rfl := hnone rfl
        exact h.noAlternative pos
    | cons a as =>
        refine h.broken message (List.forall_mem_map.2 fun b hb => (hall b hb).1)
          ⟨a.verdict, by simp, (hall a List.mem_cons_self).2⟩
  disallowed pos message := h.parseError message pos

theorem agreement {pos : Nat} {vs : List Verdict} (hvs : ∀ v ∈ vs, V v) :
    V (Matcher.agreement pos vs) := by
  unfold Matcher.agreement
  dsimp only
  split
  · rename_i hfail
    obtain ⟨v, hv, hfailed⟩ := List.any_eq_true.1 hfail
    exact h.broken _ hvs ⟨v, hv, by simpa using hfailed⟩
  rename_i hfail
  have hall : ∀ v ∈ vs, V v ∧ v.isSuccessful = true := by
    simp only [List.any_eq_true, Bool.not_eq_true', not_exists, not_and, Bool.not_eq_false] at hfail
    exact fun v hv => ⟨hvs v hv, hfail v hv⟩
  split
  · rename_i hdiffer
    obtain ⟨v, hv, hstop⟩ := List.any_eq_true.1 hdiffer
    refine h.unequal hall ⟨v, hv, ?_⟩
    cases vs with
    | nil => exact absurd hv List.not_mem_nil
    | cons first vs => exact ⟨first, List.mem_cons_self, of_decide_eq_true hstop⟩
  · exact h.composed fun v hv => .inl (hall v hv)

theorem judges {input : List Char} {Q : Rule → Prop}
    (hplain : ∀ rule, Q rule → rule.isRefined = false) :
    Rule.JudgesBound input Q fun _ v => V v where
  compositional := h.compositional
  literal text pos := by
    unfold Rule.literalVerdict
    split
    · split
      · exact h.success _
      · exact h.parseError _ _
    · exact h.parseError _ _
  length n pos := by
    unfold Rule.lengthVerdict
    split
    · split
      · exact h.success _
      · exact h.parseError _ _
    · exact h.parseError _ _
  regex r pos := by
    unfold Rule.regexVerdict
    split
    · exact h.success _
    · exact h.parseError _ _
  refinement hrefined := absurd (hplain _ hrefined) nofun
  agreement := h.agreement
  negation _ := by
    unfold Rule.negation
    split
    · exact h.parseError _ _
    · exact h.success _
  completion {_} {v} hv := by
    unfold Rule.completion
    split
    · rename_i hfail
      exact h.broken _ (List.forall_mem_singleton.2 hv)
        ⟨v, List.mem_singleton_self v, by simpa using hfail⟩
    split
    · exact h.parseError _ _
    · exact hv

end Verdict.Hereditary

end TextGrammar
