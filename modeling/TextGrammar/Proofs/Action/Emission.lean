import TextGrammar.Proofs.Action.Invariant
import TextGrammar.Proofs.Token.RoundTrip
import TextGrammar.Proofs.Verdict.Tree

/-!
# What actions emit

A failed attempt emits nothing.  What a successful one emits is put together from the texts of
rules, in the order in which they were matched, so a property that goes over to elements emitted one
after another, to a token around them and to nothing instead of them holds of all that is emitted.
-/

namespace TextGrammar

namespace Action

structure Composes (input : List Char) (A : Action → Prop) (V : Nat → Verdict → Prop)
    (E : Nat → List Element → Nat → Prop) : Prop where
  nothing : ∀ pos, E pos [] pos
  append : ∀ {start middle stop : Nat} {es es' : List Element}, E start es middle →
    E middle es' stop → E start (es ++ es') stop
  text : ∀ {pos : Nat} {v : Verdict}, V pos v → v.isSuccessful = true →
    E pos (emit (textBetween input pos v.stop)) v.stop
  node : ∀ {name : TokenName} {start stop : Nat} {es : List Element}, E start es stop →
    E start [.node name es] stop
  discard : ∀ {action : Action} {start stop : Nat} {es : List Element}, A (.consume action) →
    E start es stop → E start [] stop

structure Emitted (E : Nat → List Element → Nat → Prop) (pos : Nat) (a : Attempt Element) :
    Prop where
  success : a.isSuccessful = true → E pos a.emitted a.stop
  failure : a.isSuccessful = false → a.emitted = []

namespace Emitted

variable {E : Nat → List Element → Nat → Prop}

theorem failed {pos : Nat} {v : Verdict} (h : v.isSuccessful = false) :
    Emitted E pos (.failed v) where
  success hok := absurd (h.symm.trans hok) nofun
  failure _ := rfl

theorem change {pos : Nat} {v : Verdict} {es : List Element}
    (h : v.isSuccessful = true → E pos es v.stop) :
    Emitted E pos ⟨if v.isSuccessful then es else [], v⟩ := by
  cases hok : v.isSuccessful with
  | false => exact ⟨fun hv => absurd (hok.symm.trans hv) nofun, fun _ => rfl⟩
  | true => exact ⟨fun _ => h hok, fun hv => absurd (hok.symm.trans hv) nofun⟩

end Emitted

section Composition

variable {input : List Char} {A : Action → Prop} {V : Nat → Verdict → Prop}
  {E : Nat → List Element → Nat → Prop} (h : Composes input A V E)

include h

private theorem elements_of_path {pos stop : Nat} {as : List (Attempt Element)}
    (hpath : Path (Emitted E) pos as stop) : E pos (as.flatMap Attempt.emitted) stop := by
  induction hpath with
  | nil pos => exact h.nothing pos
  | cons ha hok _ ih => exact h.append (ha.success hok) ih

private theorem emitted_of_path {pos : Nat} {run : Run Element}
    (hpath : Path (Emitted E) pos run.attempts run.stop) {further : List Verdict}
    (hfurther : ∀ v ∈ further, v.aside = true) : Emitted E pos (run.toAttempt further) := by
  have hok : (run.toAttempt further).isSuccessful = true :=
    Verdict.composed_isSuccessful (hpath.isFailure_verdicts hfurther)
  refine ⟨fun _ => ?_, fun hfail => absurd (hok.symm.trans hfail) nofun⟩
  have helements := elements_of_path h hpath
  simpa [Run.toAttempt, Run.emitted, Attempt.stop] using helements

theorem composes_emits : Emits input A V (Emitted E) where
  compositional :=
    { passed := fun hpath => emitted_of_path h hpath fun _ hv => absurd hv List.not_mem_nil
      leftOff := fun hpath _ _ => emitted_of_path h hpath (List.forall_mem_singleton.2 rfl)
      broken := fun _ _ _ _ => .failed rfl
      stalled := fun _ => .failed rfl
      refused := fun _ _ _ => .failed rfl
      disallowed := fun _ _ => .failed rfl
      unknown := fun _ _ => .failed rfl }
  literal hv := .change (h.text hv)
  wrap ha := .change fun hok => h.node (ha.success hok)
  consume hconsume ha := .change fun hok => h.discard hconsume (ha.success hok)

end Composition

end Action

/-- Every token in it has a valid name, and no text in it is empty. -/
inductive Element.WellFormed : Element → Prop where
  | text {content : String} : content ≠ "" → WellFormed (.text content)
  | node {name : TokenName} {elements : List Element} : isValidName name.text.toList = true →
      (∀ e ∈ elements, WellFormed e) → WellFormed (.node name elements)

namespace Action

private theorem wellFormed_emit (text : List Char) : ∀ e ∈ emit text, e.WellFormed := by
  intro e he
  unfold emit at he
  split at he
  · exact absurd he List.not_mem_nil
  · rename_i hne
    obtain rfl := List.mem_singleton.1 he
    refine .text fun hempty => hne ?_
    simpa using congrArg String.toList hempty

private theorem wellFormed_composes (input : List Char) (A : Action → Prop) :
    Composes input A (fun _ _ => True) fun _ es _ => ∀ e ∈ es, e.WellFormed where
  nothing _ := fun _ he => absurd he List.not_mem_nil
  append h h' := List.forall_mem_append.2 ⟨h, h'⟩
  text _ _ := wellFormed_emit _
  node {name} {_} {_} {_} h := List.forall_mem_singleton.2 (.node name.valid h)
  discard _ _ := fun _ he => absurd he List.not_mem_nil

private theorem anything_keeps : Keeps (fun _ => True) (fun _ => True) (fun _ => True) where
  part _ _ := trivial
  rule _ _ := trivial
  bind _ _ _ := trivial
  record _ := trivial
  lookup _ _ _ := trivial
  matching _ := ⟨fun _ _ => trivial, fun _ _ _ => trivial, fun _ => trivial, fun _ _ _ => trivial⟩

private theorem tokenizeAt_emits {action : Action} {input : List Char} {fuel start : Nat}
    {c c' : TokenizingContext} {elements : List Element} {v : Verdict}
    (h : action.tokenizeAt fuel input start c = some (elements, v, c')) :
    Emitted (fun _ es _ => ∀ e ∈ es, e.WellFormed) start ⟨elements, v⟩ :=
  (tokenizeAt_answers anything_keeps (Rule.anything_judges input _)
    (composes_emits (wellFormed_composes input _)) trivial trivial h).1

private theorem wrap_tokenizeAt {action : Action} {input : List Char} {name : TokenName}
    {fuel : Nat} {start : Nat} {c c' : TokenizingContext} {elements : List Element} {v : Verdict}
    (h : (Action.wrap name action).tokenizeAt fuel input start c = some (elements, v, c')) :
    if v.isSuccessful then ∃ es, elements = [.node name es] else elements = [] := by
  obtain ⟨⟨a, _⟩, ha, hv⟩ := Option.map_eq_some_iff.1 h
  cases hv
  cases fuel with
  | zero => exact absurd ha nofun
  | succ fuel =>
      obtain ⟨⟨b, _⟩, -, hb⟩ := Option.bind_eq_some_iff.1 ha
      cases hb
      dsimp only
      rw [show b.verdict.isSuccessful = b.isSuccessful from rfl]
      split
      · exact ⟨b.emitted, rfl⟩
      · rfl

theorem emitted_reads_back (action : Action) (input : List Char) :
    (∀ fuel start c elements v c',
      action.tokenizeAt fuel input start c = some (elements, v, c') →
        (v.isSuccessful = false → elements = []) ∧
        (v.isSuccessful = true → ∀ e ∈ elements, e.WellFormed)) ∧
    ∀ fuel name token? v, action.tokenize fuel input name = some (token?, v) →
      (token?.isSome = true ↔ v.isSuccessful = true) ∧
      ∀ t, token? = some t →
        t.name = name ∧ Token.parse t.write = .ok t ∧ Token.parse t.writeLong = .ok t := by
  constructor
  · intro fuel start c elements v c' h
    obtain ⟨hsuccess, hfailure⟩ := tokenizeAt_emits h
    exact ⟨hfailure, hsuccess⟩
  · intro fuel name token? v h
    obtain ⟨⟨elements, _, c'⟩, htokenize, hresult⟩ := Option.map_eq_some_iff.1 h
    cases hresult
    have hwrap := wrap_tokenizeAt htokenize
    split at hwrap
    · rename_i hok
      obtain ⟨es, rfl⟩ := hwrap
      refine ⟨iff_of_true rfl hok, ?_⟩
      rintro t ⟨⟩
      exact ⟨rfl, (Token.tokenText_write _).parse, (Token.tokenText_writeLong _).parse⟩
    · rename_i hfail
      obtain rfl := hwrap
      exact ⟨iff_of_false nofun hfail, fun t ht => absurd ht nofun⟩

/-- A check that goes back to the start, in front of text that has to be escaped. -/
theorem emitted_reads_back_misleading :
    let name : TokenName := ⟨"a", by decide⟩
    let action : Action := .sequence [.literal (.refined (.length 1) fun _ _ => .success 0),
      wrapRule name (.length 2)]
    (∃ elements v c', action.tokenizeAt 5 [] 0 {} = some (elements, v, c') ∧
      v.isSuccessful = false ∧ elements = []) ∧
    (∃ elements v c', action.tokenizeAt 5 ['\\', '"'] 0 {} = some (elements, v, c') ∧
      v.isSuccessful = true ∧ ∀ e ∈ elements, e.WellFormed) ∧
    ∃ t v, action.tokenize 6 ['\\', '"'] name = some (some t, v) ∧ v.isSuccessful = true ∧
      t.name = name ∧ Token.parse t.write = .ok t ∧ Token.parse t.writeLong = .ok t := by
  intro name action
  obtain ⟨⟨es, v, c⟩, hfailed, hv⟩ : ∃ x, action.tokenizeAt 5 [] 0 {} = some x ∧
      x.2.1.isSuccessful = false := Option.map_eq_some_iff.1 (by decide +kernel)
  obtain ⟨⟨es', v', c'⟩, hmatched, hv'⟩ : ∃ x, action.tokenizeAt 5 ['\\', '"'] 0 {} = some x ∧
      x.2.1.isSuccessful = true := Option.map_eq_some_iff.1 (by decide +kernel)
  obtain ⟨⟨token?, w⟩, htoken, hw⟩ : ∃ x, action.tokenize 6 ['\\', '"'] name = some x ∧
      x.1.isSome = true := Option.map_eq_some_iff.1 (by decide +kernel)
  obtain ⟨t, rfl⟩ := Option.isSome_iff_exists.1 hw
  have hempty := emitted_reads_back action []
  have h := emitted_reads_back action ['\\', '"']
  have hread := h.2 6 name (some t) w htoken
  exact ⟨⟨es, v, c, hfailed, hv, (hempty.1 5 0 {} es v c hfailed).1 hv⟩,
    ⟨es', v', c', hmatched, hv', (h.1 5 0 {} es' v' c' hmatched).2 hv'⟩,
    t, w, htoken, hread.1.1 rfl, hread.2 t rfl⟩

end Action

end TextGrammar
