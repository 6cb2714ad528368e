import TextGrammar.Proofs.Action.Emission
import TextGrammar.Proofs.Action.Position

/-!
# Tokens cover the text

The texts that an action emits are pieces of the input that lie one behind the other between the
start and the end of the match.  When nothing is discarded on the way, they are all of it.  The
actions and rules that a run can meet are those inside the action and those that can be looked up
from there in the context.
-/

namespace TextGrammar

open Text

namespace Element

mutual

/-- The texts in an element, depth first. -/
def leaves : Element → List String
  | .text content => [content]
  | .node _ elements => leavesAll elements

def leavesAll : List Element → List String
  | [] => []
  | e :: es => leaves e ++ leavesAll es

end

private theorem leavesAll_append (es es' : List Element) :
    leavesAll (es ++ es') = leavesAll es ++ leavesAll es' := by
  induction es with
  | nil => rfl
  | cons e es ih => simp [leavesAll, ih]

private theorem leavesAll_singleton (e : Element) : leavesAll [e] = e.leaves := by simp [leavesAll]

end Element

/-- The texts are pieces of the input, none of them empty, one behind the other. -/
inductive Pieces (input : List Char) : Nat → List String → Nat → Prop where
  | nil {start stop : Nat} : start ≤ stop → Pieces input start [] stop
  | cons {start first last stop : Nat} {text : List Char} {texts : List String} : start ≤ first →
      first < last → slice? input first last = some text → Pieces input last texts stop →
      Pieces input start (String.ofList text :: texts) stop

namespace Pieces

variable {input : List Char} {start middle stop : Nat} {texts texts' : List String}

private theorem earlier (h : Pieces input middle texts stop) (hle : start ≤ middle) :
    Pieces input start texts stop := by
  cases h with
  | nil hstop => exact .nil (Nat.le_trans hle hstop)
  | cons hfirst hlast htext hrest => exact .cons (Nat.le_trans hle hfirst) hlast htext hrest

private theorem append (h : Pieces input start texts middle)
    (h' : Pieces input middle texts' stop) : Pieces input start (texts ++ texts') stop := by
  induction h with
  | nil hle => exact h'.earlier hle
  | cons hfirst hlast htext _ ih => exact .cons hfirst hlast htext (ih h')

end Pieces

private theorem textBetween_self (input : List Char) (pos : Nat) :
    textBetween input pos pos = [] := by
  unfold textBetween
  cases h : slice? input pos pos with
  | none => rfl
  | some text =>
      obtain ⟨front, back, -, rfl, hlength⟩ := slice?_eq_some_iff.1 h
      cases text with
      | nil => rfl
      | cons c cs =>
          have hpos := c.utf8Size_pos
          rw [byteLength] at hlength
          omega

private theorem slice?_eq_textBetween {input : List Char} {start stop : Nat}
    (hstart : IsPosition input start) (h : Advances input start stop) :
    slice? input start stop = some (textBetween input start stop) := by
  obtain ⟨text, htext⟩ := exists_slice? hstart (h.isPosition hstart) h.le
  rw [textBetween, htext, Option.getD_some]

private theorem textBetween_ne_nil {input : List Char} {start stop : Nat} (hlt : start < stop)
    (hstart : IsPosition input start) (hstop : IsPosition input stop) :
    textBetween input start stop ≠ [] := by
  intro hempty
  have hslice := slice?_eq_textBetween hstart (.move hlt hstart hstop)
  rw [hempty] at hslice
  obtain ⟨front, back, -, rfl, hlength⟩ := slice?_eq_some_iff.1 hslice
  rw [byteLength] at hlength
  omega

private theorem textBetween_append {input : List Char} {start middle stop : Nat}
    (h : Advances input start middle) (h' : Advances input middle stop) :
    textBetween input start stop =
      textBetween input start middle ++ textBetween input middle stop := by
  cases h with
  | stay => rw [textBetween_self, List.nil_append]
  | move hlt hstart hmiddle =>
      have hfirst := slice?_eq_textBetween hstart (.move hlt hstart hmiddle)
      have hsecond := slice?_eq_textBetween hmiddle h'
      rw [textBetween, slice?_trans hfirst hsecond, Option.getD_some]

namespace Action

/-- The actions that can be met while an action is evaluated in a context. -/
inductive Reachable (c : TokenizingContext) (root : Action) : Action → Prop where
  | root : Reachable c root root
  | part {action part : Action} : Reachable c root action → part ∈ action.parts →
      Reachable c root part
  | bound {name : String} {action : Action} : Reachable c root (.lazy name) →
      c.action? name = .ok action → Reachable c root action

inductive ReachableRule (c : TokenizingContext) (root : Action) : Rule → Prop where
  | embedded {action : Action} {rule : Rule} : Reachable c root action → rule ∈ action.rules →
      ReachableRule c root rule
  | part {rule part : Rule} : ReachableRule c root rule → part ∈ rule.parts →
      ReachableRule c root part
  | bound {name : String} {rule : Rule} : ReachableRule c root (.lazy name) →
      c.matching.rule? name = .ok rule → ReachableRule c root rule

section Reachability

variable {c : TokenizingContext} {root : Action}

theorem Reachable.all {A : Action → Prop}
    (part : ∀ {action part : Action}, A action → part ∈ action.parts → A part) (hroot : A root)
    (hbound : ∀ name action, c.action? name = .ok action → A action) {action : Action}
    (h : Reachable c root action) : A action := by
  induction h with
  | root => exact hroot
  | part _ hpart ih => exact part ih hpart
  | bound _ hfound _ => exact hbound _ _ hfound

theorem ReachableRule.unrefined (hroot : root.Unrefined)
    (hc : c.Binds (fun _ action => action.Unrefined) fun _ rule => rule.Unrefined) {rule : Rule}
    (h : ReachableRule c root rule) : rule.Unrefined := by
  induction h with
  | embedded haction hrule => exact (haction.all Unrefined.part hroot hc.actions).rule hrule
  | part _ hpart ih => exact ih.part hpart
  | bound _ hfound _ => exact hc.matching _ _ hfound

private theorem reachable_keeps (c : TokenizingContext) (root : Action) :
    Keeps (Reachable c root) (ReachableRule c root)
      (TokenizingContext.Binds
        (fun name action => Reachable c root action ∨ c.action? name = .ok action)
        fun name rule => ReachableRule c root rule ∨ c.matching.rule? name = .ok rule) :=
  .ofBinds .part .embedded
    (fun haction hbinding => .inl (haction.part (mem_parts_of_binding? hbinding)))
    (fun hlazy haction => haction.elim id hlazy.bound)
    (.ofBinds .part
      (fun hrule hbinding => .inl (hrule.part (Rule.binding?_eq_some hbinding).2))
      (fun hlazy hrule => hrule.elim id hlazy.bound))

end Reachability

def isConsume : Action → Bool
  | .consume _ => true
  | _ => false

/-- The elements emitted between two offsets hold pieces of the input; `whole` says whether these
are all that lies between. -/
structure Covers (input : List Char) (whole : Prop) (start : Nat) (es : List Element)
    (stop : Nat) : Prop where
  advances : Advances input start stop
  pieces : Pieces input start (Element.leavesAll es) stop
  all : whole → (Element.leavesAll es).flatMap String.toList = textBetween input start stop

variable {input : List Char} {whole : Prop}

theorem Covers.nothing (pos : Nat) : Covers input whole pos [] pos where
  advances := .stay
  pieces := .nil (Nat.le_refl pos)
  all _ := (textBetween_self input pos).symm

theorem Covers.append {start middle stop : Nat} {es es' : List Element}
    (h : Covers input whole start es middle) (h' : Covers input whole middle es' stop) :
    Covers input whole start (es ++ es') stop where
  advances := h.advances.trans h'.advances
  pieces := by
    rw [Element.leavesAll_append]
    exact h.pieces.append h'.pieces
  all hwhole := by
    rw [Element.leavesAll_append, List.flatMap_append, h.all hwhole, h'.all hwhole,
      textBetween_append h.advances h'.advances]

private theorem covers_emit {pos stop : Nat} (h : Advances input pos stop) :
    Covers input whole pos (emit (textBetween input pos stop)) stop := by
  cases h with
  | stay =>
      rw [textBetween_self]
      exact .nothing pos
  | move hlt hpos hstop =>
      have hslice := slice?_eq_textBetween hpos (.move hlt hpos hstop)
      rw [emit, if_neg (textBetween_ne_nil hlt hpos hstop)]
      refine ⟨.move hlt hpos hstop, ?_, fun _ => ?_⟩
      · exact .cons (Nat.le_refl pos) hlt hslice (.nil (Nat.le_refl stop))
      · simp [Element.leavesAll, Element.leaves]

private theorem covers_composes {A : Action → Prop}
    (hwhole : whole → ∀ action, A action → action.isConsume = false) :
    Composes input A (fun pos v => v.Within input pos) (Covers input whole) where
  nothing := .nothing
  append := .append
  text hv _ := covers_emit hv.advances
  node h := ⟨h.advances, by rw [Element.leavesAll_singleton]; exact h.pieces,
    by rw [Element.leavesAll_singleton]; exact h.all⟩
  discard hconsume h :=
    ⟨h.advances, .nil h.advances.le, fun hall => absurd (hwhole hall _ hconsume) nofun⟩

theorem tokens_cover_text (action : Action) (c : TokenizingContext) (input : List Char)
    (start : Nat) (hstart : IsPosition input start)
    (hrules : ∀ rule, ReachableRule c action rule → rule.isRefined = false) :
    ∀ fuel elements v c', action.tokenizeAt fuel input start c = some (elements, v, c') →
      v.isSuccessful = true →
        Pieces input start (Element.leavesAll elements) v.stop ∧
        ((∀ other, Reachable c action other → other.isConsume = false) →
          slice? input start v.stop =
            some ((Element.leavesAll elements).flatMap String.toList)) := by
  intro fuel elements v c' h hok
  have hcovers : Composes input (Reachable c action) (fun pos v => v.Within input pos)
      (Covers input (∀ other, Reachable c action other → other.isConsume = false)) :=
    covers_composes id
  have hbinds : c.Binds (fun name bound => Reachable c action bound ∨ c.action? name = .ok bound)
      fun name bound => ReachableRule c action bound ∨ c.matching.rule? name = .ok bound :=
    ⟨fun _ _ => .inr, fun _ _ => .inr⟩
  obtain ⟨hemitted, -⟩ := tokenizeAt_answers (reachable_keeps c action)
    (Rule.within_judges hrules) (composes_emits hcovers) .root hbinds h
  have hbetween := hemitted.success hok
  refine ⟨hbetween.pieces, fun hwhole => ?_⟩
  rw [hbetween.all hwhole]
  exact slice?_eq_textBetween hstart hbetween.advances

/-- Only the longest alternative leaves its texts, and the failed try leaves none. -/
theorem tokens_cover_text_alternatives :
    let input := ['é', 'b', 'b']
    let action : Action := .sequence [wrapRule ⟨"first", by decide⟩ (.length 1),
      .or true [.literal (.literal "b"), .lazy "rest"], .optional (.literal (.literal "c"))]
    let c : TokenizingContext :=
      ({} : TokenizingContext).bind "rest" (.repeating (.literal (.literal "b")) true)
    IsPosition input 0 ∧ (∀ rule, ReachableRule c action rule → rule.isRefined = false) ∧
      (∀ other, Reachable c action other → other.isConsume = false) ∧
      ∃ elements v c', action.tokenizeAt 8 input 0 c = some (elements, v, c') ∧
        v.isSuccessful = true ∧ Pieces input 0 (Element.leavesAll elements) v.stop ∧
        slice? input 0 v.stop = some ((Element.leavesAll elements).flatMap String.toList) := by
  intro input action c
  have hstart : IsPosition input 0 := by decide
  have hc : c.Binds (fun _ bound => bound.Unrefined) fun _ rule => rule.Unrefined :=
    TokenizingContext.Binds.empty.bind (by decide)
  have hrules : ∀ rule, ReachableRule c action rule → rule.isRefined = false :=
    fun rule h => (h.unrefined (by decide) hc).isRefined_eq_false
  have hkept : c.Binds (fun _ bound => ∀ other ∈ bound.subactions, other.isConsume = false)
      fun _ _ => True := TokenizingContext.Binds.empty.bind (by decide)
  have hactions : ∀ other, Reachable c action other → other.isConsume = false := by
    intro other h
    refine Reachable.all (A := fun action => ∀ other ∈ action.subactions, other.isConsume = false)
      ?_ (by decide) hkept.actions h other other.mem_subactions_self
    intro action part haction hpart other hother
    exact haction other (mem_subactions_iff.2 (.inr ⟨part, hpart, hother⟩))
  obtain ⟨⟨elements, v, c'⟩, h, hok⟩ : ∃ x, action.tokenizeAt 8 input 0 c = some x ∧
      x.2.1.isSuccessful = true := Option.map_eq_some_iff.1 (by decide +kernel)
  obtain ⟨hpieces, hwhole⟩ :=
    tokens_cover_text action c input 0 hstart hrules 8 elements v c' h hok
  exact ⟨hstart, hrules, hactions, elements, v, c', h, hok, hpieces, hwhole hactions⟩

end Action

end TextGrammar
