import TextGrammar.Proofs.Rule.Invariant
import TextGrammar.Proofs.Rule.Simulation

/-!
# What a match depends on

Of all that a context holds, a match depends on the rules bound to names that are looked up on the
way, and on nothing else: two contexts that bind the same rules to these names cannot be told apart
by matching, neither by the verdict nor by what the names stand for afterwards.  Texts are recorded
but never read.
-/

namespace TextGrammar

namespace Rule

def lookup? : Rule → Option String
  | .lazy name => some name
  | _ => none

def lookedUp (rule : Rule) : List String := rule.subrules.filterMap lookup?

def LooksUpIn (N : String → Prop) (rule : Rule) : Prop := ∀ name ∈ rule.lookedUp, N name

instance (N : String → Prop) [DecidablePred N] (rule : Rule) : Decidable (rule.LooksUpIn N) :=
  inferInstanceAs (Decidable (∀ name ∈ rule.lookedUp, N name))

theorem LooksUpIn.part {N : String → Prop} {rule part : Rule} (h : rule.LooksUpIn N)
    (hpart : part ∈ rule.parts) : part.LooksUpIn N :=
  fun name hname => h name (mem_filterMap_subrules_of_part hpart hname)

theorem looksUpIn_lazy {N : String → Prop} {name : String} (h : (Rule.lazy name).LooksUpIn N) :
    N name := h name (List.mem_filterMap.2 ⟨_, mem_subrules_self _, rfl⟩)

end Rule

namespace Context

def AgreeOn (N : String → Prop) (c d : Context) : Prop :=
  ∀ name, N name → c.rule? name = d.rule? name

/-- What is looked up by way of a name in `N` is in `N` as well. -/
def Supports (N : String → Prop) (c : Context) : Prop :=
  c.Binds fun name bound => N name → bound.LooksUpIn N

theorem AgreeOn.bind {N : String → Prop} {c d : Context} (h : c.AgreeOn N d) (name : String)
    (rule : Rule) : (c.bind name rule).AgreeOn N (d.bind name rule) := by
  intro other hother
  by_cases hne : other = name
  · subst hne
    rw [rule?_bind_self, rule?_bind_self]
  · rw [rule?_bind_of_ne c rule hne, rule?_bind_of_ne d rule hne]
    exact h other hother

end Context

theorem Follows.map_fst_eq {α σ τ : Type} {R : σ → τ → Prop} {x : Option (α × σ)}
    {y : Option (α × τ)} (h : Follows Eq R x y) (h' : Follows Eq (fun t s => R s t) y x) :
    x.map Prod.fst = y.map Prod.fst := by
  cases x with
  | none =>
      cases y with
      | none => rfl
      | some b =>
          obtain ⟨_, _, hx, -⟩ := h' b.1 b.2 rfl
          exact absurd hx nofun
  | some a =>
      obtain ⟨b, t, rfl, rfl, -⟩ := h a.1 a.2 rfl
      rfl

namespace Rule

theorem agreeOn_respects (N : String → Prop) :
    Respects (LooksUpIn N) fun c d => c.AgreeOn N d ∧ c.Supports N where
  part := LooksUpIn.part
  bind := by
    rintro rule bound name c d hrule hbinding ⟨hagree, hsupports⟩
    have hbound : bound.LooksUpIn N := hrule.part (binding?_eq_some hbinding).2
    exact ⟨hagree.bind name bound, Context.Binds.bind hsupports fun _ => hbound⟩
  record h := h
  lookup := by
    rintro name c d hlazy ⟨hagree, hsupports⟩
    have hname : N name := looksUpIn_lazy hlazy
    exact ⟨hagree name hname, fun rule hrule => hsupports name rule hrule hname⟩

theorem matchAt_simulated {Q : Rule → Prop} {R : Context → Context → Prop} (h : Respects Q R)
    {rule : Rule} (hrule : Q rule) {c d : Context} (hr : R c d) (fuel : Nat) (input : List Char)
    (start : Nat) :
    Follows Eq R (rule.matchAt fuel input start c) (rule.matchAt fuel input start d) := by
  unfold matchAt
  rw [Option.map_eq_bind, Option.map_eq_bind]
  refine (eval_simulated h input (Nat.le_refl fuel) rule hrule start c d hr).bind ?_
  intro a b c' d' hab hr'
  exact .answer hab hr'

theorem matchAt_verdict_eq {Q : Rule → Prop} {R : Context → Context → Prop} (h : Respects Q R)
    {rule : Rule} (hrule : Q rule) {c d : Context} (hr : R c d) (fuel : Nat) (input : List Char)
    (start : Nat) :
    (rule.matchAt fuel input start c).map Prod.fst =
      (rule.matchAt fuel input start d).map Prod.fst :=
  (matchAt_simulated h hrule hr fuel input start).map_fst_eq
    (matchAt_simulated h.symm hrule hr fuel input start)

theorem matchAt_depends_on_lookups (input : List Char) (start : Nat) :
    (∀ (N : String → Prop) (rule : Rule) (c d : Context), rule.LooksUpIn N → c.Supports N →
      c.AgreeOn N d →
        (∀ fuel, (rule.matchAt fuel input start c).map Prod.fst =
          (rule.matchAt fuel input start d).map Prod.fst) ∧
        ∀ fuel fuel' v w c' d', rule.matchAt fuel input start c = some (v, c') →
          rule.matchAt fuel' input start d = some (w, d') → v = w ∧ c'.AgreeOn N d') ∧
    (∀ (rule : Rule) (c d : Context), (∀ name, c.rule? name = d.rule? name) →
      ∀ fuel, (rule.matchAt fuel input start c).map Prod.fst =
        (rule.matchAt fuel input start d).map Prod.fst) ∧
    ∀ (rule : Rule) (c d : Context), rule.lookedUp = [] →
      ∀ fuel, (rule.matchAt fuel input start c).map Prod.fst =
        (rule.matchAt fuel input start d).map Prod.fst := by
  refine ⟨?_, ?_, ?_⟩
  · intro N rule c d hrule hsupports hagree
    have hrespects := agreeOn_respects N
    refine ⟨fun fuel => matchAt_verdict_eq hrespects hrule ⟨hagree, hsupports⟩ fuel input start, ?_⟩
    intro fuel fuel' v w c' d' hc hd
    obtain ⟨_, d'', hd'', rfl, hagree', -⟩ :=
      matchAt_simulated hrespects hrule ⟨hagree, hsupports⟩ fuel input start v c' hc
    obtain ⟨rfl, rfl⟩ :=
      Prod.mk.inj ((matchAt_steady rule input start d).unique ⟨fuel, hd''⟩ ⟨fuel', hd⟩)
    exact ⟨rfl, hagree'⟩
  · intro rule c d hagree fuel
    have hsupports : c.Supports fun _ => True := fun _ _ _ _ _ _ => trivial
    exact matchAt_verdict_eq (agreeOn_respects fun _ => True) (fun _ _ => trivial)
      ⟨fun name _ => hagree name, hsupports⟩ fuel input start
  · intro rule c d hnone fuel
    have hrule : rule.LooksUpIn fun _ => False := by
      intro name hname
      rw [hnone] at hname
      exact absurd hname List.not_mem_nil
    have hsupports : c.Supports fun _ => False := fun _ _ _ hname => hname.elim
    exact matchAt_verdict_eq (agreeOn_respects fun _ => False) hrule
      ⟨fun _ hname => hname.elim, hsupports⟩ fuel input start

/-- In the first round the name `a` is bound before `b` leads back to it. -/
theorem matchAt_depends_on_lookups_rounds :
    let N : String → Prop := fun name => name = "a" ∨ name = "b"
    let body : Rule := .sequence [.literal ";", .lazy "a"]
    let rule : Rule := .repeating (.sequence [.set "a" (.length 1), .lazy "b"]) false
    let c : Context := (({} : Context).bind "z" (.literal "é")).bind "b" body
    let d : Context := (({} : Context).record "a" "k").bind "b" body
    let input := ['é', ';', 'k']
    (rule.LooksUpIn N ∧ c.Supports N ∧ c.AgreeOn N d ∧
      ∃ v c' d', rule.matchAt 8 input 0 c = some (v, c') ∧
        rule.matchAt 8 input 0 d = some (v, d') ∧ c'.AgreeOn N d') ∧
    ((∀ name, c.rule? name = (c.record "b" "k").rule? name) ∧
      (rule.matchAt 8 input 0 c).map Prod.fst =
        (rule.matchAt 8 input 0 (c.record "b" "k")).map Prod.fst) ∧
    (Rule.set "a" (.length 1)).lookedUp = [] ∧
      ((Rule.set "a" (.length 1)).matchAt 8 input 0 c).map Prod.fst =
        ((Rule.set "a" (.length 1)).matchAt 8 input 0 {}).map Prod.fst := by
  intro N body rule c d input
  have hrule : rule.LooksUpIn N := by
    show rule.LooksUpIn fun name => name = "a" ∨ name = "b"
    decide
  have hbody : body.LooksUpIn N := by
    show body.LooksUpIn fun name => name = "a" ∨ name = "b"
    decide
  have hsupports : c.Supports N := by
    refine Context.Binds.bind (Context.Binds.bind .empty ?_) fun _ => hbody
    exact fun _ _ hname => absurd hname List.not_mem_nil
  have hagree : c.AgreeOn N d := by
    refine Context.AgreeOn.bind ?_ "b" body
    intro name hname
    have hne : name ≠ "z" := by
      rintro rfl
      exact absurd hname (by decide)
    rw [Context.rule?_bind_of_ne _ _ hne, Context.rule?_record]
  have h := matchAt_depends_on_lookups input 0
  obtain ⟨-, hafter⟩ := h.1 N rule c d hrule hsupports hagree
  obtain ⟨⟨v, c'⟩, hv⟩ : ∃ x, rule.matchAt 8 input 0 c = some x :=
    Option.isSome_iff_exists.1 (by decide +kernel)
  obtain ⟨⟨w, d'⟩, hw⟩ : ∃ x, rule.matchAt 8 input 0 d = some x :=
    Option.isSome_iff_exists.1 (by decide +kernel)
  obtain ⟨rfl, hafter⟩ := hafter 8 8 v w c' d' hv hw
  have hrecord : ∀ name, c.rule? name = (c.record "b" "k").rule? name :=
    fun name => (c.rule?_record "b" "k" name).symm
  have hnone : (Rule.set "a" (.length 1)).lookedUp = [] := by decide
  exact ⟨⟨hrule, hsupports, hagree, v, c', d', hv, hw, hafter⟩,
    ⟨hrecord, h.2.1 rule c _ hrecord 8⟩, hnone, h.2.2 _ c {} hnone 8⟩

end Rule

end TextGrammar
