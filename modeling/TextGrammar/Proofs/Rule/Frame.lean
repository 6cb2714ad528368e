import TextGrammar.Proofs.Rule.Invariant

/-!
# What a match leaves alone

A match writes only to names that some rule binds, and only what such a rule holds: the rules that
matter are those inside the rule that is matched and inside the rules bound in the context at the
start, since nothing else can be bound on the way.  Nothing is ever taken away.
-/

namespace TextGrammar

namespace Context

@[simp] theorem captured?_record_self (c : Context) (name text : String) :
    (c.record name text).captured? name = some text := by
  simp [captured?, record]

theorem captured?_record_of_ne (c : Context) {name other : String} (text : String)
    (h : other ≠ name) : (c.record name text).captured? other = c.captured? other :=
  Dictionary.find?_insert_of_ne _ _ h

theorem isBound_iff {c : Context} {name : String} :
    c.isBound name = true ↔ ∃ rule, c.rule? name = .ok rule := by
  simp only [rule?_eq_ok_iff, isBound, Option.isSome_iff_exists]

theorem isBound_bind {c : Context} {name other : String} (rule : Rule)
    (h : c.isBound other = true) : (c.bind name rule).isBound other = true := by
  rw [isBound_iff] at h ⊢
  by_cases hne : other = name
  · exact ⟨rule, hne ▸ rule?_bind_self c name rule⟩
  · rwa [rule?_bind_of_ne c rule hne]

/-- Nothing but names in `S` was written to, and names were bound only as `B` says. -/
structure Frame (S : String → Prop) (B : String → Rule → Prop) (c d : Context) : Prop where
  rules : ∀ name, ¬ S name → d.rule? name = c.rule? name
  texts : ∀ name, ¬ S name → d.captured? name = c.captured? name
  isBound : ∀ name, c.isBound name = true → d.isBound name = true
  captured : ∀ name, (c.captured? name).isSome = true → (d.captured? name).isSome = true
  binds : ∀ name bound, d.rule? name = .ok bound → c.rule? name = .ok bound ∨ B name bound

namespace Frame

variable {S : String → Prop} {B : String → Rule → Prop} {c d e : Context}

theorem refl (c : Context) : Frame S B c c where
  rules _ _ := rfl
  texts _ _ := rfl
  isBound _ := id
  captured _ := id
  binds _ _ := .inl

theorem trans (h : Frame S B c d) (h' : Frame S B d e) : Frame S B c e where
  rules name hname := (h'.rules name hname).trans (h.rules name hname)
  texts name hname := (h'.texts name hname).trans (h.texts name hname)
  isBound name := h'.isBound name ∘ h.isBound name
  captured name := h'.captured name ∘ h.captured name
  binds name bound hbound := (h'.binds name bound hbound).elim (h.binds name bound) .inr

theorem bind (c : Context) {name : String} {rule : Rule} (hname : S name) (hrule : B name rule) :
    Frame S B c (c.bind name rule) where
  rules other hother := rule?_bind_of_ne c rule fun heq => hother (heq ▸ hname)
  texts _ _ := rfl
  isBound _ := isBound_bind rule
  captured _ := id
  binds other bound hbound := by
    by_cases hne : other = name
    · subst hne
      rw [rule?_bind_self] at hbound
      exact .inr (Except.ok.inj hbound ▸ hrule)
    · rw [rule?_bind_of_ne c rule hne] at hbound
      exact .inl hbound

theorem record (c : Context) {name : String} (text : String) (hname : S name) :
    Frame S B c (c.record name text) where
  rules _ _ := rfl
  texts other hother := captured?_record_of_ne c text fun heq => hother (heq ▸ hname)
  isBound _ := id
  captured other hother := by
    by_cases hne : other = name
    · subst hne
      rw [captured?_record_self]
      rfl
    · rwa [captured?_record_of_ne c text hne]
  binds _ _ := .inl

end Frame

end Context

namespace Rule

def boundNames (rule : Rule) : List String :=
  rule.subrules.filterMap fun other => other.binding?.map Prod.fst

theorem mem_boundNames {rule holder bound : Rule} (h : holder ∈ rule.subrules) {name : String}
    (hbinding : holder.binding? = some (name, bound)) : name ∈ rule.boundNames :=
  List.mem_filterMap.2 ⟨holder, h, by simp [hbinding]⟩

def Occurs (root : Rule) (c : Context) (other : Rule) : Prop :=
  other ∈ root.subrules ∨ ∃ name bound, c.rule? name = .ok bound ∧ other ∈ bound.subrules

theorem Occurs.part {root other part : Rule} {c : Context} (h : Occurs root c other)
    (hpart : part ∈ other.parts) : Occurs root c part := by
  rcases h with hroot | ⟨name, bound, hbound, hother⟩
  · exact .inl (mem_subrules_of_mem_parts hroot hpart)
  · exact .inr ⟨name, bound, hbound, mem_subrules_of_mem_parts hother hpart⟩

theorem frame_governs {O : Rule → Prop} {S : String → Prop}
    (hpart : ∀ {rule part : Rule}, O rule → part ∈ rule.parts → O part)
    (hname : ∀ {rule bound : Rule} {name : String}, O rule →
      rule.binding? = some (name, bound) → S name) :
    Governs (fun c rule => O rule ∧ c.Binds fun _ bound => O bound)
      (Context.Frame S fun name bound => ∃ holder, O holder ∧ holder.binding? = some (name, bound))
      where
  refl := .refl
  trans := .trans
  later := by
    rintro rule c d ⟨hrule, hc⟩ hframe
    refine ⟨hrule, fun name bound hbound => ?_⟩
    rcases hframe.binds name bound hbound with hbefore | ⟨holder, hholder, hbinding⟩
    · exact hc name bound hbefore
    · exact hpart hholder (binding?_eq_some hbinding).2
  part := by
    rintro rule part c ⟨hrule, hc⟩ hmem
    refine ⟨hpart hrule hmem, ?_⟩
    rcases rule.entering_eq c with heq | ⟨name, bound, hbinding, heq⟩
    · rwa [heq]
    · rw [heq]
      exact hc.bind (hpart hrule (binding?_eq_some hbinding).2)
  bind h hbinding := .bind _ (hname h.1 hbinding) ⟨_, h.1, hbinding⟩
  record h hbinding := .record _ _ (hname h.1 hbinding)
  lookup h hbound := ⟨h.2 _ _ hbound, h.2⟩

theorem matchAt_frame (rule : Rule) (c : Context) (S : String → Prop)
    (hrule : ∀ name ∈ rule.boundNames, S name)
    (hc : c.Binds fun _ bound => ∀ name ∈ bound.boundNames, S name) (input : List Char)
    (start : Nat) :
    ∀ fuel v c', rule.matchAt fuel input start c = some (v, c') →
      c.Frame S (fun name bound => ∃ holder, Occurs rule c holder ∧
        holder.binding? = some (name, bound)) c' := by
  intro fuel v c' h
  have hname {holder bound : Rule} {name : String} (hholder : Occurs rule c holder)
      (hbinding : holder.binding? = some (name, bound)) : S name := by
    rcases hholder with hroot | ⟨other, around, haround, hinside⟩
    · exact hrule name (mem_boundNames hroot hbinding)
    · exact hc other around haround name (mem_boundNames hinside hbinding)
  have hoccurs : Occurs rule c rule ∧ c.Binds fun _ bound => Occurs rule c bound :=
    ⟨.inl rule.mem_subrules_self,
      fun name bound hbound => .inr ⟨name, bound, hbound, bound.mem_subrules_self⟩⟩
  exact (matchAt_governed (frame_governs Occurs.part hname)
    (anything_judges input _).toJudgesBound (fun _ _ _ => trivial) hoccurs h).2

/-- The first alternative binds both names, one of them by way of the context, and then fails. -/
theorem matchAt_frame_alternatives :
    let S : String → Prop := fun name => name = "a" ∨ name = "u"
    let rule : Rule := .or false
      [.sequence [.set "a" (.length 1), .lazy "t", .literal "z"], .not (.literal "z")]
    let c : Context := (({} : Context).bind "t" (.setAndUse "u" (.literal "x"))).record "k" "é"
    (∀ name ∈ rule.boundNames, S name) ∧
      (c.Binds fun _ bound => ∀ name ∈ bound.boundNames, S name) ∧
      ∃ v c', rule.matchAt 8 ['é', 'x'] 0 c = some (v, c') ∧
        v.isSuccessful = true ∧ c'.isBound "u" = true ∧
        c.Frame S (fun name bound => ∃ holder, Occurs rule c holder ∧
          holder.binding? = some (name, bound)) c' := by
  intro S rule c
  have hrule : ∀ name ∈ rule.boundNames, S name := by
    show ∀ name ∈ rule.boundNames, name = "a" ∨ name = "u"
    decide
  have hc : c.Binds fun _ bound => ∀ name ∈ bound.boundNames, S name := by
    refine Context.Binds.record (Context.Binds.bind .empty ?_) "k" "é"
    show ∀ name ∈ (Rule.setAndUse "u" (.literal "x")).boundNames, name = "a" ∨ name = "u"
    decide
  obtain ⟨⟨v, c'⟩, h, hv⟩ : ∃ x, rule.matchAt 8 ['é', 'x'] 0 c = some x ∧
      (x.1.isSuccessful && x.2.isBound "u") = true := Option.map_eq_some_iff.1 (by decide +kernel)
  obtain ⟨hok, hbound⟩ := Bool.and_eq_true_iff.1 hv
  exact ⟨hrule, hc, v, c', h, hok, hbound,
    matchAt_frame rule c S hrule hc ['é', 'x'] 0 8 v c' h⟩

end Rule

end TextGrammar
