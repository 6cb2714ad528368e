import TextGrammar.Proofs.Rule.Choice
import TextGrammar.Proofs.Rule.History
import TextGrammar.Proofs.Rule.Influence

/-!
# What names stand for afterwards

A name stands for the text matched last under it, be the match part of the result or not.  When the
alternative that reaches furthest is taken, those behind it have been tried as well, and may have
left their texts; so have those before it, which may also have bound the names that it looks up.
-/

namespace TextGrammar

open List (Forall₂)

namespace Rule

variable {N : String → Prop} {rule : Rule} {c d : Context}

theorem Rest.mem_filterMap_subrules {β : Type} {f : Rule → Option β} {rest : Rule}
    (h : Rest rule rest) (hself : f rest = none) {b : β}
    (hb : b ∈ rest.subrules.filterMap f) : b ∈ rule.subrules.filterMap f := by
  obtain ⟨other, hother, hfound⟩ := List.mem_filterMap.1 hb
  rcases mem_subrules_iff.1 hother with rfl | ⟨part, hpart, hinside⟩
  · exact absurd (hself.symm.trans hfound) nofun
  · exact List.mem_filterMap.2 ⟨other, mem_subrules_of_part (h.mem_parts hpart) hinside, hfound⟩

theorem LooksUpIn.rest {rest : Rule} (h : rule.LooksUpIn N) (hrest : Rest rule rest) :
    rest.LooksUpIn N := by
  have hself : rest.lookup? = none := by
    cases hrest <;> rfl
  exact fun name hname => h name (hrest.mem_filterMap_subrules hself hname)

structure FindsSame (N : String → Prop) (rule : Rule) (c d : Context) : Prop where
  looksUpIn : rule.LooksUpIn N
  agreeOn : c.AgreeOn N d
  supports : c.Supports N

namespace FindsSame

theorem part {part : Rule} (h : FindsSame N rule c d) (hpart : part ∈ rule.parts) :
    FindsSame N part c d :=
  ⟨h.looksUpIn.part hpart, h.agreeOn, h.supports⟩

theorem entering {part : Rule} (h : FindsSame N rule c d) (hpart : part ∈ rule.parts) :
    FindsSame N part (rule.entering c) (rule.entering d) := by
  cases rule with
  | setAndUse name bound =>
      obtain ⟨hagree, hsupports⟩ :=
        (agreeOn_respects N).bind h.looksUpIn rfl ⟨h.agreeOn, h.supports⟩
      exact ⟨h.looksUpIn.part hpart, hagree, hsupports⟩
  | _ => exact h.part hpart

theorem rule?_eq {name : String} (h : FindsSame N (.lazy name) c d) :
    c.rule? name = d.rule? name := h.agreeOn name (looksUpIn_lazy h.looksUpIn)

theorem bound {name : String} {bound : Rule} (h : FindsSame N (.lazy name) c d)
    (hbound : c.rule? name = .ok bound) : FindsSame N bound c d :=
  ⟨h.supports name bound hbound (looksUpIn_lazy h.looksUpIn), h.agreeOn, h.supports⟩

end FindsSame

end Rule

namespace Trial

open Rule (FindsSame)

variable {input : List Char} {N : String → Prop} {t t' : Trial} {us us' : List Trial}
  {rule part : Rule} {pos : Nat} {c d e e' : Context} {a b : Attempt Empty}
  {log log' : List Capture}

inductive Alike (N : String → Prop) : Trial → Trial → Prop where
  | intro {rule : Rule} {pos : Nat} {c d : Context} : FindsSame N rule c d →
      Alike N ⟨rule, pos, c⟩ ⟨rule, pos, d⟩

private theorem attempt_eq_of_agrees (h : a.Agrees b) : a = b := by
  have hnothing (emitted : List Empty) : emitted = [] := by
    cases emitted with
    | nil => rfl
    | cons x _ => exact x.elim
  obtain ⟨emitted, v⟩ := a
  obtain ⟨emitted', w⟩ := b
  obtain rfl : v = w := h
  rw [hnothing emitted, hnothing emitted']

theorem Gives.unique (h : t.Gives input a c) (h' : t.Gives input b d) : a = b ∧ c = d := by
  obtain ⟨fuel, ha⟩ := h
  obtain ⟨fuel', hb⟩ := h'
  exact Prod.mk.inj ((Rule.eval_steady input t.rule t.pos t.context).unique ⟨fuel, ha⟩ ⟨fuel', hb⟩)

theorem Gives.alike (h : Gives input ⟨rule, pos, c⟩ a e) (h' : Gives input ⟨rule, pos, d⟩ b e')
    (hsame : FindsSame N rule c d) :
    a = b ∧ ∀ {other : Rule}, other.LooksUpIn N → FindsSame N other e e' := by
  obtain ⟨fuel, ha⟩ := h
  obtain ⟨b', f, hb, hagrees, hafter, hsupports⟩ := Rule.eval_simulated (Rule.agreeOn_respects N)
    input (Nat.le_refl fuel) rule hsame.looksUpIn pos c d ⟨hsame.agreeOn, hsame.supports⟩ a e ha
  obtain ⟨rfl, rfl⟩ := Gives.unique ⟨fuel, hb⟩ h'
  exact ⟨attempt_eq_of_agrees hagrees, fun hlooks => ⟨hlooks, hafter, hsupports⟩⟩

private theorem goingOn_alike {more : Bool} {rest rest' : Trial} (h : Alike N rest rest') :
    Forall₂ (Alike N) (goingOn more rest) (goingOn more rest') := by
  cases more with
  | false => exact .nil
  | true => exact .cons h .nil

theorem Around.mem_parts (h : Around rule part) : part ∈ rule.parts := by
  cases h <;> exact List.mem_singleton_self _

theorem Around.unique {other : Rule} (h : Around rule part) (h' : Around rule other) :
    part = other := by
  cases h <;> cases h' <;> rfl

theorem Unfolds.alike (h : Unfolds input ⟨rule, pos, c⟩ us) (h' : Unfolds input ⟨rule, pos, d⟩ us')
    (hsame : FindsSame N rule c d) : Forall₂ (Alike N) us us' := by
  cases h with
  | nothing hparts hlazy =>
      cases h' with
      | nothing => exact .nil
      | around haround => cases haround <;> cases hparts
      | unbound | bound => exact absurd rfl (hlazy _)
      | _ => cases hparts
  | @around _ part _ _ haround =>
      have hunfolds : us' = [⟨part, pos, rule.entering d⟩] := by
        cases h' with
        | nothing hparts => cases haround <;> cases hparts
        | around haround' => rw [haround.unique haround']
        | _ => cases haround
      rw [hunfolds]
      exact .cons (.intro (hsame.entering haround.mem_parts)) .nil
  | unbound hfound =>
      cases h' with
      | nothing _ hlazy => exact absurd rfl (hlazy _)
      | around haround => cases haround
      | unbound => exact .nil
      | bound hfound' => exact absurd (hfound.symm.trans (hsame.rule?_eq.trans hfound')) nofun
  | bound hfound =>
      cases h' with
      | nothing _ hlazy => exact absurd rfl (hlazy _)
      | around haround => cases haround
      | unbound hfound' => exact absurd (hfound.symm.trans (hsame.rule?_eq.trans hfound')) nofun
      | bound hfound' =>
          obtain rfl := Except.ok.inj (hfound.symm.trans (hsame.rule?_eq.trans hfound'))
          exact .cons (.intro (hsame.bound hfound)) .nil
  | sequence ha =>
      cases h' with
      | nothing hparts => cases hparts
      | around haround => cases haround
      | sequence hb =>
          have hfirst := hsame.part List.mem_cons_self
          obtain ⟨rfl, hafter⟩ := ha.alike hb hfirst
          exact .cons (.intro hfirst)
            (goingOn_alike (.intro (hafter (hsame.looksUpIn.rest (.sequence _ _)))))
  | and ha =>
      cases h' with
      | nothing hparts => cases hparts
      | around haround => cases haround
      | and hb =>
          have hfirst := hsame.part List.mem_cons_self
          obtain ⟨rfl, hafter⟩ := ha.alike hb hfirst
          exact .cons (.intro hfirst)
            (.cons (.intro (hafter (hsame.looksUpIn.rest (.and _ _)))) .nil)
  | or ha =>
      cases h' with
      | nothing hparts => cases hparts
      | around haround => cases haround
      | or hb =>
          have hfirst := hsame.part List.mem_cons_self
          obtain ⟨rfl, hafter⟩ := ha.alike hb hfirst
          exact .cons (.intro hfirst)
            (goingOn_alike (.intro (hafter (hsame.looksUpIn.rest (.or _ _ _)))))
  | repeating ha =>
      cases h' with
      | nothing hparts => cases hparts
      | around haround => cases haround
      | repeating hb =>
          have hfirst := hsame.part (List.mem_singleton_self _)
          obtain ⟨rfl, hafter⟩ := ha.alike hb hfirst
          exact .cons (.intro hfirst) (goingOn_alike (.intro (hafter hsame.looksUpIn)))
  | stopped ha hok =>
      have hstop := hsame.part (List.mem_cons_of_mem _ List.mem_cons_self)
      cases h' with
      | nothing hparts => cases hparts
      | around haround => cases haround
      | stopped => exact .cons (.intro hstop) .nil
      | unstopped ha' hfail' =>
          obtain ⟨rfl, -⟩ := ha.alike ha' hstop
          exact absurd (hfail'.symm.trans hok) (by decide)
  | unstopped ha hfail hb =>
      have hstop := hsame.part (List.mem_cons_of_mem _ List.mem_cons_self)
      cases h' with
      | nothing hparts => cases hparts
      | around haround => cases haround
      | stopped ha' hok' =>
          obtain ⟨rfl, -⟩ := ha.alike ha' hstop
          exact absurd (hfail.symm.trans hok') (by decide)
      | unstopped ha' _ hb' =>
          obtain ⟨rfl, hasked⟩ := ha.alike ha' hstop
          have hround := hasked (hsame.part List.mem_cons_self).looksUpIn
          obtain ⟨rfl, hafter⟩ := hb.alike hb' hround
          exact .cons (.intro hstop) (.cons (.intro hround)
            (goingOn_alike (.intro (hafter hsame.looksUpIn))))

theorem History.log_eq (h : History input us c log e) (h' : History input us' d log' e')
    (hsame : Forall₂ (Alike N) us us') : log = log' := by
  induction h generalizing us' d log' e' with
  | nil =>
      cases hsame
      cases h'
      rfl
  | cons hunfolds hinside hgives hlater ihinside ihlater =>
      cases hsame with
      | cons halike hrest =>
          obtain ⟨hfinds⟩ := halike
          cases h' with
          | cons hunfolds' hinside' hgives' hlater' =>
              obtain ⟨rfl, -⟩ := hgives.alike hgives' hfinds
              rw [ihinside hinside' (hunfolds.alike hunfolds' hfinds), ihlater hlater' hrest]
              rfl

theorem History.names {Q : Context → Rule → Prop} {F : Context → Context → Prop}
    {S : String → Prop} (hgoverns : Rule.Governs Q F)
    (hrest : ∀ {rule rest : Rule} {c : Context}, Rule.Rest rule rest → Q c rule → Q c rest)
    (hname : ∀ {rule bound : Rule} {name : String} {c : Context}, Q c rule →
      rule.binding? = some (name, bound) → S name)
    (h : History input us c log e) (hus : ∀ t ∈ us, Q t.context t.rule) :
    ∀ capture ∈ log, S capture.name := by
  induction h with
  | nil => exact fun _ hnone => absurd hnone List.not_mem_nil
  | @cons t us ts a inside later e c' hunfolds _ _ _ ihinside ihlater =>
      obtain ⟨ht, hts⟩ := List.forall_mem_cons.1 hus
      have hown : ∀ capture ∈ t.captures input a, S capture.name := by
        intro capture hcapture
        unfold captures at hcapture
        split at hcapture
        · rename_i hbinding
          split at hcapture
          · rw [List.mem_singleton.1 hcapture]
            exact hname ht hbinding
          · exact absurd hcapture List.not_mem_nil
        · exact absurd hcapture List.not_mem_nil
      have hinside := ihinside fun u hu => (hunfolds.demands hu).governed hgoverns hrest ht
      exact List.forall_mem_append.2 ⟨List.forall_mem_append.2 ⟨hinside, hown⟩, ihlater hts⟩

end Trial

/-! ## What is left behind -/

namespace Rule

open Matcher (InTurn IsFurthest)

variable {input : List Char} {rule : Rule} {rules : List Rule} {start : Nat} {name : String}
  {c c' d d' : Context} {v : Verdict} {vs : List Verdict}

/-- While the rule is tried, text is captured under the name. -/
def CapturesUnder (input : List Char) (start : Nat) (name : String) (rule : Rule)
    (c c' : Context) : Prop :=
  ∃ log, Trial.History input [⟨rule, start, c⟩] c log c' ∧ ∃ capture ∈ log, capture.name = name

private theorem not_capturesUnder (hrule : name ∉ rule.boundNames)
    (hc : c.Binds fun _ bound => name ∉ bound.boundNames) :
    ¬CapturesUnder input start name rule c c' := by
  have hpart {other part : Rule} (hother : name ∉ other.boundNames) (hmem : part ∈ other.parts) :
      name ∉ part.boundNames :=
    fun hname => hother (mem_filterMap_subrules_of_part hmem hname)
  have hbinds {other bound : Rule} {bindsTo : String} (hother : name ∉ other.boundNames)
      (hbinding : other.binding? = some (bindsTo, bound)) : bindsTo ≠ name := by
    rintro rfl
    exact hother (mem_boundNames other.mem_subrules_self hbinding)
  have hrest {other rest : Rule} (hrest : Rest other rest) (hother : name ∉ other.boundNames) :
      name ∉ rest.boundNames := by
    have hself : rest.binding?.map Prod.fst = none := by
      rw [hrest.binding?_eq_none]
      rfl
    exact fun hname => hother (hrest.mem_filterMap_subrules hself hname)
  rintro ⟨log, hlog, capture, hcapture, hname⟩
  exact hlog.names (frame_governs hpart hbinds) (fun hleft h => ⟨hrest hleft h.1, h.2⟩)
    (fun h => hbinds h.1) (List.forall_mem_singleton.2 ⟨hrule, hc⟩) capture hcapture hname

def SilentAll (input : List Char) (start : Nat) (name : String) (rules : List Rule)
    (c c' : Context) : Prop :=
  ∃ vs, InTurn (fun rule c v c' => Gives input rule start c v c' ∧
    ¬CapturesUnder input start name rule c c') rules c vs c'

theorem SilentAll.captured?_eq (h : SilentAll input start name rules c c') :
    c'.captured? name = c.captured? name := by
  obtain ⟨vs, h⟩ := h
  induction h with
  | nil => rfl
  | @cons rule rules c d c' v vs hsilent _ ih =>
      obtain ⟨⟨fuel, hv⟩, hnone⟩ := hsilent
      obtain ⟨log, hlog⟩ := exists_history hv
      have hothers : ∀ capture ∈ log, capture.name ≠ name :=
        fun capture hcapture hname => hnone ⟨log, hlog, capture, hcapture, hname⟩
      rw [ih, hlog.captured?_eq, Capture.latest?_eq_none_iff.2 hothers, Option.none_or]

private theorem gives_alone {N : String → Prop} (hsame : FindsSame N rule c d)
    (h : Gives input rule start d v d')
    (hown : CapturesUnder input start name rule d d' ∨ d.captured? name = c.captured? name) :
    ∃ e, Gives input rule start c v e ∧ d'.captured? name = e.captured? name := by
  obtain ⟨fuel, hv⟩ := h
  obtain ⟨_, e, he, rfl, -⟩ := matchAt_simulated (agreeOn_respects N).symm hsame.looksUpIn
    ⟨hsame.agreeOn, hsame.supports⟩ fuel input start v d' hv
  refine ⟨e, ⟨fuel, he⟩, ?_⟩
  have hhistory {log : List Capture} (hlog : Trial.History input [⟨rule, start, d⟩] d log d') :
      e.captured? name = (Capture.latest? name log).or (c.captured? name) := by
    obtain ⟨log', hlog'⟩ := exists_history he
    obtain rfl : log' = log := hlog'.log_eq hlog (.cons (.intro hsame) .nil)
    exact hlog'.captured?_eq name
  rcases hown with ⟨log, hlog, capture, hcapture, hname⟩ | heq
  · obtain ⟨text, htext⟩ : ∃ text, Capture.latest? name log = some text := by
      rw [← Option.ne_none_iff_exists', ne_eq, Capture.latest?_eq_none_iff]
      exact fun hnone => hnone capture hcapture hname
    rw [hlog.captured?_eq, hhistory hlog, htext]
    rfl
  · obtain ⟨log, hlog⟩ := exists_history hv
    rw [hlog.captured?_eq, hhistory hlog, heq]

/-- A choice of the furthest takes `rule`: it is tried in the context `d` and leaves `d'`. -/
def Selects (input : List Char) (start : Nat) (front : List Rule) (rule : Rule) (back : List Rule)
    (c d : Context) (v : Verdict) (d' c' : Context) : Prop :=
  ∃ before after, InTurn (fun rule => Gives input rule start) front c before d ∧
    Gives input rule start d v d' ∧
    InTurn (fun rule => Gives input rule start) back d' after c' ∧ IsFurthest id before v after

theorem names_stand_for_last_match (input : List Char) (start : Nat) (c : Context) :
    (∀ rule v c', Gives input rule start c v c' →
      (∃ log, Trial.History input [⟨rule, start, c⟩] c log c') ∧
      ∀ log, Trial.History input [⟨rule, start, c⟩] c log c' → ∀ name,
        c'.captured? name = (Capture.latest? name log).or (c.captured? name)) ∧
    (∀ rules v c', Gives input (.or true rules) start c v c' → v.isSuccessful = true →
      ∃ front rule back d d', rules = front ++ rule :: back ∧
        Selects input start front rule back c d v d' c') ∧
    ∀ front rule back d v d' c', Selects input start front rule back c d v d' c' →
      ∀ name, SilentAll input start name back d' c' →
        c'.captured? name = d'.captured? name ∧
        (CapturesUnder input start name rule d d' ∨ SilentAll input start name front c d →
          ∀ N : String → Prop, FindsSame N rule c d →
            ∃ e, Gives input rule start c v e ∧ c'.captured? name = e.captured? name) := by
  refine ⟨fun rule v c' h => ?_, fun rules v c' h hok => ?_, ?_⟩
  · obtain ⟨fuel, hv⟩ := h
    exact ⟨exists_history hv, fun log hlog name => hlog.captured?_eq name⟩
  · obtain ⟨before, after, hturn, hmost⟩ :=
      (or_acceptAlike input rules start c).takes_furthest v c' h hok
    obtain ⟨front, rule, back, d, d', hrules, hfront, hv, hback⟩ := hturn.split
    exact ⟨front, rule, back, d, d', hrules, before, after, hfront, hv, hback, hmost⟩
  · intro front rule back d v d' c' hselects name hback
    obtain ⟨before, after, -, hv, -, -⟩ := hselects
    refine ⟨hback.captured?_eq, fun hown N hsame => ?_⟩
    obtain ⟨e, he, hleft⟩ := gives_alone hsame hv (hown.imp_right SilentAll.captured?_eq)
    exact ⟨e, he, hback.captured?_eq.trans hleft⟩

/-- The first alternative fails behind its capture, the last one reaches less far. -/
theorem names_stand_for_last_match_alternatives :
    let vain : Rule := .sequence [.set "y" (.literal "a"), .literal "z"]
    let rule : Rule := .set "x" (.length 2)
    let less : Rule := .set "y" (.length 1)
    let input := ['a', 'b']
    (∃ v c' log, Gives input vain 0 {} v c' ∧ v.isSuccessful = false ∧
      Trial.History input [⟨vain, 0, {}⟩] {} log c' ∧
      ∀ name, c'.captured? name = (Capture.latest? name log).or (({} : Context).captured? name)) ∧
    (∃ v c' front other back d d', Gives input (.or true [vain, rule, less]) 0 {} v c' ∧
      v.isSuccessful = true ∧ [vain, rule, less] = front ++ other :: back ∧
      Selects input 0 front other back {} d v d' c') ∧
    ∃ d v d' c' e, Selects input 0 [vain] rule [less] {} d v d' c' ∧
      SilentAll input 0 "x" [less] d' c' ∧ SilentAll input 0 "x" [vain] {} d ∧
      FindsSame (fun _ => False) rule {} d ∧ Gives input rule 0 {} v e ∧
      c'.captured? "x" = d'.captured? "x" ∧ c'.captured? "x" = e.captured? "x" := by
  intro vain rule less input
  let d : Context := (({} : Context).bind "y" (.literal "a")).record "y" "a"
  let d' : Context := (d.bind "x" (.length 2)).record "x" "ab"
  let c' : Context := (d'.bind "y" (.length 1)).record "y" "a"
  have hvain : ∃ w, Gives input vain 0 {} w d ∧ w.isSuccessful = false := ⟨_, ⟨8, rfl⟩, rfl⟩
  have hrule : ∃ v, Gives input rule 0 d v d' ∧ v.isSuccessful = true ∧ v.stop = 2 :=
    ⟨_, ⟨8, rfl⟩, rfl, rfl⟩
  have hless : ∃ w, Gives input less 0 d' w c' ∧ w.stop = 1 := ⟨_, ⟨8, rfl⟩, rfl⟩
  have hchoice : ∃ v, Gives input (.or true [vain, rule, less]) 0 {} v c' ∧
      v.isSuccessful = true := ⟨_, ⟨8, rfl⟩, rfl⟩
  obtain ⟨w, hvain, hfail⟩ := hvain
  obtain ⟨v, hrule, hok, hstop⟩ := hrule
  obtain ⟨w', hless, hstop'⟩ := hless
  obtain ⟨u, hchoice, hmatched⟩ := hchoice
  have hselects : Selects input 0 [vain] rule [less] {} d v d' c' := by
    refine ⟨[w], [w'], .cons hvain (.nil d), hrule, .cons hless (.nil c'), hok, ?_, ?_⟩
    · exact List.forall_mem_singleton.2 fun hok => absurd (hfail.symm.trans hok) (by decide)
    · refine List.forall_mem_singleton.2 fun _ => ?_
      show w'.stop ≤ v.stop
      omega
  have hnone : ({} : Context).Binds fun _ bound => "x" ∉ bound.boundNames := .empty
  have hbinds : d'.Binds fun _ bound => "x" ∉ bound.boundNames := by
    refine .record (.bind (.record (.bind .empty ?_) _ _) ?_) _ _ <;> decide
  have hfront : SilentAll input 0 "x" [vain] {} d :=
    ⟨[w], .cons ⟨hvain, not_capturesUnder (by decide) hnone⟩ (.nil d)⟩
  have hback : SilentAll input 0 "x" [less] d' c' :=
    ⟨[w'], .cons ⟨hless, not_capturesUnder (by decide) hbinds⟩ (.nil c')⟩
  have hsame : FindsSame (fun _ => False) rule {} d :=
    ⟨by decide, fun _ hname => hname.elim, fun _ _ _ hname => hname.elim⟩
  obtain ⟨hhistories, hselected, hleft⟩ := names_stand_for_last_match input 0 {}
  obtain ⟨⟨log, hlog⟩, hnames⟩ := hhistories vain w d hvain
  obtain ⟨front, other, back, e, e', hrules, hchosen⟩ := hselected _ u c' hchoice hmatched
  obtain ⟨hafter, halone⟩ := hleft [vain] rule [less] d v d' c' hselects "x" hback
  obtain ⟨f, hf, heq⟩ := halone (.inr hfront) _ hsame
  exact ⟨⟨w, d, log, hvain, hfail, hlog, hnames log hlog⟩,
    ⟨u, c', front, other, back, e, e', hchoice, hmatched, hrules, hchosen⟩,
    d, v, d', c', f, hselects, hback, hfront, hsame, hf, hafter, heq⟩

/-- Texts stay that no part of the match has matched: of a sequence that fails later on, and of an
alternative that reaches less far.  One that fails alone may match behind another one. -/
theorem vain_attempts_leave_text :
    (∃ v c', Gives ['a', 'c'] (.sequence [.set "x" (.literal "a"), .literal "b"]) 0 {} v c' ∧
      v.isSuccessful = false ∧ ({} : Context).captured? "x" = none ∧
      c'.captured? "x" = some "a") ∧
    (∃ v c' e, Gives ['a', 'b'] (.or true [.set "x" (.literal "ab"), .set "x" (.literal "a")]) 0 {}
        v c' ∧ Gives ['a', 'b'] (.set "x" (.literal "ab")) 0 {} v e ∧ v.isSuccessful = true ∧
      v.stop = 2 ∧ e.captured? "x" = some "ab" ∧ c'.captured? "x" = some "a") ∧
    ∃ v c' w e, Gives ['a', 'b'] (.or true [.set "x" (.literal "a"),
        .sequence [.set "y" (.lazy "x"), .literal "b"]]) 0 {} v c' ∧ v.isSuccessful = true ∧
      v.stop = 2 ∧ Gives ['a', 'b'] (.sequence [.set "y" (.lazy "x"), .literal "b"]) 0 {} w e ∧
      w.isSuccessful = false ∧ e.captured? "y" = none ∧ c'.captured? "y" = some "a" :=
  ⟨⟨_, _, ⟨8, rfl⟩, rfl, rfl, rfl⟩, ⟨_, _, _, ⟨8, rfl⟩, ⟨8, rfl⟩, rfl, rfl, rfl, rfl⟩,
    ⟨_, _, _, _, ⟨8, rfl⟩, rfl, rfl, ⟨8, rfl⟩, rfl, rfl, rfl⟩⟩

end Rule

end TextGrammar
