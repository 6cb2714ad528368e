import TextGrammar.Proofs.Matcher.Passage
import TextGrammar.Proofs.Rule.Frame
import TextGrammar.Proofs.Rule.Trial

/-!
# What is captured on the way

Whatever a rule with a name matches is captured under the name, then and there, and nothing takes it
away again when the attempt turns out to be in vain.  So a name stands for the text that was matched
last under it in the course of an evaluation.
-/

namespace TextGrammar

open Matcher (Leaves)

structure Capture where
  name : String
  text : String
  deriving DecidableEq

namespace Capture

def latest? (name : String) (log : List Capture) : Option String :=
  (log.reverse.find? fun capture => capture.name = name).map text

@[simp] theorem latest?_nil (name : String) : latest? name [] = none := rfl

@[simp] theorem latest?_append (name : String) (log later : List Capture) :
    latest? name (log ++ later) = (latest? name later).or (latest? name log) := by
  simp [latest?, List.find?_append, Option.map_or]

theorem latest?_eq_none_iff {name : String} {log : List Capture} :
    latest? name log = none ↔ ∀ capture ∈ log, capture.name ≠ name := by
  simp [latest?]

end Capture

namespace Trial

variable {input : List Char} {t u : Trial} {us : List Trial} {rule : Rule} {rules : List Rule}
  {pos : Nat} {a : Attempt Empty} {c d e : Context}

/-- Rules around another one, which they try once, at their own offset. -/
inductive Around : Rule → Rule → Prop where
  | refined (base : Rule) (check : List Char → Nat → Verdict) : Around (.refined base check) base
  | not (rule : Rule) : Around (.not rule) rule
  | optional (rule : Rule) : Around (.optional rule) rule
  | set (name : String) (rule : Rule) : Around (.set name rule) rule
  | setAndUse (name : String) (rule : Rule) : Around (.setAndUse name rule) rule
  | completed (rule : Rule) : Around (.completed rule) rule

def goingOn (more : Bool) (rest : Trial) : List Trial := if more then [rest] else []

inductive Unfolds (input : List Char) : Trial → List Trial → Prop where
  | nothing {rule : Rule} {pos : Nat} {c : Context} : rule.parts = [] →
      (∀ name, rule ≠ .lazy name) → Unfolds input ⟨rule, pos, c⟩ []
  | around {rule part : Rule} {pos : Nat} {c : Context} : Around rule part →
      Unfolds input ⟨rule, pos, c⟩ [⟨part, pos, rule.entering c⟩]
  | unbound {name : String} {pos : Nat} {c : Context} {e : GrammarError} :
      c.rule? name = .error e → Unfolds input ⟨.lazy name, pos, c⟩ []
  | bound {name : String} {rule : Rule} {pos : Nat} {c : Context} : c.rule? name = .ok rule →
      Unfolds input ⟨.lazy name, pos, c⟩ [⟨rule, pos, c⟩]
  | sequence {rule : Rule} {rules : List Rule} {pos : Nat} {c c' : Context} {a : Attempt Empty} :
      Gives input ⟨rule, pos, c⟩ a c' → Unfolds input ⟨.sequence (rule :: rules), pos, c⟩
        (⟨rule, pos, c⟩ :: goingOn a.isSuccessful ⟨.sequence rules, a.stop, c'⟩)
  | and {rule : Rule} {rules : List Rule} {pos : Nat} {c c' : Context} {a : Attempt Empty} :
      Gives input ⟨rule, pos, c⟩ a c' → Unfolds input ⟨.and (rule :: rules), pos, c⟩
        [⟨rule, pos, c⟩, ⟨.and rules, pos, c'⟩]
  | or {longest : Bool} {rule : Rule} {rules : List Rule} {pos : Nat} {c c' : Context}
      {a : Attempt Empty} : Gives input ⟨rule, pos, c⟩ a c' →
      Unfolds input ⟨.or longest (rule :: rules), pos, c⟩
        (⟨rule, pos, c⟩ :: goingOn (longest || !a.isSuccessful) ⟨.or longest rules, pos, c'⟩)
  | repeating {rule : Rule} {atLeastOne : Bool} {pos : Nat} {c c' : Context} {a : Attempt Empty} :
      Gives input ⟨rule, pos, c⟩ a c' → Unfolds input ⟨.repeating rule atLeastOne, pos, c⟩
        (⟨rule, pos, c⟩ :: goingOn (a.isSuccessful && a.stop != pos)
          ⟨.repeating rule atLeastOne, a.stop, c'⟩)
  | stopped {rule stop : Rule} {atLeastOne : Bool} {pos : Nat} {c c' : Context}
      {a : Attempt Empty} : Gives input ⟨stop, pos, c⟩ a c' → a.isSuccessful = true →
      Unfolds input ⟨.nonGreedy rule stop atLeastOne, pos, c⟩ [⟨stop, pos, c⟩]
  | unstopped {rule stop : Rule} {atLeastOne : Bool} {pos : Nat} {c c' c'' : Context}
      {a b : Attempt Empty} : Gives input ⟨stop, pos, c⟩ a c' → a.isSuccessful = false →
      Gives input ⟨rule, pos, c'⟩ b c'' →
      Unfolds input ⟨.nonGreedy rule stop atLeastOne, pos, c⟩
        (⟨stop, pos, c⟩ :: ⟨rule, pos, c'⟩ :: goingOn (b.isSuccessful && b.stop != pos)
          ⟨.nonGreedy rule stop atLeastOne, b.stop, c''⟩)

private theorem mem_goingOn_iff {more : Bool} {rest : Trial} :
    u ∈ goingOn more rest ↔ more = true ∧ u = rest := by
  cases more <;> simp [goingOn]

private theorem lastRound_of_stay (hstay : a.isSuccessful = true → a.stop = pos) :
    (a.isSuccessful && a.stop != pos) = false := by
  cases hok : a.isSuccessful with
  | false => rfl
  | true => simp [hstay hok]

theorem Unfolds.demands (h : Unfolds input t us) (hu : u ∈ us) : Demands input t u := by
  cases h with
  | nothing | unbound => exact absurd hu List.not_mem_nil
  | around haround =>
      obtain rfl := List.mem_singleton.1 hu
      refine .first ?_
      cases haround <;> rfl
  | bound hbound =>
      obtain rfl := List.mem_singleton.1 hu
      exact .bound hbound
  | sequence ha =>
      rcases List.mem_cons.1 hu with rfl | hrest
      · exact .first rfl
      · obtain ⟨hok, rfl⟩ := mem_goingOn_iff.1 hrest
        exact .sequence ha hok
  | and ha =>
      rcases List.mem_cons.1 hu with rfl | hrest
      · exact .first rfl
      · obtain rfl := List.mem_singleton.1 hrest
        exact .and ha
  | or ha =>
      rcases List.mem_cons.1 hu with rfl | hrest
      · exact .first rfl
      · obtain ⟨hon, rfl⟩ := mem_goingOn_iff.1 hrest
        exact .or ha (by simpa using hon)
  | repeating ha =>
      rcases List.mem_cons.1 hu with rfl | hrest
      · exact .first rfl
      · obtain ⟨hon, rfl⟩ := mem_goingOn_iff.1 hrest
        obtain ⟨hok, hmove⟩ := Bool.and_eq_true_iff.1 hon
        exact .repeating ha hok (bne_iff_ne.1 hmove)
  | stopped =>
      obtain rfl := List.mem_singleton.1 hu
      exact .first rfl
  | unstopped ha hfail hb =>
      rcases List.mem_cons.1 hu with rfl | hrest
      · exact .first rfl
      rcases List.mem_cons.1 hrest with rfl | hrest
      · exact .unstopped ha hfail
      · obtain ⟨hon, rfl⟩ := mem_goingOn_iff.1 hrest
        obtain ⟨hok, hmove⟩ := Bool.and_eq_true_iff.1 hon
        exact .nonGreedy ha hfail hb hok (bne_iff_ne.1 hmove)

def captures (input : List Char) (t : Trial) (a : Attempt Empty) : List Capture :=
  match t.rule.binding? with
  | some (name, _) =>
      if a.isSuccessful then [⟨name, String.ofList (textBetween input t.pos a.stop)⟩] else []
  | none => []

def leaving (input : List Char) (t : Trial) (a : Attempt Empty) (c : Context) : Context :=
  match t.rule with
  | .set name rule =>
      if a.isSuccessful then Rule.capture input name t.pos a (c.bind name rule) else c
  | .setAndUse name _ => if a.isSuccessful then Rule.capture input name t.pos a c else c
  | _ => c

private theorem captured?_leaving (t : Trial) (a : Attempt Empty) (c : Context) (name : String) :
    (t.leaving input a c).captured? name =
      (Capture.latest? name (t.captures input a)).or (c.captured? name) := by
  have hrecord {bound : String} (d : Context) (hd : d.captured? name = c.captured? name) :
      (Rule.capture input bound t.pos a d).captured? name =
        (Capture.latest? name [⟨bound, String.ofList (textBetween input t.pos a.stop)⟩]).or
          (c.captured? name) := by
    by_cases hname : name = bound
    · subst hname
      simp [Rule.capture, Capture.latest?]
    · rw [Rule.capture, Context.captured?_record_of_ne _ _ hname, hd]
      simp [Capture.latest?, Ne.symm hname]
  obtain ⟨rule, pos, entered⟩ := t
  cases rule with
  | set bound rule =>
      cases hok : a.isSuccessful with
      | false => simp [leaving, captures, Rule.binding?, hok]
      | true =>
          simp only [leaving, captures, Rule.binding?, hok, if_true]
          exact hrecord _ rfl
  | setAndUse bound rule =>
      cases hok : a.isSuccessful with
      | false => simp [leaving, captures, Rule.binding?, hok]
      | true =>
          simp only [leaving, captures, Rule.binding?, hok, if_true]
          exact hrecord _ rfl
  | _ => rfl

/-! ## Histories -/

/-- All that is captured when trials are made one after another, each in the context that the one
before it left: what is captured in the trials that a trial demands, and then its own capture. -/
inductive History (input : List Char) : List Trial → Context → List Capture → Context → Prop where
  | nil (c : Context) : History input [] c [] c
  | cons {t : Trial} {us ts : List Trial} {a : Attempt Empty} {inside later : List Capture}
      {e c' : Context} : Unfolds input t us →
      History input us (t.rule.entering t.context) inside e →
      t.Gives input a (t.leaving input a e) →
      History input ts (t.leaving input a e) later c' →
      History input (t :: ts) t.context (inside ++ t.captures input a ++ later) c'

private theorem captured?_entering (rule : Rule) (c : Context) (name : String) :
    (rule.entering c).captured? name = c.captured? name := by
  cases rule <;> rfl

theorem History.captured?_eq {log : List Capture} (h : History input us c log d) (name : String) :
    d.captured? name = (Capture.latest? name log).or (c.captured? name) := by
  induction h with
  | nil => rfl
  | @cons t us ts a inside later e c' _ _ _ _ hinside hlater =>
      rw [hlater, captured?_leaving, hinside, captured?_entering]
      simp [Option.or_assoc]

def Threads (input : List Char) (us : List Trial) (c d : Context) : Prop :=
  ∃ log, History input us c log d

theorem Threads.cons (h : Threads input [u] u.context d) (h' : Threads input us d e) :
    Threads input (u :: us) u.context e := by
  obtain ⟨log, h⟩ := h
  obtain ⟨later, h'⟩ := h'
  cases h with
  | cons hdemands hinside hgives hnothing =>
      cases hnothing
      exact ⟨_, .cons hdemands hinside hgives h'⟩

theorem Threads.intro (hunfolds : Unfolds input t us)
    (h : Threads input us (t.rule.entering t.context) e)
    (hgives : t.Gives input a (t.leaving input a e)) :
    Threads input [t] t.context (t.leaving input a e) := by
  obtain ⟨log, h⟩ := h
  exact ⟨_, .cons hunfolds h hgives (.nil _)⟩

theorem Threads.passed (hbinds : t.rule.binding? = none) (hunfolds : Unfolds input t us)
    (h : Threads input us t.context e) (hgives : t.Gives input a e) :
    Threads input [t] t.context e := by
  have hentering : t.rule.entering t.context = t.context := by
    rcases t.rule.entering_eq t.context with heq | ⟨name, bound, hbinding, -⟩
    · exact heq
    · exact absurd (hbinds.symm.trans hbinding) nofun
  have hleaving : t.leaving input a e = e := by
    unfold leaving
    split
    · rename_i hrule
      exact absurd hbinds (by simp [hrule, Rule.binding?])
    · rename_i hrule
      exact absurd hbinds (by simp [hrule, Rule.binding?])
    · rfl
  have hthreads := Threads.intro hunfolds (hentering.symm ▸ h) (hleaving.symm ▸ hgives)
  rwa [hleaving] at hthreads

theorem Threads.nothing (hbinds : rule.binding? = none) (hparts : rule.parts = [])
    (hlazy : ∀ name, rule ≠ .lazy name) (h : Gives input ⟨rule, pos, c⟩ a c) :
    Threads input [⟨rule, pos, c⟩] c c :=
  .passed hbinds (.nothing hparts hlazy) ⟨[], .nil c⟩ h

/-! ## Every evaluation has a history -/

section Remembers

variable {fuel : Nat}

def Remembers (input : List Char) (fuel : Nat) : Prop :=
  ∀ (rule : Rule) (pos : Nat) (a : Attempt Empty) (c d : Context),
    rule.eval input fuel pos c = some (a, d) → Threads input [⟨rule, pos, c⟩] c d

variable (hparts : Remembers input fuel)

include hparts

private theorem threads_sequence
    (h : Leaves (Matcher.sequence (rules.map (Rule.eval input fuel))) pos c d) :
    Threads input [⟨.sequence rules, pos, c⟩] c d := by
  induction rules generalizing pos c with
  | nil =>
      obtain rfl := Matcher.sequence_nil_leaves_iff.1 h
      exact .nothing rfl rfl nofun ⟨1, rfl⟩
  | cons rule rules ih =>
      obtain ⟨b, hb⟩ := h
      have hwhole : Gives input ⟨.sequence (rule :: rules), pos, c⟩ b d :=
        ⟨fuel + 1, by rw [Rule.eval]; exact hb⟩
      obtain ⟨a, e, ha, hcases⟩ := Matcher.sequence_cons_leaves_iff.1 ⟨b, hb⟩
      have hunfolds : Unfolds input ⟨.sequence (rule :: rules), pos, c⟩
          (⟨rule, pos, c⟩ :: goingOn a.isSuccessful ⟨.sequence rules, a.stop, e⟩) :=
        .sequence ⟨fuel, ha⟩
      have hfirst : Threads input [⟨rule, pos, c⟩] c e := hparts rule pos a c e ha
      rcases hcases with ⟨hfail, rfl⟩ | ⟨hok, hrest⟩
      · rw [hfail] at hunfolds
        exact .passed rfl hunfolds hfirst hwhole
      · rw [hok] at hunfolds
        exact .passed rfl hunfolds (hfirst.cons (ih hrest)) hwhole

private theorem threads_and
    (h : Leaves (Matcher.conjunction (rules.map (Rule.eval input fuel))) pos c d) :
    Threads input [⟨.and rules, pos, c⟩] c d := by
  induction rules generalizing c with
  | nil =>
      obtain ⟨b, hb⟩ := h
      obtain ⟨-, rfl⟩ := Prod.mk.inj (Option.some.inj hb)
      exact .nothing rfl rfl nofun ⟨1, rfl⟩
  | cons rule rules ih =>
      obtain ⟨b, hb⟩ := h
      have hwhole : Gives input ⟨.and (rule :: rules), pos, c⟩ b d :=
        ⟨fuel + 1, by rw [Rule.eval]; exact hb⟩
      obtain ⟨a, e, ha, ⟨hdone, -⟩ | ⟨-, hrest⟩⟩ :=
        Matcher.exists_attempts_cons_iff.1 (Matcher.conjunction_leaves_iff.1 ⟨b, hb⟩)
      · cases hdone
      have hfirst : Threads input [⟨rule, pos, c⟩] c e := hparts rule pos a c e ha
      have hrest' := ih (Matcher.conjunction_leaves_iff.2 hrest)
      exact .passed rfl (.and ⟨fuel, ha⟩) (hfirst.cons hrest') hwhole

private theorem threads_or {longest : Bool}
    (h : Leaves (Matcher.choice longest (rules.map (Rule.eval input fuel))) pos c d) :
    Threads input [⟨.or longest rules, pos, c⟩] c d := by
  induction rules generalizing c with
  | nil =>
      obtain ⟨b, hb⟩ := h
      obtain ⟨-, rfl⟩ := Prod.mk.inj (Option.some.inj hb)
      exact .nothing rfl rfl nofun ⟨1, rfl⟩
  | cons rule rules ih =>
      obtain ⟨b, hb⟩ := h
      have hwhole : Gives input ⟨.or longest (rule :: rules), pos, c⟩ b d :=
        ⟨fuel + 1, by rw [Rule.eval]; exact hb⟩
      obtain ⟨a, e, ha, hcases⟩ :=
        Matcher.exists_attempts_cons_iff.1 (Matcher.choice_leaves_iff.1 ⟨b, hb⟩)
      have hunfolds : Unfolds input ⟨.or longest (rule :: rules), pos, c⟩ (⟨rule, pos, c⟩ ::
          goingOn (longest || !a.isSuccessful) ⟨.or longest rules, pos, e⟩) := .or ⟨fuel, ha⟩
      have hmore : (longest || !a.isSuccessful) = !(!longest && a.isSuccessful) := by simp
      rw [hmore] at hunfolds
      have hfirst : Threads input [⟨rule, pos, c⟩] c e := hparts rule pos a c e ha
      rcases hcases with ⟨hdone, rfl⟩ | ⟨hon, hrest⟩
      · rw [hdone] at hunfolds
        exact .passed rfl hunfolds hfirst hwhole
      · rw [hon] at hunfolds
        have hrest' := ih (Matcher.choice_leaves_iff.2 hrest)
        exact .passed rfl hunfolds (hfirst.cons hrest') hwhole

private theorem threads_repeating {atLeastOne : Bool} {left : Nat} (hle : left ≤ fuel)
    (h : ∃ run, Matcher.rounds (Rule.eval input fuel rule) left pos c = some (run, d)) :
    Threads input [⟨.repeating rule atLeastOne, pos, c⟩] c d := by
  induction left generalizing pos c with
  | zero =>
      obtain ⟨run, hrun⟩ := h
      cases hrun
  | succ left ih =>
      obtain ⟨run, hrun⟩ := h
      have hfull := Matcher.rounds_extends (.refl _) hle pos c _ hrun
      have hleaves : Leaves (.repeating fuel atLeastOne (Rule.eval input fuel rule)) pos c d :=
        Matcher.repeating_leaves_iff.2 ⟨run, hfull⟩
      obtain ⟨b, hb⟩ := hleaves
      have hwhole : Gives input ⟨.repeating rule atLeastOne, pos, c⟩ b d :=
        ⟨fuel + 1, by rw [Rule.eval]; exact hb⟩
      obtain ⟨a, e, ha, hcases⟩ := Matcher.exists_rounds_succ_iff.1 ⟨run, hrun⟩
      have hunfolds : Unfolds input ⟨.repeating rule atLeastOne, pos, c⟩ (⟨rule, pos, c⟩ ::
          goingOn (a.isSuccessful && a.stop != pos) ⟨.repeating rule atLeastOne, a.stop, e⟩) :=
        .repeating ⟨fuel, ha⟩
      have hfirst : Threads input [⟨rule, pos, c⟩] c e := hparts rule pos a c e ha
      rcases hcases with ⟨hstay, rfl⟩ | ⟨hok, hmove, hrest⟩
      · rw [lastRound_of_stay hstay] at hunfolds
        exact .passed rfl hunfolds hfirst hwhole
      · rw [hok, bne_iff_ne.2 hmove] at hunfolds
        have hrest' := ih (Nat.le_of_succ_le hle) hrest
        exact .passed rfl hunfolds (hfirst.cons hrest') hwhole

private theorem threads_nonGreedy {stop : Rule} {atLeastOne : Bool} {left : Nat} (hle : left ≤ fuel)
    (h : ∃ run, Matcher.roundsUntil (Rule.holds (Rule.eval input fuel stop))
      (Rule.eval input fuel rule) left pos c = some (run, d)) :
    Threads input [⟨.nonGreedy rule stop atLeastOne, pos, c⟩] c d := by
  induction left generalizing pos c with
  | zero =>
      obtain ⟨run, hrun⟩ := h
      cases hrun
  | succ left ih =>
      obtain ⟨run, hrun⟩ := h
      have hfull := Matcher.roundsUntil_extends (.refl _) (fun _ _ _ => id) hle pos c _ hrun
      have hleaves : Leaves (.nonGreedy fuel atLeastOne (Rule.holds (Rule.eval input fuel stop))
          (Rule.eval input fuel rule)) pos c d := Matcher.nonGreedy_leaves_iff.2 ⟨run, hfull⟩
      obtain ⟨b, hb⟩ := hleaves
      have hwhole : Gives input ⟨.nonGreedy rule stop atLeastOne, pos, c⟩ b d :=
        ⟨fuel + 1, by rw [Rule.eval]; exact hb⟩
      rcases Matcher.exists_roundsUntil_succ_iff.1 ⟨run, hrun⟩ with
        hstop | ⟨e, hstop, a, e', ha, hcases⟩
      · obtain ⟨z, hz, hok⟩ := exists_of_holds hstop
        exact .passed rfl (.stopped ⟨fuel, hz⟩ hok) (hparts stop pos z c d hz) hwhole
      obtain ⟨z, hz, hfail⟩ := exists_of_holds hstop
      have hunfolds : Unfolds input ⟨.nonGreedy rule stop atLeastOne, pos, c⟩
          (⟨stop, pos, c⟩ :: ⟨rule, pos, e⟩ :: goingOn (a.isSuccessful && a.stop != pos)
            ⟨.nonGreedy rule stop atLeastOne, a.stop, e'⟩) :=
        .unstopped ⟨fuel, hz⟩ hfail ⟨fuel, ha⟩
      have hasked : Threads input [⟨stop, pos, c⟩] c e := hparts stop pos z c e hz
      have hround : Threads input [⟨rule, pos, e⟩] e e' := hparts rule pos a e e' ha
      rcases hcases with ⟨hstay, rfl⟩ | ⟨hok, hmove, hrest⟩
      · rw [lastRound_of_stay hstay] at hunfolds
        exact .passed rfl hunfolds (hasked.cons hround) hwhole
      · rw [hok, bne_iff_ne.2 hmove] at hunfolds
        have hrest' := ih (Nat.le_of_succ_le hle) hrest
        exact .passed rfl hunfolds (hasked.cons (hround.cons hrest')) hwhole

private theorem threads_around {part : Rule} {b : Attempt Empty} (h : Around rule part)
    (hb : part.eval input fuel pos (rule.entering c) = some (b, e))
    (hgives : Gives input ⟨rule, pos, c⟩ a (leaving input ⟨rule, pos, c⟩ a e)) :
    Threads input [⟨rule, pos, c⟩] c (leaving input ⟨rule, pos, c⟩ a e) :=
  .intro (.around h) (hparts part pos b (rule.entering c) e hb) hgives

private theorem remembers_succ : Remembers input (fuel + 1) := by
  intro rule pos a c d h
  have hgives : Gives input ⟨rule, pos, c⟩ a d := ⟨fuel + 1, h⟩
  cases rule with
  | literal text | length n | regex r =>
      obtain ⟨-, rfl⟩ := Prod.mk.inj (Option.some.inj h)
      exact .nothing rfl rfl nofun hgives
  | refined base check =>
      obtain ⟨⟨b, e⟩, hb, heq⟩ := Option.bind_eq_some_iff.1 h
      obtain ⟨-, rfl⟩ := Prod.mk.inj (Option.some.inj heq)
      exact threads_around hparts (.refined base check) hb hgives
  | sequence rules => exact threads_sequence hparts ⟨a, h⟩
  | and rules => exact threads_and hparts ⟨a, h⟩
  | or longest rules => exact threads_or hparts ⟨a, h⟩
  | not rule =>
      obtain ⟨⟨b, e⟩, hb, heq⟩ := Option.bind_eq_some_iff.1 h
      obtain ⟨-, rfl⟩ := Prod.mk.inj (Option.some.inj heq)
      exact threads_around hparts (.not rule) hb hgives
  | optional rule =>
      obtain ⟨⟨b, e⟩, hb, heq⟩ := Option.bind_eq_some_iff.1 h
      obtain rfl : e = d := by
        dsimp only at heq
        split at heq
        all_goals exact (Prod.mk.inj (Option.some.inj heq)).2
      exact threads_around hparts (.optional rule) hb hgives
  | repeating rule atLeastOne =>
      exact threads_repeating hparts (Nat.le_refl fuel) (Matcher.repeating_leaves_iff.1 ⟨a, h⟩)
  | nonGreedy rule stop atLeastOne =>
      exact threads_nonGreedy hparts (Nat.le_refl fuel) (Matcher.nonGreedy_leaves_iff.1 ⟨a, h⟩)
  | set name rule =>
      obtain ⟨⟨b, e⟩, hb, heq⟩ := Option.bind_eq_some_iff.1 h
      obtain ⟨rfl, rfl⟩ := Prod.mk.inj (Option.some.inj heq)
      exact threads_around hparts (.set name rule) hb hgives
  | setAndUse name rule =>
      obtain ⟨⟨b, e⟩, hb, heq⟩ := Option.bind_eq_some_iff.1 h
      obtain ⟨rfl, rfl⟩ := Prod.mk.inj (Option.some.inj heq)
      exact threads_around hparts (.setAndUse name rule) hb hgives
  | lazy name =>
      rw [Rule.eval, Matcher.resolved] at h
      cases hfound : c.rule? name with
      | error err =>
          rw [hfound] at h
          obtain ⟨-, rfl⟩ := Prod.mk.inj (Option.some.inj h)
          exact .passed rfl (.unbound hfound) ⟨[], .nil c⟩ hgives
      | ok bound =>
          rw [hfound] at h
          exact .passed rfl (.bound hfound) (hparts bound pos a c d h) hgives
  | completed rule =>
      obtain ⟨⟨b, e⟩, hb, heq⟩ := Option.bind_eq_some_iff.1 h
      obtain ⟨-, rfl⟩ := Prod.mk.inj (Option.some.inj heq)
      exact threads_around hparts (.completed rule) hb hgives

end Remembers

private theorem remembers (fuel : Nat) : Remembers input fuel := by
  induction fuel with
  | zero =>
      intro rule pos a c d h
      simp [Rule.eval] at h
  | succ fuel ih => exact remembers_succ ih

end Trial

namespace Rule

variable {input : List Char} {rule : Rule} {start : Nat} {c c' : Context} {v : Verdict}

theorem exists_history {fuel : Nat} (h : rule.matchAt fuel input start c = some (v, c')) :
    ∃ log, Trial.History input [⟨rule, start, c⟩] c log c' := by
  obtain ⟨⟨a, d⟩, ha, heq⟩ := Option.map_eq_some_iff.1 h
  obtain ⟨-, rfl⟩ := Prod.mk.inj heq
  exact Trial.remembers fuel rule start a c d ha

end Rule

end TextGrammar
