import TextGrammar.Escape.Scan
import TextGrammar.Fuel
import TextGrammar.Proofs.Escape.Decoding

/-!
# Where a scan stops

A scan asks its stop condition at each character that the engine considers.  It ends at the first
of them where the condition holds, or has read the whole text.  A condition that may fail to answer
is asked with more and more fuel; the scan comes to an end when all that it asks is answered.
-/

namespace TextGrammar.Escape

def Scan.withState {σ τ : Type} (scan : Scan σ) (state : τ) : Scan τ :=
  ⟨scan.text, scan.length, scan.engine, state⟩

theorem Scan.map_state_eq_some_iff {σ ρ : Type} {scan : Scan (Option σ)} {f : σ → ρ} {r : ρ} :
    scan.state.map f = some r ↔
      ∃ answered : Scan σ, scan = answered.withState (some answered.state) ∧
        f answered.state = r := by
  obtain ⟨text, length, engine, state⟩ := scan
  rw [Option.map_eq_some_iff]
  constructor
  · rintro ⟨s, rfl, hr⟩
    exact ⟨⟨text, length, engine, s⟩, rfl, hr⟩
  · rintro ⟨answered, hanswered, hr⟩
    exact ⟨answered.state, congrArg Scan.state hanswered, hr⟩

namespace Engine

theorem feed_append (e : Engine) (a b : List Char) :
    e.feed (a ++ b) =
      ((e.feed a).1 ++ ((e.feed a).2.feed b).1, ((e.feed a).2.feed b).2) := by
  induction a generalizing e with
  | nil => simp [feed]
  | cons c a ih => simp [feed, ih, List.append_assoc]

def behind (e : Engine) (text : List Char) (n : Nat) : Engine := (e.feed (text.take n)).2

def considers (e : Engine) (text : List Char) (n : Nat) : Bool :=
  (e.behind text (n + 1)).shouldConsider

def gathered (e : Engine) (resolved : Bool) (text : List Char) (n : Nat) : List Char :=
  if resolved then (e.feed (text.take n)).1 else text.take n

section Fronts

variable {e : Engine} {text : List Char}

@[simp] theorem behind_zero : e.behind text 0 = e := by simp [behind, feed]

@[simp] theorem gathered_zero (resolved : Bool) : e.gathered resolved text 0 = [] := by
  simp [gathered, feed]

theorem behind_succ {n : Nat} (hn : n < text.length) :
    e.behind text (n + 1) = ((e.behind text n).consider text[n]).2 := by
  rw [behind, ← List.take_append_getElem hn, feed_append]
  rfl

private theorem gathered_succ {n : Nat} (hn : n < text.length) (resolved : Bool) :
    e.gathered resolved text (n + 1) = e.gathered resolved text n ++
      (if resolved then ((e.behind text n).consider text[n]).1 else [text[n]]) := by
  rw [gathered, ← List.take_append_getElem hn, feed_append]
  cases resolved <;> simp [gathered, behind, feed]

theorem trailing_of_shouldConsider (h : e.shouldConsider = true) : e.trailing = [] := by
  have hplain : e.phase = .plain := by
    simp only [shouldConsider, Bool.and_eq_true, decide_eq_true_eq] at h
    exact h.1.1.1
  simp [trailing, hplain]

end Fronts

section Asking

variable {σ : Type} (e : Engine) (resolved : Bool) (stop : StopCondition σ) (s : σ)
  (text : List Char)

def stateAt : Nat → σ
  | 0 => s
  | n + 1 =>
      if e.considers text n then
        (stop (e.gathered resolved text n) (text.drop n) (stateAt n)).2
      else stateAt n

def answerAt (n : Nat) : Bool :=
  (stop (e.gathered resolved text n) (text.drop n) (e.stateAt resolved stop s text n)).1

def scanRest (n : Nat) : Scan σ :=
  (e.behind text n).scanFrom resolved stop (e.gathered resolved text n) n
    (e.stateAt resolved stop s text n) (text.drop n)

def stoppedAt (n : Nat) : Scan σ :=
  ⟨e.gathered resolved text n, n, e.behind text (n + 1), e.stateAt resolved stop s text (n + 1)⟩

variable {e resolved stop s text}

private theorem scanRest_step {n : Nat} (hn : n < text.length) :
    e.scanRest resolved stop s text n =
      if e.considers text n && e.answerAt resolved stop s text n then
        e.stoppedAt resolved stop s text n
      else e.scanRest resolved stop s text (n + 1) := by
  rw [scanRest, List.drop_eq_getElem_cons hn, scanFrom, ← List.drop_eq_getElem_cons hn]
  simp only [← behind_succ hn, answerAt, stoppedAt, scanRest, stateAt, gathered_succ hn]
  by_cases hconsider : e.considers text n = true
  · have hnext : (e.behind text (n + 1)).shouldConsider = true := hconsider
    simp only [hconsider, hnext, if_true, Bool.true_and]
    cases stop (e.gathered resolved text n) (text.drop n) (e.stateAt resolved stop s text n) with
    | mk stopped s' => cases stopped <;> simp
  · have hnext : ¬(e.behind text (n + 1)).shouldConsider = true := hconsider
    simp [hconsider, hnext]

private theorem scanRest_passed {n : Nat} (hn : n ≤ text.length)
    (h : ∀ i < n, e.considers text i = true → e.answerAt resolved stop s text i = false) :
    e.scanRest resolved stop s text 0 = e.scanRest resolved stop s text n := by
  induction n with
  | zero => rfl
  | succ n ih =>
      rw [ih (Nat.le_of_succ_le hn) fun i hi => h i (Nat.lt_succ_of_lt hi), scanRest_step hn]
      have hstep := h n (Nat.lt_succ_self n)
      cases hconsider : e.considers text n with
      | false => simp
      | true => simp [hstep hconsider]

private theorem exists_first (p : Nat → Bool) (length : Nat) :
    (∃ n < length, p n = true ∧ ∀ i < n, p i = false) ∨ ∀ i < length, p i = false := by
  induction length with
  | zero => exact .inr nofun
  | succ length ih =>
      rcases ih with ⟨n, hn, hfirst⟩ | hnever
      · exact .inl ⟨n, Nat.lt_succ_of_lt hn, hfirst⟩
      · cases hlast : p length with
        | true => exact .inl ⟨length, Nat.lt_succ_self length, hlast, hnever⟩
        | false => exact .inr (Nat.forall_lt_succ_right.2 ⟨hnever, hlast⟩)

end Asking

/-! ## The first place to stop at -/

/-- A scan ends at the first character that the engine considers and for which the answer is yes.
`states` says which states the stop condition can be in behind so many characters. -/
inductive Ends {σ : Type} (e : Engine) (resolved : Bool) (text : List Char)
    (answers : Nat → Bool → Prop) (states : Nat → σ → Prop) : Scan σ → Prop
  | stopped {n : Nat} {s : σ} (inside : n < text.length) (considered : e.considers text n = true)
      (holds : answers n true) (first : ∀ i < n, e.considers text i = true → answers i false)
      (state : states (n + 1) s) :
      Ends e resolved text answers states
        ⟨e.gathered resolved text n, n, e.behind text (n + 1), s⟩
  | exhausted {s : σ} (never : ∀ i < text.length, e.considers text i = true → answers i false)
      (state : states text.length s) :
      Ends e resolved text answers states
        ⟨e.gathered resolved text text.length, text.length, e.behind text text.length, s⟩

section Ends

variable {σ : Type} {e : Engine} {resolved : Bool} {text : List Char}
  {answers answers' : Nat → Bool → Prop} {states : Nat → σ → Prop} {scan scan' : Scan σ}

theorem Ends.map {τ : Type} {states' : Nat → τ → Prop} (f : σ → τ)
    (h : e.Ends resolved text answers states scan)
    (hanswers : ∀ n b, n < text.length → answers n b → answers' n b)
    (hstates : ∀ n s, states n s → states' n (f s)) :
    e.Ends resolved text answers' states' (scan.withState (f scan.state)) := by
  cases h with
  | stopped inside considered holds first state =>
      exact .stopped inside considered (hanswers _ _ inside holds)
        (fun i hi hc => hanswers _ _ (Nat.lt_trans hi inside) (first i hi hc)) (hstates _ _ state)
  | exhausted never state =>
      exact .exhausted (fun i hi hc => hanswers _ _ hi (never i hi hc)) (hstates _ _ state)

theorem Ends.length_le (h : e.Ends resolved text answers states scan) :
    scan.length ≤ text.length := by
  cases h with
  | stopped inside => exact Nat.le_of_lt inside
  | exhausted => exact Nat.le_refl _

theorem Ends.text_eq_take (h : e.Ends false text answers states scan) :
    scan.text = text.take scan.length := by
  cases h <;> simp [gathered]

theorem Ends.unique (h : e.Ends resolved text answers states scan)
    (h' : e.Ends resolved text answers states scan')
    (hanswers : ∀ n, answers n true → ¬answers n false)
    (hstates : ∀ n s s', states n s → states n s' → s = s') : scan = scan' := by
  cases h with
  | @stopped n s inside considered holds first state =>
      cases h' with
      | @stopped n' s' inside' considered' holds' first' state' =>
          have hle : n ≤ n' := Nat.not_lt.1 fun hlt => hanswers n' holds' (first n' hlt considered')
          have hge : n' ≤ n := Nat.not_lt.1 fun hlt => hanswers n holds (first' n hlt considered)
          obtain rfl := Nat.le_antisymm hle hge
          rw [hstates _ _ _ state state']
      | exhausted never' => exact absurd (never' n inside considered) (hanswers n holds)
  | exhausted never state =>
      cases h' with
      | stopped inside' considered' holds' =>
          exact absurd (never _ inside' considered') (hanswers _ holds')
      | exhausted _ state' => rw [hstates _ _ _ state state']

theorem exists_ends
    (hanswers : ∀ n < text.length, e.considers text n = true → ∃ b, answers n b)
    (hstates : ∀ n ≤ text.length, ∃ s, states n s) :
    ∃ scan, e.Ends resolved text answers states scan := by
  classical
  have hno : ∀ n < text.length, (e.considers text n && decide (answers n true)) = false →
      e.considers text n = true → answers n false := fun n hn hstop hconsidered => by
    obtain ⟨b, hb⟩ := hanswers n hn hconsidered
    cases b with
    | false => exact hb
    | true => simp [hconsidered, hb] at hstop
  rcases exists_first (fun n => e.considers text n && decide (answers n true)) text.length with
    ⟨n, hn, hstop, hfirst⟩ | hnever
  · obtain ⟨hconsidered, hholds⟩ := Bool.and_eq_true_iff.1 hstop
    obtain ⟨s, hs⟩ := hstates (n + 1) hn
    exact ⟨_, .stopped hn hconsidered (of_decide_eq_true hholds)
      (fun i hi => hno i (Nat.lt_trans hi hn) (hfirst i hi)) hs⟩
  · obtain ⟨s, hs⟩ := hstates text.length (Nat.le_refl _)
    exact ⟨_, .exhausted (fun i hi => hno i hi (hnever i hi)) hs⟩

theorem scanFrom_ends (e : Engine) (resolved : Bool) (stop : StopCondition σ) (s : σ)
    (text : List Char) :
    e.Ends resolved text (fun n b => e.answerAt resolved stop s text n = b)
      (fun n s' => e.stateAt resolved stop s text n = s')
      (e.scanFrom resolved stop [] 0 s text) := by
  have hscan : e.scanFrom resolved stop [] 0 s text = e.scanRest resolved stop s text 0 := by
    simp [scanRest, stateAt]
  rw [hscan]
  rcases exists_first (fun n => e.considers text n && e.answerAt resolved stop s text n)
    text.length with ⟨n, hn, hstop, hfirst⟩ | hnever
  · obtain ⟨hconsidered, hholds⟩ := Bool.and_eq_true_iff.1 hstop
    have hbefore : ∀ i < n, e.considers text i = true →
        e.answerAt resolved stop s text i = false :=
      fun i hi hc => by simpa [hc] using hfirst i hi
    rw [scanRest_passed (Nat.le_of_lt hn) hbefore, scanRest_step hn, if_pos hstop]
    exact .stopped hn hconsidered hholds hbefore rfl
  · have hbefore : ∀ i < text.length, e.considers text i = true →
        e.answerAt resolved stop s text i = false :=
      fun i hi hc => by simpa [hc] using hnever i hi
    rw [scanRest_passed (Nat.le_refl _) hbefore, scanRest, List.drop_length]
    exact .exhausted hbefore rfl

theorem length_scanResolved_le (e : Engine) (stop : StopCondition σ) (s : σ) (text : List Char) :
    (e.scanResolved stop s text).length ≤ text.length :=
  (e.scanFrom_ends true stop s text).length_le

theorem length_scanRaw_le (e : Engine) (stop : StopCondition σ) (s : σ) (text : List Char) :
    (e.scanRaw stop s text).length ≤ text.length := (e.scanFrom_ends false stop s text).length_le

theorem scanRaw_text_eq_take (e : Engine) (stop : StopCondition σ) (s : σ) (text : List Char) :
    (e.scanRaw stop s text).text = text.take (e.scanRaw stop s text).length :=
  (e.scanFrom_ends false stop s text).text_eq_take

end Ends

/-! ## Conditions that may fail to answer -/

section Trying

variable {τ : Type}

/-- Without an answer the scan ends at once, and says so by its state. -/
def trying (attempt : List Char → List Char → τ → Option (Bool × τ)) : StopCondition (Option τ) :=
  fun sofar ahead state =>
    match state.bind (attempt sofar ahead) with
    | some (b, t) => (b, some t)
    | none => (true, none)

variable (e : Engine) (resolved : Bool) (text : List Char)
  (attempt : Nat → List Char → List Char → τ → Option (Bool × τ)) (t₀ : τ)

inductive Threaded : Nat → τ → Prop
  | start : Threaded 0 t₀
  | skipped {n : Nat} {t : τ} (before : Threaded n t) (h : e.considers text n = false) :
      Threaded (n + 1) t
  | asked {n fuel : Nat} {t t' : τ} {b : Bool} (before : Threaded n t)
      (h : e.considers text n = true)
      (answer : attempt fuel (e.gathered resolved text n) (text.drop n) t = some (b, t')) :
      Threaded (n + 1) t'

def Answers (n : Nat) (b : Bool) : Prop :=
  ∃ t fuel t', e.Threaded resolved text attempt t₀ n t ∧
    attempt fuel (e.gathered resolved text n) (text.drop n) t = some (b, t')

variable {e resolved text attempt t₀}

private theorem stateAt_trying_succ {fuel n : Nat} {t' : τ} :
    e.stateAt resolved (trying (attempt fuel)) (some t₀) text (n + 1) = some t' ↔
      ∃ t, e.stateAt resolved (trying (attempt fuel)) (some t₀) text n = some t ∧
        (e.considers text n = false ∧ t = t' ∨ e.considers text n = true ∧
          attempt fuel (e.gathered resolved text n) (text.drop n) t =
            some (e.answerAt resolved (trying (attempt fuel)) (some t₀) text n, t')) := by
  simp only [stateAt, answerAt, trying]
  cases e.stateAt resolved (trying (attempt fuel)) (some t₀) text n with
  | none => cases e.considers text n <;> simp
  | some t =>
      simp only [Option.bind_some, Option.some.injEq, exists_eq_left']
      cases e.considers text n with
      | false => simp
      | true =>
          cases attempt fuel (e.gathered resolved text n) (text.drop n) t with
          | none => simp
          | some answer => simp [Prod.ext_iff]

private theorem exists_stateAt_of_le {fuel m n : Nat} (hle : m ≤ n) {t : τ}
    (h : e.stateAt resolved (trying (attempt fuel)) (some t₀) text n = some t) :
    ∃ t', e.stateAt resolved (trying (attempt fuel)) (some t₀) text m = some t' := by
  induction n generalizing t with
  | zero => exact ⟨t, Nat.le_zero.1 hle ▸ h⟩
  | succ n ih =>
      rcases Nat.le_or_eq_of_le_succ hle with hlt | rfl
      · obtain ⟨before, hbefore, -⟩ := stateAt_trying_succ.1 h
        exact ih hlt hbefore
      · exact ⟨t, h⟩

private theorem threaded_of_stateAt {fuel n : Nat} {t : τ}
    (h : e.stateAt resolved (trying (attempt fuel)) (some t₀) text n = some t) :
    e.Threaded resolved text attempt t₀ n t := by
  induction n generalizing t with
  | zero =>
      obtain rfl := Option.some.inj h
      exact .start
  | succ n ih =>
      obtain ⟨before, hbefore, ⟨hskipped, rfl⟩ | ⟨hasked, hanswer⟩⟩ := stateAt_trying_succ.1 h
      · exact .skipped (ih hbefore) hskipped
      · exact .asked (ih hbefore) hasked hanswer

private theorem answers_of_stateAt {fuel n : Nat} {t : τ} (hconsidered : e.considers text n = true)
    (h : e.stateAt resolved (trying (attempt fuel)) (some t₀) text (n + 1) = some t) :
    e.Answers resolved text attempt t₀ n
      (e.answerAt resolved (trying (attempt fuel)) (some t₀) text n) := by
  obtain ⟨before, hbefore, ⟨hskipped, -⟩ | ⟨-, hanswer⟩⟩ := stateAt_trying_succ.1 h
  · rw [hconsidered] at hskipped
    cases hskipped
  · exact ⟨before, fuel, t, threaded_of_stateAt hbefore, hanswer⟩

variable (hsteady : ∀ sofar ahead t, Steady fun fuel => attempt fuel sofar ahead t)

include hsteady

private theorem exists_fuel_of_threaded {n : Nat} {t : τ}
    (h : e.Threaded resolved text attempt t₀ n t) : ∃ fuel, ∀ fuel', fuel ≤ fuel' →
      e.stateAt resolved (trying (attempt fuel')) (some t₀) text n = some t := by
  induction h with
  | start => exact ⟨0, fun _ _ => rfl⟩
  | @skipped n t _ hskipped ih =>
      obtain ⟨fuel, hfuel⟩ := ih
      exact ⟨fuel, fun fuel' hle =>
        stateAt_trying_succ.2 ⟨t, hfuel fuel' hle, .inl ⟨hskipped, rfl⟩⟩⟩
  | @asked n fuel t t' b _ hasked hanswer ih =>
      obtain ⟨enough, henough⟩ := ih
      refine ⟨max enough fuel, fun fuel' hle => ?_⟩
      have hbefore := henough fuel' (Nat.le_trans (Nat.le_max_left _ _) hle)
      have hmore := hsteady _ _ _ (Nat.le_trans (Nat.le_max_right _ _) hle) _ hanswer
      simp [stateAt, hasked, hbefore, trying, hmore]

theorem threaded_unique {n : Nat} {t t' : τ} (h : e.Threaded resolved text attempt t₀ n t)
    (h' : e.Threaded resolved text attempt t₀ n t') : t = t' := by
  obtain ⟨fuel, hfuel⟩ := exists_fuel_of_threaded hsteady h
  obtain ⟨fuel', hfuel'⟩ := exists_fuel_of_threaded hsteady h'
  have hsame := (hfuel _ (Nat.le_max_left fuel fuel')).symm.trans
    (hfuel' _ (Nat.le_max_right fuel fuel'))
  exact Option.some.inj hsame

private theorem answers_unique {n : Nat} (h : e.Answers resolved text attempt t₀ n true) :
    ¬e.Answers resolved text attempt t₀ n false := by
  rintro ⟨t', fuel', after', hthreaded', hanswer'⟩
  obtain ⟨t, fuel, after, hthreaded, hanswer⟩ := h
  obtain rfl := threaded_unique hsteady hthreaded hthreaded'
  cases (hsteady _ _ t).unique ⟨fuel, hanswer⟩ ⟨fuel', hanswer'⟩

omit hsteady in
private theorem ends_of_state_eq_some {fuel : Nat} {t : τ}
    (h : (e.scanFrom resolved (trying (attempt fuel)) [] 0 (some t₀) text).state = some t) :
    e.Ends resolved text (e.Answers resolved text attempt t₀)
      (e.Threaded resolved text attempt t₀)
      ((e.scanFrom resolved (trying (attempt fuel)) [] 0 (some t₀) text).withState t) := by
  have hends := e.scanFrom_ends resolved (trying (attempt fuel)) (some t₀) text
  generalize e.scanFrom resolved (trying (attempt fuel)) [] 0 (some t₀) text = scan at hends h ⊢
  cases hends with
  | @stopped n s inside considered holds first state =>
      obtain rfl : s = some t := h
      have hanswers : ∀ i ≤ n, e.considers text i = true → e.Answers resolved text attempt t₀ i
          (e.answerAt resolved (trying (attempt fuel)) (some t₀) text i) := fun i hi hc => by
        obtain ⟨after, hafter⟩ := exists_stateAt_of_le (Nat.succ_le_succ hi) state
        exact answers_of_stateAt hc hafter
      exact .stopped inside considered (holds ▸ hanswers n (Nat.le_refl n) considered)
        (fun i hi hc => first i hi hc ▸ hanswers i (Nat.le_of_lt hi) hc)
        (threaded_of_stateAt state)
  | @exhausted s never state =>
      obtain rfl : s = some t := h
      refine .exhausted (fun i hi hc => ?_) (threaded_of_stateAt state)
      obtain ⟨after, hafter⟩ := exists_stateAt_of_le (Nat.succ_le_of_lt hi) state
      exact never i hi hc ▸ answers_of_stateAt hc hafter

private theorem exists_state_of_ends {scan : Scan τ}
    (h : e.Ends resolved text (e.Answers resolved text attempt t₀)
      (e.Threaded resolved text attempt t₀) scan) :
    ∃ fuel t, (e.scanFrom resolved (trying (attempt fuel)) [] 0 (some t₀) text).state = some t := by
  cases h with
  | @stopped n s inside considered holds first state =>
      obtain ⟨fuel, hfuel⟩ := exists_fuel_of_threaded hsteady state
      have hstate := hfuel fuel (Nat.le_refl fuel)
      -- With so much fuel the condition still says yes here, so the scan comes no further.
      have hnot : e.answerAt resolved (trying (attempt fuel)) (some t₀) text n ≠ false :=
        fun hno => answers_unique hsteady holds (hno ▸ answers_of_stateAt considered hstate)
      have hends := e.scanFrom_ends resolved (trying (attempt fuel)) (some t₀) text
      refine ⟨fuel, ?_⟩
      generalize e.scanFrom resolved (trying (attempt fuel)) [] 0 (some t₀) text = found at hends ⊢
      cases hends with
      | @stopped m _ _ _ _ before state' =>
          have hle : m ≤ n := Nat.not_lt.1 fun hlt => hnot (before n hlt considered)
          obtain ⟨t, ht⟩ := exists_stateAt_of_le (Nat.succ_le_succ hle) hstate
          exact ⟨t, state'.symm.trans ht⟩
      | exhausted never' => exact absurd (never' n inside considered) hnot
  | exhausted never state =>
      obtain ⟨fuel, hfuel⟩ := exists_fuel_of_threaded hsteady state
      have hstate := hfuel fuel (Nat.le_refl fuel)
      have hends := e.scanFrom_ends resolved (trying (attempt fuel)) (some t₀) text
      refine ⟨fuel, ?_⟩
      generalize e.scanFrom resolved (trying (attempt fuel)) [] 0 (some t₀) text = found at hends ⊢
      cases hends with
      | stopped inside' _ _ _ state' =>
          obtain ⟨t, ht⟩ := exists_stateAt_of_le (Nat.succ_le_of_lt inside') hstate
          exact ⟨t, state'.symm.trans ht⟩
      | exhausted _ state' => exact ⟨_, state'.symm.trans hstate⟩

theorem scanFrom_trying_iff {scan : Scan τ} :
    (∃ fuel, (e.scanFrom resolved (trying (attempt fuel)) [] 0 (some t₀) text) =
        scan.withState (some scan.state)) ↔
      e.Ends resolved text (e.Answers resolved text attempt t₀)
        (e.Threaded resolved text attempt t₀) scan := by
  constructor
  · rintro ⟨fuel, h⟩
    have hends := ends_of_state_eq_some (congrArg Scan.state h)
    rwa [h] at hends
  · intro h
    obtain ⟨fuel, t, ht⟩ := exists_state_of_ends hsteady h
    have hsame := (ends_of_state_eq_some ht).unique h (fun n => answers_unique hsteady)
      (fun n _ _ => threaded_unique hsteady)
    refine ⟨fuel, ?_⟩
    rw [← hsame]
    simp only [Scan.withState, ← ht]

end Trying

end Engine

end TextGrammar.Escape
