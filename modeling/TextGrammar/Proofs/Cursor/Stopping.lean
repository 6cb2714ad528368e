import TextGrammar.Cursor
import TextGrammar.Proofs.Escape.Stopping

/-!
# Where scans under an engine leave a cursor

Each of these scans ends at the first character that the engine considers and at which its stop
condition holds, with what was read in front of it and the engine that has read it.  Where there is
none, the scan ends at the end of the text, and a resolved one keeps an unfinished escape.
-/

namespace TextGrammar.Cursor

open Escape Text

/-- How a scan ends whose stop condition answers as `answers` says, at a character behind so many
others ahead of the cursor.  `contexts` says what the context of the cursor is then. -/
inductive StopsFirst (c : Cursor) (e : Engine) (resolved : Bool) (answers : Nat → Bool → Prop)
    (contexts : Nat → Context → Prop) : List Char × Engine × Cursor → Prop
  | stopped {n : Nat} {k : Context} (inside : n < c.ahead.length)
      (considered : e.considers c.ahead n = true) (holds : answers n true)
      (first : ∀ i < n, e.considers c.ahead i = true → answers i false)
      (context : contexts (n + 1) k) :
      StopsFirst c e resolved answers contexts
        (e.gathered resolved c.ahead n, e.behind c.ahead (n + 1),
          { c with index := c.index + n, context := k })
  | exhausted {k : Context}
      (never : ∀ i < c.ahead.length, e.considers c.ahead i = true → answers i false)
      (context : contexts c.ahead.length k) :
      StopsFirst c e resolved answers contexts
        (e.gathered resolved c.ahead c.ahead.length ++
            (if resolved then (e.behind c.ahead c.ahead.length).trailing else []),
          e.behind c.ahead c.ahead.length, { c with index := c.length, context := k })

def outcome (c : Cursor) (resolved : Bool) (scan : Scan Context) : List Char × Engine × Cursor :=
  (scan.text ++ (if resolved then scan.engine.trailing else []), scan.engine,
    { c with index := c.index + scan.length, context := scan.state })

section StopsFirst

variable {c : Cursor} {e : Engine} {resolved : Bool} {answers : Nat → Bool → Prop}
  {contexts : Nat → Context → Prop} {r r' : List Char × Engine × Cursor}

private theorem stopsFirst_iff (hc : c.index ≤ c.length) :
    c.StopsFirst e resolved answers contexts r ↔
      ∃ scan, e.Ends resolved c.ahead answers contexts scan ∧ c.outcome resolved scan = r := by
  have hend : c.index + c.ahead.length = c.length := by
    simp only [ahead, length, List.length_drop] at hc ⊢
    omega
  constructor
  · intro h
    cases h with
    | stopped inside considered holds first context =>
        refine ⟨_, .stopped inside considered holds first context, ?_⟩
        simp [outcome, Engine.trailing_of_shouldConsider considered]
    | exhausted never context =>
        refine ⟨_, .exhausted never context, ?_⟩
        simp [outcome, hend]
  · rintro ⟨scan, hends, rfl⟩
    cases hends with
    | @stopped n k inside considered holds first context =>
        have hflush : (if resolved then (e.behind c.ahead (n + 1)).trailing else []) = [] := by
          simp [Engine.trailing_of_shouldConsider considered]
        simp only [outcome, hflush, List.append_nil]
        exact .stopped inside considered holds first context
    | exhausted never context =>
        simp only [outcome, hend]
        exact .exhausted never context

theorem StopsFirst.unique (hc : c.index ≤ c.length)
    (h : c.StopsFirst e resolved answers contexts r)
    (h' : c.StopsFirst e resolved answers contexts r')
    (hanswers : ∀ n, answers n true → ¬answers n false)
    (hcontexts : ∀ n k k', contexts n k → contexts n k' → k = k') : r = r' := by
  obtain ⟨scan, hscan, rfl⟩ := (stopsFirst_iff hc).1 h
  obtain ⟨scan', hscan', rfl⟩ := (stopsFirst_iff hc).1 h'
  rw [hscan.unique hscan' hanswers hcontexts]

private theorem exists_stopsFirst (hc : c.index ≤ c.length)
    (hanswers : ∀ n < c.ahead.length, e.considers c.ahead n = true → ∃ b, answers n b)
    (hcontexts : ∀ n ≤ c.ahead.length, ∃ k, contexts n k) :
    ∃ r, c.StopsFirst e resolved answers contexts r := by
  obtain ⟨scan, hscan⟩ : ∃ scan, e.Ends resolved c.ahead answers contexts scan :=
    Engine.exists_ends hanswers hcontexts
  exact ⟨_, (stopsFirst_iff hc).2 ⟨scan, hscan, rfl⟩⟩

end StopsFirst

variable (c : Cursor) (e : Engine)

def PredicateAnswers (p : Char → Bool) (n : Nat) (b : Bool) : Prop :=
  ∃ x, c.ahead[n]? = some x ∧ p x = b

def CandidateAnswers (p : List Char → Bool) (n : Nat) (b : Bool) : Prop :=
  c.PredicateAnswers (fun x => p (e.gathered true c.ahead n ++ [x])) n b

def Unchanged (_ : Nat) (k : Context) : Prop := k = c.context

variable {c e}

private theorem predicateAnswers_of_answerAt {resolved : Bool} {stop : StopCondition Unit}
    {p : List Char → Char → Bool}
    (hstop : ∀ sofar x rest, (stop sofar (x :: rest) ()).1 = p sofar x)
    {n : Nat} {b : Bool} (hn : n < c.ahead.length)
    (h : e.answerAt resolved stop () c.ahead n = b) :
    c.PredicateAnswers (p (e.gathered resolved c.ahead n)) n b := by
  refine ⟨c.ahead[n], List.getElem?_eq_getElem hn, ?_⟩
  rw [Engine.answerAt, List.drop_eq_getElem_cons hn, hstop] at h
  exact h

private theorem predicateAnswers_unique {p : Char → Bool} {n : Nat}
    (h : c.PredicateAnswers p n true) : ¬c.PredicateAnswers p n false := by
  obtain ⟨x, hx, hyes⟩ := h
  rintro ⟨y, hy, hno⟩
  obtain rfl : x = y := Option.some.inj (hx.symm.trans hy)
  exact Bool.noConfusion (hyes.symm.trans hno)

/-! ## Conditions on rules -/

def WholeMatchAnswers (c : Cursor) (e : Engine) (rule : Rule) (n : Nat) (b : Bool) : Prop :=
  ∃ x fuel v, c.ahead[n]? = some x ∧
    (Rule.completed rule).matchText fuel (e.gathered true c.ahead n ++ [x]) = some v ∧
    v.isSuccessful = b

inductive ContextBefore (c : Cursor) (e : Engine) (rule : Rule) : Nat → Context → Prop
  | start : ContextBefore c e rule 0 c.context
  | skipped {n : Nat} {k : Context} (before : ContextBefore c e rule n k)
      (h : e.considers c.ahead n = false) : ContextBefore c e rule (n + 1) k
  | tried {n fuel : Nat} {k k' : Context} {v : Verdict} (before : ContextBefore c e rule n k)
      (h : e.considers c.ahead n = true)
      (attempt : rule.matchAt fuel c.content (c.advance n).byteOffset k = some (v, k')) :
      ContextBefore c e rule (n + 1) k'

def MatchAnswers (c : Cursor) (e : Engine) (rule : Rule) (n : Nat) (b : Bool) : Prop :=
  ∃ k fuel v k', c.ContextBefore e rule n k ∧
    rule.matchAt fuel c.content (c.advance n).byteOffset k = some (v, k') ∧ v.isSuccessful = b

def wholeAttempt (rule : Rule) (fuel : Nat) (sofar ahead : List Char) (_ : Unit) :
    Option (Bool × Unit) :=
  (isCompleteMatch fuel rule (sofar ++ ahead.take 1)).map (·, ())

def matchAttempt (rule : Rule) (content : List Char) (fuel : Nat) (_ ahead : List Char)
    (k : Context) : Option (Bool × Context) :=
  (rule.matchAt fuel content (byteLength content - byteLength ahead) k).map
    fun (v, k) => (v.isSuccessful, k)

private theorem stopWhenMatched_eq_trying (fuel : Nat) (rule : Rule) :
    stopWhenMatched fuel rule = Engine.trying (wholeAttempt rule fuel) := by
  funext sofar ahead state
  cases state with
  | none => rfl
  | some _ =>
      simp only [stopWhenMatched, Engine.trying, wholeAttempt, Option.bind_some]
      cases isCompleteMatch fuel rule (sofar ++ ahead.take 1) <;> rfl

private theorem stopAtRule_eq_trying (fuel : Nat) (rule : Rule) (content : List Char) :
    stopAtRule fuel rule content = Engine.trying (matchAttempt rule content fuel) := by
  funext sofar ahead state
  cases state with
  | none => rfl
  | some k =>
      simp only [stopAtRule, Engine.trying, matchAttempt, Option.bind_some]
      cases rule.matchAt fuel content (byteLength content - byteLength ahead) k <;> rfl

private theorem wholeAttempt_eq_some_iff {rule : Rule} {fuel : Nat} {sofar ahead : List Char}
    {b : Bool} : wholeAttempt rule fuel sofar ahead () = some (b, ()) ↔
      ∃ v, (Rule.completed rule).matchText fuel (sofar ++ ahead.take 1) = some v ∧
        v.isSuccessful = b := by
  simp [wholeAttempt, isCompleteMatch]

private theorem matchAttempt_eq_some_iff {rule : Rule} {content sofar ahead : List Char}
    {fuel : Nat} {k k' : Context} {b : Bool} :
    matchAttempt rule content fuel sofar ahead k = some (b, k') ↔
      ∃ v, rule.matchAt fuel content (byteLength content - byteLength ahead) k = some (v, k') ∧
        v.isSuccessful = b := by
  simp [matchAttempt]

theorem isCompleteMatch_steady (rule : Rule) (text : List Char) :
    Steady fun fuel => isCompleteMatch fuel rule text :=
  ((rule.completed.matchAt_steady text 0 {}).map _).map _

private theorem wholeAttempt_steady (rule : Rule) (sofar ahead : List Char) (u : Unit) :
    Steady fun fuel => wholeAttempt rule fuel sofar ahead u :=
  (isCompleteMatch_steady rule _).map _

theorem matchAttempt_steady (rule : Rule) (content sofar ahead : List Char) (k : Context) :
    Steady fun fuel => matchAttempt rule content fuel sofar ahead k :=
  (rule.matchAt_steady content _ k).map _

/-! ## Scans that try a rule -/

section Rules

variable {c : Cursor} {e : Engine} {rule : Rule} {r : List Char × Engine × Cursor}

private theorem byteLength_sub_ahead (c : Cursor) (n : Nat) :
    byteLength c.content - byteLength (c.ahead.drop n) = (c.advance n).byteOffset := by
  have hcut := congrArg byteLength (List.take_append_drop (c.index + n) c.content)
  rw [byteLength_append] at hcut
  simp only [ahead, List.drop_drop, byteOffset, advance]
  omega

private theorem readUntilRule_iff_scan {fuel : Nat} :
    c.readUntilRule fuel e rule = some r ↔
      ∃ scan : Scan Context,
        e.scanFrom true (Engine.trying (matchAttempt rule c.content fuel)) [] 0 (some c.context)
          c.ahead = scan.withState (some scan.state) ∧ c.outcome true scan = r := by
  simp only [readUntilRule, Engine.scanResolved, stopAtRule_eq_trying]
  rw [Scan.map_state_eq_some_iff]
  refine exists_congr fun scan => and_congr_right fun hscan => ?_
  rw [hscan]
  rfl

private theorem readUntilAccumulatedRule_iff_scan {fuel : Nat} :
    c.readUntilAccumulatedRule fuel e rule = some r ↔
      ∃ scan : Scan Unit,
        e.scanFrom true (Engine.trying (wholeAttempt rule fuel)) [] 0 (some ()) c.ahead =
          scan.withState (some scan.state) ∧ c.outcome true (scan.withState c.context) = r := by
  simp only [readUntilAccumulatedRule, Engine.scanResolved, stopWhenMatched_eq_trying]
  rw [Scan.map_state_eq_some_iff]
  refine exists_congr fun scan => and_congr_right fun hscan => ?_
  rw [hscan]
  rfl

theorem threaded_iff_contextBefore {n : Nat} {k : Context} :
    e.Threaded true c.ahead (matchAttempt rule c.content) c.context n k ↔
      c.ContextBefore e rule n k := by
  constructor
  · intro h
    induction h with
    | start => exact .start
    | skipped _ hskipped ih => exact .skipped ih hskipped
    | asked _ hasked hanswer ih =>
        obtain ⟨v, hv, -⟩ := matchAttempt_eq_some_iff.1 hanswer
        exact .tried ih hasked (byteLength_sub_ahead c _ ▸ hv)
  · intro h
    induction h with
    | start => exact .start
    | skipped _ hskipped ih => exact .skipped ih hskipped
    | tried _ htried hattempt ih =>
        rw [← byteLength_sub_ahead] at hattempt
        exact .asked ih htried (matchAttempt_eq_some_iff.2 ⟨_, hattempt, rfl⟩)

private theorem answers_iff_matchAnswers {n : Nat} {b : Bool} :
    e.Answers true c.ahead (matchAttempt rule c.content) c.context n b ↔
      c.MatchAnswers e rule n b := by
  simp only [Engine.Answers, MatchAnswers, threaded_iff_contextBefore, matchAttempt_eq_some_iff,
    byteLength_sub_ahead]
  constructor
  · rintro ⟨k, fuel, k', hk, v, hv, hb⟩
    exact ⟨k, fuel, v, k', hk, hv, hb⟩
  · rintro ⟨k, fuel, v, k', hk, hv, hb⟩
    exact ⟨k, fuel, k', hk, v, hv, hb⟩

theorem readUntilRule_iff (hc : c.index ≤ c.length) :
    (∃ fuel, c.readUntilRule fuel e rule = some r) ↔
      c.StopsFirst e true (c.MatchAnswers e rule) (c.ContextBefore e rule) r := by
  have hanswers : e.Answers true c.ahead (matchAttempt rule c.content) c.context =
      c.MatchAnswers e rule := by
    funext n b
    exact propext answers_iff_matchAnswers
  have hcontexts : e.Threaded true c.ahead (matchAttempt rule c.content) c.context =
      c.ContextBefore e rule := by
    funext n k
    exact propext threaded_iff_contextBefore
  rw [stopsFirst_iff hc, ← hanswers, ← hcontexts]
  simp only [readUntilRule_iff_scan, ← Engine.scanFrom_trying_iff (matchAttempt_steady rule _)]
  constructor
  · rintro ⟨fuel, scan, hscan, hr⟩
    exact ⟨scan, ⟨fuel, hscan⟩, hr⟩
  · rintro ⟨scan, ⟨fuel, hscan⟩, hr⟩
    exact ⟨fuel, scan, hscan, hr⟩

private theorem exists_contextBefore
    (h : ∀ i < c.ahead.length, e.considers c.ahead i = true → ∃ b, c.MatchAnswers e rule i b)
    {n : Nat} (hn : n ≤ c.ahead.length) : ∃ k, c.ContextBefore e rule n k := by
  induction n with
  | zero => exact ⟨c.context, .start⟩
  | succ n ih =>
      cases hconsidered : e.considers c.ahead n with
      | false =>
          obtain ⟨k, hk⟩ := ih (Nat.le_of_succ_le hn)
          exact ⟨k, .skipped hk hconsidered⟩
      | true =>
          obtain ⟨b, k, fuel, v, k', hk, hattempt, -⟩ := h n hn hconsidered
          exact ⟨k', .tried hk hconsidered hattempt⟩

private theorem exists_readUntilRule (hc : c.index ≤ c.length)
    (h : ∀ n < c.ahead.length, e.considers c.ahead n = true → ∃ b, c.MatchAnswers e rule n b) :
    ∃ fuel r, c.readUntilRule fuel e rule = some r := by
  obtain ⟨r, hr⟩ : ∃ r, c.StopsFirst e true (c.MatchAnswers e rule) (c.ContextBefore e rule) r :=
    exists_stopsFirst hc h fun _ hn => exists_contextBefore h hn
  obtain ⟨fuel, hread⟩ := (readUntilRule_iff hc).2 hr
  exact ⟨fuel, r, hread⟩

private theorem wholeMatchAnswers_iff {n : Nat} {b : Bool} (hn : n < c.ahead.length) :
    c.WholeMatchAnswers e rule n b ↔
      ∃ fuel, wholeAttempt rule fuel (e.gathered true c.ahead n) (c.ahead.drop n) () =
        some (b, ()) := by
  simp only [WholeMatchAnswers, wholeAttempt_eq_some_iff, List.drop_eq_getElem_cons hn,
    List.getElem?_eq_getElem hn, Option.some.injEq, List.take_succ_cons, List.take_zero]
  constructor
  · rintro ⟨x, fuel, v, rfl, hv, hb⟩
    exact ⟨fuel, v, hv, hb⟩
  · rintro ⟨fuel, v, hv, hb⟩
    exact ⟨_, fuel, v, rfl, hv, hb⟩

private theorem threaded_of_wholeMatchAnswers {n : Nat} (hn : n ≤ c.ahead.length)
    (h : ∀ i < n, e.considers c.ahead i = true → ∃ b, c.WholeMatchAnswers e rule i b) :
    e.Threaded true c.ahead (wholeAttempt rule) () n () := by
  induction n with
  | zero => exact .start
  | succ n ih =>
      have hbefore := ih (Nat.le_of_succ_le hn) fun i hi => h i (Nat.lt_succ_of_lt hi)
      cases hconsidered : e.considers c.ahead n with
      | false => exact .skipped hbefore hconsidered
      | true =>
          obtain ⟨b, hb⟩ := h n (Nat.lt_succ_self n) hconsidered
          obtain ⟨fuel, hattempt⟩ := (wholeMatchAnswers_iff hn).1 hb
          exact .asked hbefore hconsidered hattempt

private theorem answers_of_wholeMatchAnswers {n : Nat} {b : Bool} (hn : n < c.ahead.length)
    (h : ∀ i < n, e.considers c.ahead i = true → ∃ b, c.WholeMatchAnswers e rule i b)
    (hb : c.WholeMatchAnswers e rule n b) :
    e.Answers true c.ahead (wholeAttempt rule) () n b := by
  obtain ⟨fuel, hattempt⟩ := (wholeMatchAnswers_iff hn).1 hb
  exact ⟨(), fuel, (), threaded_of_wholeMatchAnswers (Nat.le_of_lt hn) h, hattempt⟩

private theorem ends_wholeAttempt {scan : Scan Context}
    (h : e.Ends true c.ahead (c.WholeMatchAnswers e rule) c.Unchanged scan) :
    e.Ends true c.ahead (e.Answers true c.ahead (wholeAttempt rule) ())
      (e.Threaded true c.ahead (wholeAttempt rule) ()) (scan.withState ()) := by
  cases h with
  | @stopped n k inside considered holds first context =>
      have hbefore : ∀ i ≤ n, e.considers c.ahead i = true →
          ∃ b, c.WholeMatchAnswers e rule i b := fun i hi hconsidered => by
        rcases Nat.eq_or_lt_of_le hi with rfl | hlt
        · exact ⟨true, holds⟩
        · exact ⟨false, first i hlt hconsidered⟩
      have hanswers : ∀ i b, i ≤ n → c.WholeMatchAnswers e rule i b →
          e.Answers true c.ahead (wholeAttempt rule) () i b := fun i b hi =>
        answers_of_wholeMatchAnswers (Nat.lt_of_le_of_lt hi inside)
          fun j hj => hbefore j (Nat.le_trans (Nat.le_of_lt hj) hi)
      exact .stopped inside considered (hanswers n true (Nat.le_refl n) holds)
        (fun i hi hconsidered => hanswers i false (Nat.le_of_lt hi) (first i hi hconsidered))
        (threaded_of_wholeMatchAnswers inside fun i hi => hbefore i (Nat.le_of_lt_succ hi))
  | @exhausted k never context =>
      have hbefore : ∀ i < c.ahead.length, e.considers c.ahead i = true →
          ∃ b, c.WholeMatchAnswers e rule i b :=
        fun i hi hconsidered => ⟨false, never i hi hconsidered⟩
      exact .exhausted
        (fun i hi hconsidered => answers_of_wholeMatchAnswers hi
          (fun j hj => hbefore j (Nat.lt_trans hj hi)) (never i hi hconsidered))
        (threaded_of_wholeMatchAnswers (Nat.le_refl _) hbefore)

private theorem readUntilAccumulatedRule_iff (hc : c.index ≤ c.length) :
    (∃ fuel, c.readUntilAccumulatedRule fuel e rule = some r) ↔
      c.StopsFirst e true (c.WholeMatchAnswers e rule) c.Unchanged r := by
  rw [stopsFirst_iff hc]
  constructor
  · rintro ⟨fuel, h⟩
    obtain ⟨scan, hscan, hr⟩ := readUntilAccumulatedRule_iff_scan.1 h
    have hends := (Engine.scanFrom_trying_iff (wholeAttempt_steady rule)).1 ⟨fuel, hscan⟩
    refine ⟨scan.withState c.context, hends.map (fun _ => c.context) ?_ fun _ _ _ => rfl, hr⟩
    rintro n b hn ⟨⟨⟩, fuel, ⟨⟩, -, hattempt⟩
    exact (wholeMatchAnswers_iff hn).2 ⟨fuel, hattempt⟩
  · rintro ⟨scan, hends, hr⟩
    have hstate : scan.state = c.context := by cases hends <;> assumption
    obtain ⟨fuel, hscan⟩ :=
      (Engine.scanFrom_trying_iff (wholeAttempt_steady rule)).2 (ends_wholeAttempt hends)
    refine ⟨fuel, readUntilAccumulatedRule_iff_scan.2 ⟨_, hscan, ?_⟩⟩
    rw [← hr, ← hstate]
    rfl

private theorem exists_readUntilAccumulatedRule (hc : c.index ≤ c.length)
    (h : ∀ n < c.ahead.length, e.considers c.ahead n = true →
      ∃ b, c.WholeMatchAnswers e rule n b) :
    ∃ fuel r, c.readUntilAccumulatedRule fuel e rule = some r := by
  obtain ⟨r, hr⟩ : ∃ r, c.StopsFirst e true (c.WholeMatchAnswers e rule) c.Unchanged r :=
    exists_stopsFirst hc h fun _ _ => ⟨c.context, rfl⟩
  obtain ⟨fuel, hread⟩ := (readUntilAccumulatedRule_iff hc).2 hr
  exact ⟨fuel, r, hread⟩

end Rules

/-! ## All scans -/

section Tests

variable {c : Cursor} {e : Engine} {resolved : Bool} {answers : Nat → Bool → Prop}

private theorem stopsFirst_scan (hc : c.index ≤ c.length) {stop : StopCondition Unit}
    (hanswers : ∀ n b, n < c.ahead.length →
      e.answerAt resolved stop () c.ahead n = b → answers n b) :
    c.StopsFirst e resolved answers c.Unchanged
      (c.outcome resolved ((e.scanFrom resolved stop [] 0 () c.ahead).withState c.context)) := by
  have hends := e.scanFrom_ends resolved stop () c.ahead
  exact (stopsFirst_iff hc).2 ⟨_, hends.map (fun _ => c.context) hanswers fun _ _ _ => rfl, rfl⟩

private theorem eq_iff_stopsFirst {r : List Char × Engine × Cursor} (hc : c.index ≤ c.length)
    (hanswers : ∀ n, answers n true → ¬answers n false)
    (h : c.StopsFirst e resolved answers c.Unchanged r) (r' : List Char × Engine × Cursor) :
    r = r' ↔ c.StopsFirst e resolved answers c.Unchanged r' := by
  constructor
  · rintro rfl
    exact h
  · intro h'
    exact h.unique hc h' hanswers fun n k k' hk hk' => hk.trans hk'.symm

end Tests

theorem gated_scans_stop_first (c : Cursor) (hc : c.index ≤ c.length) (e : Engine) :
    (∀ p r, c.readUntilConsidering e p = r ↔
      c.StopsFirst e true (c.PredicateAnswers p) c.Unchanged r) ∧
    (∀ p r, c.readRawUntilConsidering e p = r ↔
      c.StopsFirst e false (c.PredicateAnswers p) c.Unchanged r) ∧
    (∀ p r, c.readUntilAccumulatedConsidering e p = r ↔
      c.StopsFirst e true (c.CandidateAnswers e p) c.Unchanged r) ∧
    (∀ rule,
      (∀ r, (∃ fuel, c.readUntilRule fuel e rule = some r) ↔
        c.StopsFirst e true (c.MatchAnswers e rule) (c.ContextBefore e rule) r) ∧
      ((∀ n < c.ahead.length, e.considers c.ahead n = true → ∃ b, c.MatchAnswers e rule n b) →
        ∃ fuel r, c.readUntilRule fuel e rule = some r)) ∧
    (∀ rule,
      (∀ r, (∃ fuel, c.readUntilAccumulatedRule fuel e rule = some r) ↔
        c.StopsFirst e true (c.WholeMatchAnswers e rule) c.Unchanged r) ∧
      ((∀ n < c.ahead.length, e.considers c.ahead n = true → ∃ b, c.WholeMatchAnswers e rule n b) →
        ∃ fuel r, c.readUntilAccumulatedRule fuel e rule = some r)) := by
  refine ⟨fun p => ?_, fun p => ?_, fun p => ?_,
    fun rule => ⟨fun r => readUntilRule_iff hc, exists_readUntilRule hc⟩,
    fun rule => ⟨fun r => readUntilAccumulatedRule_iff hc, exists_readUntilAccumulatedRule hc⟩⟩
  · have hscan : c.StopsFirst e true (c.PredicateAnswers p) c.Unchanged
        (c.readUntilConsidering e p) :=
      stopsFirst_scan hc fun _ _ => predicateAnswers_of_answerAt (p := fun _ => p) fun _ _ _ => rfl
    exact eq_iff_stopsFirst hc (fun _ => predicateAnswers_unique) hscan
  · have hraw : c.readRawUntilConsidering e p = c.outcome false
        ((e.scanFrom false (Engine.stopAt p) [] 0 () c.ahead).withState c.context) := by
      simp [readRawUntilConsidering, scanned, Engine.scanRaw, outcome, Scan.withState, advance]
    have hscan : c.StopsFirst e false (c.PredicateAnswers p) c.Unchanged
        (c.readRawUntilConsidering e p) := by
      rw [hraw]
      exact stopsFirst_scan hc fun _ _ =>
        predicateAnswers_of_answerAt (p := fun _ => p) fun _ _ _ => rfl
    exact eq_iff_stopsFirst hc (fun _ => predicateAnswers_unique) hscan
  · have hscan : c.StopsFirst e true (c.CandidateAnswers e p) c.Unchanged
        (c.readUntilAccumulatedConsidering e p) :=
      stopsFirst_scan hc fun _ _ =>
        predicateAnswers_of_answerAt (p := fun sofar x => p (sofar ++ [x])) fun _ _ _ => rfl
    exact eq_iff_stopsFirst hc (fun _ => predicateAnswers_unique) hscan

/-- Three commas, of which one is quoted and one is escaped. -/
theorem gated_scans_stop_first_quoted :
    let c : Cursor := { content := ['é', '"', ',', '"', '\\', ',', ',', 'x'], index := 1 }
    let e : Engine := .start (.ofSettings [.trigger '\\', .quote '"'])
    c.index ≤ c.length ∧
    (c.readUntilConsidering e (· = ',')).2.2.index = 6 ∧
    c.StopsFirst e true (c.PredicateAnswers (· = ',')) c.Unchanged
      (c.readUntilConsidering e (· = ',')) ∧
    ∃ r, r.2.2.index = 6 ∧ (∃ fuel, c.readUntilRule fuel e (.literal ",x") = some r) ∧
      c.StopsFirst e true (c.MatchAnswers e (.literal ",x"))
        (c.ContextBefore e (.literal ",x")) r := by
  intro c e
  have hc : c.index ≤ c.length := by decide
  have hplace : (c.readUntilConsidering e (· = ',')).2.2.index = 6 := by decide +kernel
  obtain ⟨r, hr, hrplace⟩ : ∃ r, c.readUntilRule 2 e (.literal ",x") = some r ∧
      r.2.2.index = 6 := Option.map_eq_some_iff.1 (by decide +kernel)
  obtain ⟨htests, -, -, hrules, -⟩ := gated_scans_stop_first c hc e
  exact ⟨hc, hplace, (htests _ _).1 rfl, r, hrplace, ⟨2, hr⟩, ((hrules _).1 r).1 ⟨2, hr⟩⟩

end TextGrammar.Cursor
