import TextGrammar.Verdict

/-!
# Matchers

A matcher is tried at an offset.  It answers with an attempt, which carries a verdict and whatever
the matcher emits, and it may change a state that is passed from one attempt to the next.  Grammars
refer to themselves by name, so an evaluation need not end: a matcher answers nothing when it runs
out of fuel.

The combinators here are the ways in which matchers are put together, whatever they emit.
-/

namespace TextGrammar

structure Attempt (ε : Type) where
  emitted : List ε
  verdict : Verdict

namespace Attempt

variable {ε : Type}

def stop (a : Attempt ε) : Nat := a.verdict.stop

def isSuccessful (a : Attempt ε) : Bool := a.verdict.isSuccessful

def failed (v : Verdict) : Attempt ε := ⟨[], v⟩

def better (best : Option (Attempt ε)) (a : Attempt ε) : Option (Attempt ε) :=
  if a.isSuccessful then
    match best with
    | none => some a
    | some b => if b.stop < a.stop then some a else some b
  else best

/-- The first of the successful attempts that reach furthest. -/
def best (attempts : List (Attempt ε)) : Option (Attempt ε) := attempts.foldl better none

end Attempt

abbrev Matcher (σ ε : Type) := Nat → σ → Option (Attempt ε × σ)

inductive Ending where
  | finished
  | failed (v : Verdict)
  | stalled

/-- Successful attempts, each starting where the one before it stopped. -/
structure Run (ε : Type) where
  attempts : List (Attempt ε)
  stop : Nat
  ending : Ending

namespace Run

variable {ε : Type}

def cons (a : Attempt ε) (run : Run ε) : Run ε := { run with attempts := a :: run.attempts }

def emitted (run : Run ε) : List ε := run.attempts.flatMap Attempt.emitted

def verdicts (run : Run ε) : List Verdict := run.attempts.map Attempt.verdict

def toAttempt (run : Run ε) (further : List Verdict) : Attempt ε :=
  ⟨run.emitted, .composed "" run.stop (run.verdicts ++ further)⟩

end Run

namespace Matcher

variable {σ ε : Type}

def chain : List (Matcher σ ε) → Nat → σ → Option (Run ε × σ)
  | [], pos, s => some (⟨[], pos, .finished⟩, s)
  | m :: ms, pos, s => do
      let (a, s) ← m pos s
      if a.isSuccessful then
        let (run, s) ← chain ms a.stop s
        some (run.cons a, s)
      else some (⟨[], a.stop, .failed a.verdict⟩, s)

def sequence (ms : List (Matcher σ ε)) : Matcher σ ε := fun start s => do
  let (run, s) ← chain ms start s
  match run.ending with
  | .failed v =>
      some (.failed (.syntaxError "Sequence did not match" run.stop (run.verdicts ++ [v])), s)
  | _ => some (run.toAttempt [], s)

/-- All attempts at one offset; with `untilSuccess`, those behind a successful one are left out. -/
def attempts (untilSuccess : Bool) :
    List (Matcher σ ε) → Nat → σ → Option (List (Attempt ε) × σ)
  | [], _, s => some ([], s)
  | m :: ms, start, s => do
      let (a, s) ← m start s
      if untilSuccess && a.isSuccessful then some ([a], s)
      else
        let (as, s) ← attempts untilSuccess ms start s
        some (a :: as, s)

def choice (longest : Bool) (ms : List (Matcher σ ε)) : Matcher σ ε := fun start s => do
  let (as, s) ← attempts (!longest) ms start s
  match Attempt.best as with
  | some a => some (a, s)
  | none =>
      some (.failed (.syntaxError "No alternative matched" start (as.map Attempt.verdict)), s)

/-- What attempts at one offset have in common: they must all succeed and stop at one place. -/
def agreement (start : Nat) (verdicts : List Verdict) : Verdict :=
  if verdicts.any (!·.isSuccessful) then
    .syntaxError "Not all rules matched" start verdicts
  else
    let stop := (verdicts.head?.map Verdict.stop).getD start
    if verdicts.any (·.stop ≠ stop) then
      .syntaxError "Rules matched different lengths" start verdicts
    else .composed "" stop verdicts

def conjunction (ms : List (Matcher σ ε)) : Matcher σ ε := fun start s => do
  let (as, s) ← attempts false ms start s
  some (⟨[], agreement start (as.map Attempt.verdict)⟩, s)

def optional (m : Matcher σ ε) : Matcher σ ε := fun start s => do
  let (a, s) ← m start s
  if a.isSuccessful then some (⟨a.emitted, .composed "" a.stop [a.verdict]⟩, s)
  else some (⟨[], .composed "" start [a.verdict.setAside]⟩, s)

def rounds (m : Matcher σ ε) : Nat → Nat → σ → Option (Run ε × σ)
  | 0, _, _ => none
  | fuel + 1, pos, s => do
      let (a, s) ← m pos s
      if !a.isSuccessful then some (⟨[], pos, .failed a.verdict⟩, s)
      else if a.stop = pos then some (⟨[a], pos, .stalled⟩, s)
      else
        let (run, s) ← rounds m fuel a.stop s
        some (run.cons a, s)

/-- The attempt that ends the repetition is kept as a part set aside. -/
def repeating (fuel : Nat) (atLeastOne : Bool) (m : Matcher σ ε) : Matcher σ ε := fun start s => do
  let (run, s) ← rounds m fuel start s
  match run.ending with
  | .failed v =>
      if atLeastOne && run.attempts.isEmpty then
        some (.failed (.syntaxError "Expected at least one repetition" start [v]), s)
      else some (run.toAttempt [v.setAside], s)
  | _ => some (run.toAttempt [], s)

def roundsUntil (stop : Nat → σ → Option (Bool × σ)) (m : Matcher σ ε) :
    Nat → Nat → σ → Option (Run ε × σ)
  | 0, _, _ => none
  | fuel + 1, pos, s => do
      let (stopped, s) ← stop pos s
      if stopped then some (⟨[], pos, .finished⟩, s)
      else
        let (a, s) ← m pos s
        if !a.isSuccessful then some (⟨[], a.stop, .failed a.verdict⟩, s)
        else if a.stop = pos then some (⟨[a], pos, .stalled⟩, s)
        else
          let (run, s) ← roundsUntil stop m fuel a.stop s
          some (run.cons a, s)

def nonGreedy (fuel : Nat) (atLeastOne : Bool) (stop : Nat → σ → Option (Bool × σ))
    (m : Matcher σ ε) : Matcher σ ε := fun start s => do
  let (run, s) ← roundsUntil stop m fuel start s
  match run.ending with
  | .finished =>
      if atLeastOne && run.attempts.isEmpty then
        some (.failed
          (.parseError "Expected at least one repetition before the stop rule" start), s)
      else some (run.toAttempt [], s)
  | .failed v =>
      some (.failed (.syntaxError "Repetition failed before the stop rule matched" run.stop
        (run.verdicts ++ [v])), s)
  | .stalled =>
      some (.failed (.syntaxError "Repetition made no progress before the stop rule matched"
        run.stop run.verdicts), s)

def onSuccess (m : Matcher σ ε) (update : Nat → Attempt ε → σ → σ) : Matcher σ ε :=
  fun start s => do
  let (a, s) ← m start s
  some (a, if a.isSuccessful then update start a s else s)

def before (update : σ → σ) (m : Matcher σ ε) : Matcher σ ε := fun start s => m start (update s)

/-- A matcher that a name stands for; without one the grammar cannot be evaluated. -/
def resolved (target : σ → Except String (Matcher σ ε)) : Matcher σ ε := fun start s =>
  match target s with
  | .ok m => m start s
  | .error message => some (.failed (.unknownError message start), s)

end Matcher

end TextGrammar
