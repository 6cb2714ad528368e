/-!
# Verdicts

The verdict of an evaluation tells whether the input matched, up to which byte offset, and what the
parts of the evaluation said.  A part set aside records an attempt that had no influence on the
whole, such as the failed try of something optional.
-/

namespace TextGrammar

inductive Outcome where
  | success
  | warning
  | parseError
  | syntaxError
  /-- The grammar itself could not be evaluated. -/
  | unknownError
  deriving DecidableEq, Repr

def Outcome.isSuccessful : Outcome → Bool
  | .success | .warning => true
  | .parseError | .syntaxError | .unknownError => false

/-- On success `stop` is the offset behind the match, on failure the offset at which the attempt
was given up. -/
structure Verdict where
  stop : Nat
  outcome : Outcome
  message : String
  parts : List Verdict := []
  aside : Bool := false

namespace Verdict

def isSuccessful (v : Verdict) : Bool := v.outcome.isSuccessful

def matchedMessage : String := "Matched correctly"

def success (stop : Nat) : Verdict := ⟨stop, .success, matchedMessage, [], false⟩

def warning (message : String) (stop : Nat) : Verdict := ⟨stop, .warning, message, [], false⟩

def parseError (message : String) (stop : Nat) : Verdict := ⟨stop, .parseError, message, [], false⟩

def syntaxError (message : String) (stop : Nat) (parts : List Verdict) : Verdict :=
  ⟨stop, .syntaxError, message, parts, false⟩

def unknownError (message : String) (stop : Nat) : Verdict :=
  ⟨stop, .unknownError, message, [], false⟩

def isFailure (v : Verdict) : Bool := !v.isSuccessful && !v.aside

/-- A success unless a part that is not set aside failed. -/
def composed (error : String) (stop : Nat) (parts : List Verdict) : Verdict :=
  if parts.any isFailure then syntaxError error stop parts
  else ⟨stop, .success, matchedMessage, parts, false⟩

def setAside (v : Verdict) : Verdict := { v with aside := true }

mutual

def decEq : (v w : Verdict) → Decidable (v = w)
  | ⟨stop, outcome, message, parts, aside⟩, ⟨stop', outcome', message', parts', aside'⟩ =>
      if h : stop = stop' ∧ outcome = outcome' ∧ message = message' ∧ aside = aside' then
        match decEqList parts parts' with
        | isTrue hp => isTrue (by obtain ⟨rfl, rfl, rfl, rfl⟩ := h; rw [hp])
        | isFalse hp => isFalse (by rintro ⟨⟩; exact hp rfl)
      else isFalse (by rintro ⟨⟩; exact h ⟨rfl, rfl, rfl, rfl⟩)

def decEqList : (vs ws : List Verdict) → Decidable (vs = ws)
  | [], [] => isTrue rfl
  | [], _ :: _ => isFalse nofun
  | _ :: _, [] => isFalse nofun
  | v :: vs, w :: ws =>
      match decEq v w with
      | isFalse h => isFalse (by rintro ⟨⟩; exact h rfl)
      | isTrue h =>
          match decEqList vs ws with
          | isFalse hs => isFalse (by rintro ⟨⟩; exact hs rfl)
          | isTrue hs => isTrue (by rw [h, hs])

end

instance : DecidableEq Verdict := decEq

end Verdict

end TextGrammar
