import TextGrammar.Text.Display
import TextGrammar.Verdict

/-!
# Messages

A verdict is shown with one line for itself and one for each visible part, a part being indented
by four spaces more than the whole.  Parts set aside are visible only on demand.
-/

namespace TextGrammar

def Outcome.label : Outcome → String
  | .success => "SUCCESS"
  | .warning => "WARNING"
  | .parseError => "PARSE_ERROR"
  | .syntaxError => "SYNTAX_ERROR"
  | .unknownError => "UNKNOWN_ERROR"

namespace Verdict

def isVisible (debug : Bool) (part : Verdict) : Bool := debug || !part.aside

def headline (stop : Nat) (outcome : Outcome) (message : String) : String :=
  "[" ++ toString stop ++ "] " ++ outcome.label ++ ": " ++
    (if outcome.isSuccessful then "Successful" else "Unsuccessful") ++ ": " ++ message

mutual

def lines (debug : Bool) (depth : Nat) : Verdict → List String
  | ⟨stop, outcome, message, parts, _⟩ =>
      (String.ofList (Text.indentation depth) ++ headline stop outcome message ++
          (if parts.any (isVisible debug) then ". Caused by:" else "")) ::
        linesOfParts debug (depth + 1) parts

def linesOfParts (debug : Bool) (depth : Nat) : List Verdict → List String
  | [] => []
  | part :: parts =>
      (if isVisible debug part then lines debug depth part else []) ++
        linesOfParts debug depth parts

end

def render (debug : Bool) (v : Verdict) : String :=
  String.join ((v.lines debug 0).map (· ++ "\n"))

end Verdict

end TextGrammar
