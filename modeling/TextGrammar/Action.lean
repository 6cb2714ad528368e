import TextGrammar.Rule
import TextGrammar.Token

/-!
# Actions

An action matches like a rule and emits elements of a token tree on the way.  What an action emits
can be wrapped into a token or discarded.
-/

namespace TextGrammar

inductive Action where
  /-- Emits the text that a rule matched, unless it is empty. -/
  | literal (rule : Rule)
  | wrap (name : TokenName) (action : Action)
  | consume (action : Action)
  | sequence (actions : List Action)
  | or (longest : Bool) (alternatives : List Action)
  | optional (action : Action)
  | repeating (action : Action) (atLeastOne : Bool)
  | nonGreedy (action : Action) (stop : Rule) (atLeastOne : Bool)
  | set (name : String) (action : Action)
  | setAndUse (name : String) (action : Action)
  | lazy (name : String)

namespace Action

def wrapRule (name : TokenName) (rule : Rule) : Action := .wrap name (.literal rule)

def consumeRule (rule : Rule) : Action := .consume (.literal rule)

def sequenceNamed (name : TokenName) (actions : List Action) : Action :=
  .sequence (actions.map (.wrap name))

def list (element separator : Action) : Action :=
  .sequence [element, .repeating (.sequence [separator, element]) false]

def name? (name : String) : Except GrammarError TokenName :=
  (TokenName.ofString? name).mapError fun _ => .invalidName name

end Action

end TextGrammar
