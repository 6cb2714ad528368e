import TextGrammar.Dictionary
import TextGrammar.Rule

/-!
# Contexts

What names stand for while a rule is evaluated: the rule bound to a name, and the text matched last
under it.  Either can be there without the other.
-/

namespace TextGrammar

structure Context where
  rules : Dictionary String Rule := {}
  texts : Dictionary String String := {}

namespace Context

def bind (c : Context) (name : String) (rule : Rule) : Context :=
  { c with rules := c.rules.insert name rule }

def record (c : Context) (name text : String) : Context :=
  { c with texts := c.texts.insert name text }

def rule? (c : Context) (name : String) : Except GrammarError Rule :=
  match c.rules.find? name with
  | some rule => .ok rule
  | none => .error (.unbound name)

def captured? (c : Context) (name : String) : Option String := c.texts.find? name

def isBound (c : Context) (name : String) : Bool := (c.rules.find? name).isSome

end Context

end TextGrammar
