import TextGrammar.Escape.Codec
import TextGrammar.Text.Character
import TextGrammar.Text.Display

/-!
# Token names and what can be wrong with token text

A name is written as it is.  It can be read back when escaping leaves it as it is, when it holds
none of the delimiters of a parameter block, and when it neither starts nor ends with a blank.
-/

namespace TextGrammar

inductive TokenError where
  | missingPrefix (found : String)
  | missingParameters (name : String)
  | unbalanced (text : String)
  | invalidParameter (param : String)
  | invalidName (name escaped : String)
  | unreadableName (name : String)
  | trailingCharacters (rest : String)
  deriving DecidableEq, Repr

def TokenError.message : TokenError → String
  | .missingPrefix found => "token \"" ++ found ++ "\" does not start with token prefix \"@\""
  | .missingParameters name => "token \"" ++ name ++ "\" has no parameter block"
  | .unbalanced text => "unbalanced parameter block: " ++ text
  | .invalidParameter param => "parameter is neither a token nor a quoted string: " ++ param
  | .invalidName name escaped =>
      "token names cannot require escaping (\"" ++ name ++ "\" was not equal to \"" ++ escaped ++
        "\")"
  | .unreadableName name =>
      "token name " ++ Text.quoted name.toList ++ " cannot be read back from its textual form"
  | .trailingCharacters rest => "characters left after token: " ++ rest

def isDelimiter (c : Char) : Bool := c = '(' || c = ')' || c = ','

def isReadableName (name : List Char) : Bool :=
  !name.any isDelimiter && Text.trim name = name

def isValidName (name : List Char) : Bool := Escape.isCanonical name && isReadableName name

structure TokenName where
  text : String
  valid : isValidName text.toList = true
  deriving DecidableEq

/-- Escaping is checked before delimiters and blanks. -/
def TokenName.ofString? (name : String) : Except TokenError TokenName :=
  if h : isValidName name.toList = true then .ok ⟨name, h⟩
  else if Escape.isCanonical name.toList then .error (.unreadableName name)
  else .error (.invalidName name (String.ofList (Escape.encode .standard name.toList)))

end TextGrammar
