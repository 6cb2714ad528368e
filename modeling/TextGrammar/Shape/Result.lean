import TextGrammar.Shape
import TextGrammar.Token
import TextGrammar.Verdict

/-!
# Shapes of results

The shapes of verdicts, of tokens, and of what reading a token yields.
-/

namespace TextGrammar

open Shape (tuple record text truth number)

def Outcome.shape : Outcome → Shape
  | .success => .atom "Success"
  | .warning => .atom "Warning"
  | .parseError => .atom "ParseError"
  | .syntaxError => .atom "SyntaxError"
  | .unknownError => .atom "UnknownError"

namespace Verdict

mutual

def shape : Verdict → Shape
  | ⟨stop, outcome, message, parts, aside⟩ =>
      record "MatchResult" [.labelled "end" (number stop), .labelled "outcome" outcome.shape,
        .labelled "message" (text message), .labelled "children" (.list (shapes parts)),
        .labelled "debug" (truth aside)]

def shapes : List Verdict → List Shape
  | [] => []
  | part :: parts => shape part :: shapes parts

end

end Verdict

namespace Element

def tokenShape (name : TokenName) (elements : List Shape) : Shape :=
  record "Token" [.labelled "name" (Shape.text name.text), .labelled "elements" (.list elements)]

mutual

def shape : Element → Shape
  | .text content => tuple "Text" [Shape.text content]
  | .node name elements => tuple "Token" [tokenShape name (shapes elements)]

def shapes : List Element → List Shape
  | [] => []
  | e :: es => shape e :: shapes es

end

end Element

def Token.shape (t : Token) : Shape := Element.tokenShape t.name (Element.shapes t.elements)

def TokenError.shape : TokenError → Shape
  | .missingPrefix found => record "MissingPrefix" [.labelled "found" (text found)]
  | .missingParameters name => record "MissingParameters" [.labelled "name" (text name)]
  | .unbalanced content => record "Unbalanced" [.labelled "text" (text content)]
  | .invalidParameter param => record "InvalidParameter" [.labelled "param" (text param)]
  | .invalidName name escaped =>
      record "InvalidName" [.labelled "name" (text name), .labelled "escaped" (text escaped)]
  | .unreadableName name => record "UnreadableName" [.labelled "name" (text name)]
  | .trailingCharacters rest => record "TrailingCharacters" [.labelled "rest" (text rest)]

def Token.readingShape : Except TokenError Token → Shape
  | .ok token => tuple "Ok" [token.shape]
  | .error e => tuple "Err" [e.shape]

end TextGrammar
