import TextGrammar.Text.Display
import TextGrammar.Token

/-!
# Writing tokens

A token is written as `@`, its name and its elements between parentheses.  Text is quoted and
escaped.  The short layout takes one line; the long one gives each element a line of its own,
indented by four spaces for each level.
-/

namespace TextGrammar

open Text

def tokenPrefix : Char := '@'

def writeText (content : String) : List Char :=
  '"' :: Escape.encode .standard content.toList ++ ['"']

def writeHead (name : TokenName) : List Char := tokenPrefix :: name.text.toList ++ ['(']

namespace Element

mutual

def write : Element → List Char
  | .text content => writeText content
  | .node name elements => writeHead name ++ writeList elements ++ [')']

def writeList : List Element → List Char
  | [] => []
  | [e] => write e
  | e :: es => write e ++ ',' :: ' ' :: writeList es

end

mutual

def writeLong (depth : Nat) : Element → List Char
  | .text content => indentation depth ++ writeText content
  | .node name [] => indentation depth ++ writeHead name ++ [')']
  | .node name (e :: es) =>
      indentation depth ++ writeHead name ++ '\n' :: writeLongList (depth + 1) (e :: es) ++
        '\n' :: indentation depth ++ [')']

def writeLongList (depth : Nat) : List Element → List Char
  | [] => []
  | [e] => writeLong depth e
  | e :: es => writeLong depth e ++ ',' :: '\n' :: writeLongList depth es

end

end Element

namespace Token

def write (t : Token) : List Char := t.toElement.write

def writeLong (t : Token) : List Char := t.toElement.writeLong 0

end Token

end TextGrammar
