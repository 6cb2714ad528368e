import TextGrammar.Text.Display

/-!
# Shapes

The shape of a value is a description of it for people who look into a grammar or its results: how
it is built, and from what.  A shape is written on one line, or with each member on a line of its
own.
-/

namespace TextGrammar

inductive Shape where
  | atom (text : String)
  | labelled (label : String) (value : Shape)
  /-- Members between delimiters, set apart from them by blanks on one line if `spaced`. -/
  | group (left right : String) (spaced : Bool) (members : List Shape)

namespace Shape

def text (s : String) : Shape := .atom (Text.quoted s.toList)

def number (n : Nat) : Shape := .atom (toString n)

def truth (b : Bool) : Shape := .atom (if b then "true" else "false")

def tuple (name : String) (fields : List Shape) : Shape := .group (name ++ "(") ")" false fields

def record (name : String) (fields : List Shape) : Shape :=
  .group (name ++ " \x7b") "\x7d" true fields

def list (items : List Shape) : Shape := .group "[" "]" false items

mutual

def short : Shape → String
  | .atom text => text
  | .labelled label value => label ++ ": " ++ value.short
  | .group left right spaced members =>
      let gap := if spaced then " " else ""
      left ++ gap ++ shortList members ++ gap ++ right

def shortList : List Shape → String
  | [] => ""
  | [s] => s.short
  | s :: ss => s.short ++ ", " ++ shortList ss

end

mutual

def long (depth : Nat) : Shape → String
  | .atom text => text
  | .labelled label value => label ++ ": " ++ value.long depth
  | .group left right _ [] => left ++ right
  | .group left right _ (s :: ss) =>
      left ++ "\n" ++ longList (depth + 1) (s :: ss) ++
        String.ofList (Text.indentation depth) ++ right

def longList (depth : Nat) : List Shape → String
  | [] => ""
  | s :: ss =>
      String.ofList (Text.indentation depth) ++ s.long depth ++ ",\n" ++ longList depth ss

end

end Shape

end TextGrammar
