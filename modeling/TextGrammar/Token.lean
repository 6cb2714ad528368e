import TextGrammar.Token.Name

/-!
# Tokens

The result of taking a text apart: a token has a name and a list of elements, each of which is a
piece of text or another token.
-/

namespace TextGrammar

inductive Element where
  | text (content : String)
  | node (name : TokenName) (elements : List Element)

structure Token where
  name : TokenName
  elements : List Element := []

def Token.toElement (t : Token) : Element := .node t.name t.elements

namespace Element

def text? : Element → Option String
  | .text content => some content
  | .node _ _ => none

def token? : Element → Option Token
  | .text _ => none
  | .node name elements => some ⟨name, elements⟩

mutual

def decEq : (a b : Element) → Decidable (a = b)
  | .text s, .text t =>
      if h : s = t then isTrue (by rw [h]) else isFalse (by rintro ⟨⟩; exact h rfl)
  | .text _, .node _ _ => isFalse nofun
  | .node _ _, .text _ => isFalse nofun
  | .node name elements, .node name' elements' =>
      if h : name = name' then
        match decEqList elements elements' with
        | isTrue he => isTrue (by rw [h, he])
        | isFalse he => isFalse (by rintro ⟨⟩; exact he rfl)
      else isFalse (by rintro ⟨⟩; exact h rfl)

def decEqList : (as bs : List Element) → Decidable (as = bs)
  | [], [] => isTrue rfl
  | [], _ :: _ => isFalse nofun
  | _ :: _, [] => isFalse nofun
  | a :: as, b :: bs =>
      match decEq a b with
      | isFalse h => isFalse (by rintro ⟨⟩; exact h rfl)
      | isTrue h =>
          match decEqList as bs with
          | isFalse hs => isFalse (by rintro ⟨⟩; exact hs rfl)
          | isTrue hs => isTrue (by rw [h, hs])

end

instance : DecidableEq Element := decEq

end Element

namespace Token

instance : DecidableEq Token := fun a b =>
  if h : a.toElement = b.toElement then
    isTrue (by cases a; cases b; cases h; rfl)
  else isFalse (by rintro rfl; exact h rfl)

def push (t : Token) (e : Element) : Token := { t with elements := t.elements ++ [e] }

def insert (t : Token) (i : Nat) (e : Element) : Token :=
  { t with elements := t.elements.take i ++ e :: t.elements.drop i }

def remove (t : Token) (i : Nat) : Token := { t with elements := t.elements.eraseIdx i }

def tokens (t : Token) : List Token := t.elements.filterMap Element.token?

def texts (t : Token) : List String := t.elements.filterMap Element.text?

def first? (t : Token) (name : String) : Option Token := t.tokens.find? (·.name.text = name)

def all (t : Token) (name : String) : List Token := t.tokens.filter (·.name.text = name)

end Token

end TextGrammar
