import TextGrammar.Escape.Engine

/-!
# Escaping and resolving escapes

Encoding writes a code for every character that a format has a code for.  Decoding resolves the
escapes of a text; what is not an escape, and an escape left unfinished at the end, stays as it is.
-/

namespace TextGrammar.Escape

def smallest? : List Char → Option Char
  | [] => none
  | c :: cs =>
      match smallest? cs with
      | none => some c
      | some d => some (if c ≤ d then c else d)

def codeFor? (f : Format) (c : Char) : Option Char :=
  smallest? ((f.table.entries.filter fun entry => entry.2 = [c]).map Prod.fst)

/-- A format without a trigger has no way to write an escape and leaves the text as it is. -/
def encode (f : Format) (text : List Char) : List Char :=
  match f.trigger with
  | none => text
  | some trigger =>
      text.flatMap fun c =>
        match codeFor? f c with
        | some code => [trigger, code]
        | none => [c]

def Engine.complete (e : Engine) (text : List Char) : List Char :=
  let (emitted, e) := e.feed text
  emitted ++ e.trailing

def decode (f : Format) (text : List Char) : List Char :=
  (Engine.start f).complete text

def isCanonical (text : List Char) : Bool := encode .standard text = text

end TextGrammar.Escape
