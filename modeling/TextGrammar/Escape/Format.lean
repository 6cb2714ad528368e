import TextGrammar.Dictionary

/-!
# Escape formats

A format says which character introduces an escape, what each escape code stands for, and which
characters quote or bracket a region of text.  Formats are built from settings, one after another;
a later setting of the same thing replaces the earlier one, while quotes and brackets add up.
-/

namespace TextGrammar.Escape

structure Format where
  trigger : Option Char := none
  unicodeCode : Char := 'u'
  table : Dictionary Char (List Char) := {}
  quotes : List Char := []
  brackets : List (Char × Char) := []

inductive Setting where
  | trigger (c : Char)
  | unicodeCode (c : Char)
  | escape (code : Char) (literal : List Char)
  | quote (c : Char)
  | brackets (left right : Char)
  deriving DecidableEq, Repr

namespace Setting

def escapeSelf (code : Char) : Setting := .escape code [code]

end Setting

namespace Format

def configure (f : Format) : Setting → Format
  | .trigger c => { f with trigger := some c }
  | .unicodeCode c => { f with unicodeCode := c }
  | .escape code literal => { f with table := f.table.insert code literal }
  | .quote c => { f with quotes := f.quotes ++ [c] }
  | .brackets left right => { f with brackets := f.brackets ++ [(left, right)] }

def ofSettings (settings : List Setting) : Format :=
  settings.foldl configure {}

/-- The escapes of string literals: a backslash before one of `0 b t n f r`, a quotation mark, an
apostrophe or another backslash, or before `u` and four hexadecimal digits. -/
def standard : Format :=
  ofSettings [.trigger '\\', .unicodeCode 'u', .escape '0' ['\x00'], .escape 'b' ['\x08'],
    .escape 't' ['\t'], .escape 'n' ['\n'], .escape 'f' ['\x0c'], .escape 'r' ['\r'],
    .escapeSelf '"', .escapeSelf '\'', .escapeSelf '\\']

def unicodeStart (f : Format) : List Char := f.trigger.toList ++ [f.unicodeCode]

end Format

end TextGrammar.Escape
