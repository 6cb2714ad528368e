/-!
# Characters

A property of characters is tabulated by its boundaries: the increasing list of the code points at
which membership changes.  The first boundary enters the set, the second leaves it, and so on.

Blank is the property White_Space.  Text is trimmed of blanks only; the zero width space and the
byte order mark are not among them.

Escapes name characters by hexadecimal code points.  Digits of either case are read, and code points
are written in lower case without leading zeros.
-/

namespace TextGrammar.Text

/-- Membership in the set with the given boundaries: an odd number of them lie at or below `n`. -/
def within : List Nat → Nat → Bool
  | [], _ => false
  | b :: bs, n => if n < b then false else !within bs n

def isBlank (c : Char) : Bool :=
  let n := c.toNat
  (0x9 ≤ n && n ≤ 0xd) || n == 0x20 || n == 0x85 || n == 0xa0 || n == 0x1680 ||
    (0x2000 ≤ n && n ≤ 0x200a) || n == 0x2028 || n == 0x2029 || n == 0x202f || n == 0x205f ||
    n == 0x3000

def trimStart (text : List Char) : List Char := text.dropWhile isBlank

def trimEnd (text : List Char) : List Char := (trimStart text.reverse).reverse

def trim (text : List Char) : List Char := trimEnd (trimStart text)

def charOfNat? (n : Nat) : Option Char :=
  if n.isValidChar then some (Char.ofNat n) else none

def hexDigit? (c : Char) : Option Nat :=
  if '0' ≤ c ∧ c ≤ '9' then some (c.toNat - '0'.toNat)
  else if 'a' ≤ c ∧ c ≤ 'f' then some (c.toNat - 'a'.toNat + 10)
  else if 'A' ≤ c ∧ c ≤ 'F' then some (c.toNat - 'A'.toNat + 10)
  else none

def hexFrom? (value : Nat) : List Char → Option Nat
  | [] => some value
  | c :: cs => (hexDigit? c).bind fun digit => hexFrom? (16 * value + digit) cs

def hexChar? (digits : List Char) : Option Char :=
  (hexFrom? 0 digits).bind charOfNat?

def hexDigits (n : Nat) : List Char := Nat.toDigits 16 n

end TextGrammar.Text
