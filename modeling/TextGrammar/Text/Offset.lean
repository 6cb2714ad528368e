/-!
# Byte offsets

Positions in a text count the bytes of its encoding, one to four for each character.  An offset
that lies inside a character, or behind the end, names no position.
-/

namespace TextGrammar.Text

def byteLength : List Char → Nat
  | [] => 0
  | c :: cs => c.utf8Size + byteLength cs

def dropBytes? : List Char → Nat → Option (List Char)
  | cs, 0 => some cs
  | [], _ + 1 => none
  | c :: cs, n + 1 =>
      if c.utf8Size ≤ n + 1 then dropBytes? cs (n + 1 - c.utf8Size) else none

def takeBytes? : List Char → Nat → Option (List Char)
  | _, 0 => some []
  | [], _ + 1 => none
  | c :: cs, n + 1 =>
      if c.utf8Size ≤ n + 1 then (takeBytes? cs (n + 1 - c.utf8Size)).map (c :: ·) else none

def slice? (text : List Char) (start stop : Nat) : Option (List Char) :=
  if start ≤ stop then (dropBytes? text start).bind (takeBytes? · (stop - start)) else none

@[simp] theorem byteLength_append (a b : List Char) :
    byteLength (a ++ b) = byteLength a + byteLength b := by
  induction a with
  | nil => simp [byteLength]
  | cons c a ih => simp [byteLength, ih, Nat.add_assoc]

private theorem dropBytes?_cons (c : Char) (cs : List Char) (n : Nat) :
    dropBytes? (c :: cs) (c.utf8Size + n) = dropBytes? cs n := by
  obtain ⟨m, hm⟩ := Nat.exists_eq_add_one_of_ne_zero (Nat.ne_of_gt c.utf8Size_pos)
  have hsum : c.utf8Size + n = m + n + 1 := by omega
  rw [hsum, dropBytes?, if_pos (by omega)]
  congr 1
  omega

private theorem takeBytes?_cons (c : Char) (cs : List Char) (n : Nat) :
    takeBytes? (c :: cs) (c.utf8Size + n) = (takeBytes? cs n).map (c :: ·) := by
  obtain ⟨m, hm⟩ := Nat.exists_eq_add_one_of_ne_zero (Nat.ne_of_gt c.utf8Size_pos)
  have hsum : c.utf8Size + n = m + n + 1 := by omega
  have hrest : m + n + 1 - c.utf8Size = n := by omega
  rw [hsum, takeBytes?, if_pos (by omega), hrest]

theorem dropBytes?_byteLength_append (a b : List Char) :
    dropBytes? (a ++ b) (byteLength a) = some b := by
  induction a with
  | nil => simp [byteLength, dropBytes?]
  | cons c a ih => rw [byteLength, List.cons_append, dropBytes?_cons, ih]

theorem takeBytes?_byteLength_append (a b : List Char) :
    takeBytes? (a ++ b) (byteLength a) = some a := by
  induction a with
  | nil => simp [byteLength, takeBytes?]
  | cons c a ih => rw [byteLength, List.cons_append, takeBytes?_cons, ih, Option.map_some]

theorem slice?_append (a b c : List Char) :
    slice? (a ++ b ++ c) (byteLength a) (byteLength a + byteLength b) = some b := by
  rw [slice?, if_pos (Nat.le_add_right _ _), List.append_assoc, dropBytes?_byteLength_append,
    Option.bind_some, Nat.add_sub_cancel_left, takeBytes?_byteLength_append]

end TextGrammar.Text
