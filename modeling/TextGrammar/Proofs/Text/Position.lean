import TextGrammar.Text.Offset

/-!
# Positions in a text

The offsets that lie between two characters of a text, or at one of its ends, and the texts between
two of them.
-/

namespace TextGrammar.Text

def IsPosition (text : List Char) (pos : Nat) : Prop :=
  ∃ front back, text = front ++ back ∧ byteLength front = pos

theorem dropBytes?_eq_some_iff {text rest : List Char} {pos : Nat} :
    dropBytes? text pos = some rest ↔ ∃ front, text = front ++ rest ∧ byteLength front = pos := by
  constructor
  · intro h
    fun_induction dropBytes? text pos with
    | case1 text => exact ⟨[], by simpa using h, rfl⟩
    | case2 => exact absurd h nofun
    | case3 c cs n hle ih =>
        obtain ⟨front, rfl, hfront⟩ := ih h
        refine ⟨c :: front, rfl, ?_⟩
        rw [byteLength, hfront]
        omega
    | case4 => exact absurd h nofun
  · rintro ⟨front, rfl, rfl⟩
    exact dropBytes?_byteLength_append front rest

private theorem takeBytes?_eq_some_iff {text front : List Char} {n : Nat} :
    takeBytes? text n = some front ↔ ∃ back, text = front ++ back ∧ byteLength front = n := by
  constructor
  · intro h
    fun_induction takeBytes? text n generalizing front with
    | case1 text =>
        obtain rfl := Option.some.inj h
        exact ⟨text, rfl, rfl⟩
    | case2 => exact absurd h nofun
    | case3 c cs n hle ih =>
        obtain ⟨taken, htaken, rfl⟩ := Option.map_eq_some_iff.1 h
        obtain ⟨back, rfl, hlength⟩ := ih htaken
        refine ⟨back, rfl, ?_⟩
        rw [byteLength, hlength]
        omega
    | case4 => exact absurd h nofun
  · rintro ⟨back, rfl, rfl⟩
    exact takeBytes?_byteLength_append front back

private theorem isPosition_iff_isSome {text : List Char} {pos : Nat} :
    IsPosition text pos ↔ (dropBytes? text pos).isSome = true := by
  rw [Option.isSome_iff_exists]
  constructor
  · rintro ⟨front, back, htext, hpos⟩
    exact ⟨back, dropBytes?_eq_some_iff.2 ⟨front, htext, hpos⟩⟩
  · rintro ⟨back, hback⟩
    obtain ⟨front, htext, hpos⟩ := dropBytes?_eq_some_iff.1 hback
    exact ⟨front, back, htext, hpos⟩

instance (text : List Char) (pos : Nat) : Decidable (IsPosition text pos) :=
  decidable_of_iff _ isPosition_iff_isSome.symm

theorem IsPosition.le_byteLength {text : List Char} {pos : Nat} (h : IsPosition text pos) :
    pos ≤ byteLength text := by
  obtain ⟨front, back, rfl, rfl⟩ := h
  rw [byteLength_append]
  exact Nat.le_add_right _ _

theorem byteLength_pos {text : List Char} (h : text ≠ []) : 0 < byteLength text := by
  cases text with
  | nil => exact absurd rfl h
  | cons c cs => exact Nat.lt_of_lt_of_le c.utf8Size_pos (Nat.le_add_right _ _)

theorem eq_of_byteLength_eq {text front front' : List Char} (h : front <+: text)
    (h' : front' <+: text) (hlength : byteLength front = byteLength front') : front = front' := by
  obtain ⟨back, rfl⟩ := h
  obtain ⟨back', hback'⟩ := h'
  have htaken := takeBytes?_byteLength_append front' back'
  rw [hback', ← hlength, takeBytes?_byteLength_append] at htaken
  exact Option.some.inj htaken

theorem utf8ByteSize_ofList (text : List Char) :
    (String.ofList text).utf8ByteSize = byteLength text := by
  induction text with
  | nil => rfl
  | cons c text ih =>
      rw [String.ofList_cons, String.utf8ByteSize_append, String.utf8ByteSize_singleton, ih,
        byteLength]

/-- The positions in front of each character and at the end, counted from `start`. -/
def offsetsFrom (start : Nat) : List Char → List Nat
  | [] => [start]
  | c :: text => start :: offsetsFrom (start + c.utf8Size) text

theorem getElem?_offsetsFrom (text : List Char) {i : Nat} (h : i ≤ text.length) (start : Nat) :
    (offsetsFrom start text)[i]? = some (start + byteLength (text.take i)) := by
  induction text generalizing i start with
  | nil =>
      obtain rfl := Nat.le_zero.1 h
      rfl
  | cons c text ih =>
      cases i with
      | zero => rfl
      | succ i =>
          have hrest := ih (Nat.le_of_succ_le_succ h) (start + c.utf8Size)
          rw [offsetsFrom, List.getElem?_cons_succ, hrest, List.take_succ_cons, byteLength,
            Nat.add_assoc]

theorem slice?_eq_some_iff {text middle : List Char} {start stop : Nat} :
    slice? text start stop = some middle ↔ ∃ front back, text = front ++ middle ++ back ∧
      byteLength front = start ∧ byteLength front + byteLength middle = stop := by
  constructor
  · intro h
    unfold slice? at h
    split at h
    · rename_i hle
      obtain ⟨rest, hrest, hmiddle⟩ := Option.bind_eq_some_iff.1 h
      obtain ⟨front, rfl, rfl⟩ := dropBytes?_eq_some_iff.1 hrest
      obtain ⟨back, rfl, hlength⟩ := takeBytes?_eq_some_iff.1 hmiddle
      exact ⟨front, back, (List.append_assoc _ _ _).symm, rfl, by omega⟩
    · exact absurd h nofun
  · rintro ⟨front, back, rfl, rfl, rfl⟩
    exact slice?_append front middle back

theorem exists_slice? {text : List Char} {start stop : Nat} (hstart : IsPosition text start)
    (hstop : IsPosition text stop) (hle : start ≤ stop) :
    ∃ middle, slice? text start stop = some middle := by
  obtain ⟨front, rest, rfl, rfl⟩ := hstart
  obtain ⟨front', back, htext, rfl⟩ := hstop
  -- The text is cut twice; the second cut is never in front of the first, but may be the same.
  rcases List.append_eq_append_iff.1 htext with ⟨middle, rfl, rfl⟩ | ⟨between, rfl, rfl⟩
  · exact ⟨middle, slice?_eq_some_iff.2 ⟨front, back, by simp, rfl, by simp⟩⟩
  · have hempty : byteLength between = 0 := by
      rw [byteLength_append] at hle
      omega
    exact ⟨[], slice?_eq_some_iff.2 ⟨front' ++ between, rest, by simp, rfl,
      by simp [byteLength, hempty]⟩⟩

theorem slice?_trans {text first second : List Char} {start middle stop : Nat}
    (hfirst : slice? text start middle = some first)
    (hsecond : slice? text middle stop = some second) :
    slice? text start stop = some (first ++ second) := by
  obtain ⟨front, rest, htext, rfl, rfl⟩ := slice?_eq_some_iff.1 hfirst
  obtain ⟨front', back, htext', hfront', rfl⟩ := slice?_eq_some_iff.1 hsecond
  -- The text in front of the second slice is the one up to the end of the first.
  have htaken := takeBytes?_byteLength_append (front ++ first) rest
  have htaken' := takeBytes?_byteLength_append front' (second ++ back)
  rw [← htext, byteLength_append] at htaken
  rw [← List.append_assoc, ← htext', hfront'] at htaken'
  obtain rfl : front ++ first = front' := Option.some.inj (htaken.symm.trans htaken')
  exact slice?_eq_some_iff.2 ⟨front, back, by simp [htext'], rfl, by simp; omega⟩

inductive Advances (text : List Char) (start : Nat) : Nat → Prop where
  | stay : Advances text start start
  | move {stop : Nat} : start < stop → IsPosition text start → IsPosition text stop →
      Advances text start stop

namespace Advances

variable {text : List Char} {start middle stop : Nat}

theorem le (h : Advances text start stop) : start ≤ stop := by
  cases h with
  | stay => exact Nat.le_refl _
  | move hlt => exact Nat.le_of_lt hlt

theorem trans (h : Advances text start middle) (h' : Advances text middle stop) :
    Advances text start stop := by
  cases h with
  | stay => exact h'
  | move hlt hstart hmiddle =>
      cases h' with
      | stay => exact .move hlt hstart hmiddle
      | move hlt' _ hstop => exact .move (Nat.lt_trans hlt hlt') hstart hstop

theorem isPosition (h : Advances text start stop) (hstart : IsPosition text start) :
    IsPosition text stop := by
  cases h with
  | stay => exact hstart
  | move _ _ hstop => exact hstop

theorem of_isPosition (hstart : IsPosition text start) (hstop : IsPosition text stop)
    (hle : start ≤ stop) : Advances text start stop := by
  rcases Nat.eq_or_lt_of_le hle with rfl | hlt
  · exact .stay
  · exact .move hlt hstart hstop

theorem sub_lt (h : Advances text start stop) (hne : stop ≠ start) :
    byteLength text - stop < byteLength text - start := by
  cases h with
  | stay => exact absurd rfl hne
  | move hlt _ hstop =>
      have hle := hstop.le_byteLength
      omega

end Advances

theorem advances_of_dropBytes? {text rest taken behind : List Char} {start : Nat}
    (h : dropBytes? text start = some rest) (hrest : rest = taken ++ behind) :
    Advances text start (start + byteLength taken) := by
  obtain ⟨front, rfl, rfl⟩ := dropBytes?_eq_some_iff.1 h
  subst hrest
  exact .of_isPosition ⟨front, _, rfl, rfl⟩ ⟨front ++ taken, behind, by simp, by simp⟩
    (Nat.le_add_right _ _)

end TextGrammar.Text
