import TextGrammar.Cursor
import TextGrammar.Proofs.Escape.RoundTrip

/-!
# Resolving escapes by recursion

What the engine spreads over six calls and a flush at the end, a recursion on the text says in one
line for each kind of escape.  The two agree on every text in every format, and nothing that an
engine read before it was reset makes a difference.
-/

namespace TextGrammar.Escape

open Text

def lowerDigits : List Char :=
  ['0', '1', '2', '3', '4', '5', '6', '7', '8', '9', 'a', 'b', 'c', 'd', 'e', 'f']

def upperDigits : List Char :=
  ['0', '1', '2', '3', '4', '5', '6', '7', '8', '9', 'A', 'B', 'C', 'D', 'E', 'F']

def digitValue? (c : Char) : Option Nat := (lowerDigits.idxOf? c).or (upperDigits.idxOf? c)

def characterNamed? (a b c d : Char) : Option Char :=
  match digitValue? a, digitValue? b, digitValue? c, digitValue? d with
  | some i, some j, some k, some l =>
      let n := 0x1000 * i + 0x100 * j + 0x10 * k + l
      if n < 0xd800 ∨ 0xdfff < n then some (Char.ofNat n) else none
  | _, _, _, _ => none

private theorem mem_of_between {first last c : Char} (hfirst : first ≤ c) (hlast : c ≤ last) :
    c ∈ (List.range' first.toNat (last.toNat + 1 - first.toNat)).map Char.ofNat := by
  have hlow : first.toNat ≤ c.toNat := hfirst
  have hhigh : c.toNat ≤ last.toNat := hlast
  refine List.mem_map.2 ⟨c.toNat, ?_, Char.ofNat_toNat c⟩
  rw [List.mem_range'_1]
  omega

private theorem hexDigit?_of_mem : ∀ c ∈ lowerDigits ++ upperDigits, hexDigit? c = digitValue? c :=
  List.map_inj_left.1 (by decide)

private theorem hexDigit?_eq_digitValue? (c : Char) : hexDigit? c = digitValue? c := by
  by_cases hdigit : c ∈ lowerDigits ++ upperDigits
  · exact hexDigit?_of_mem c hdigit
  have hout : ∀ first last : Char,
      (List.range' first.toNat (last.toNat + 1 - first.toNat)).map Char.ofNat ⊆
        lowerDigits ++ upperDigits → ¬(first ≤ c ∧ c ≤ last) :=
    fun _ _ hsub hc => hdigit (hsub (mem_of_between hc.1 hc.2))
  have hnone : digitValue? c = none := by
    simp only [List.mem_append, not_or] at hdigit
    simp [digitValue?, List.idxOf?_eq_none_iff, hdigit]
  rw [hnone, hexDigit?, if_neg (hout _ _ (by decide)), if_neg (hout _ _ (by decide)),
    if_neg (hout _ _ (by decide))]

private theorem digitValue?_lt {c : Char} {i : Nat} (h : digitValue? c = some i) : i < 16 := by
  rcases Option.or_eq_some_iff.1 h with hlower | ⟨-, hupper⟩
  · exact (List.idxOf?_eq_some_iff.1 hlower).1
  · exact (List.idxOf?_eq_some_iff.1 hupper).1

private theorem hexChar?_eq_characterNamed? (a b c d : Char) :
    hexChar? [a, b, c, d] = characterNamed? a b c d := by
  simp only [hexChar?, hexFrom?, hexDigit?_eq_digitValue?, characterNamed?]
  cases ha : digitValue? a with
  | none => rfl
  | some i =>
  cases hb : digitValue? b with
  | none => rfl
  | some j =>
  cases hc : digitValue? c with
  | none => rfl
  | some k =>
  cases hd : digitValue? d with
  | none => rfl
  | some l =>
  have hi := digitValue?_lt ha
  have hj := digitValue?_lt hb
  have hk := digitValue?_lt hc
  have hl := digitValue?_lt hd
  have hn : 16 * (16 * (16 * (16 * 0 + i) + j) + k) + l =
      0x1000 * i + 0x100 * j + 0x10 * k + l := by omega
  have hvalid : (0x1000 * i + 0x100 * j + 0x10 * k + l).isValidChar ↔
      0x1000 * i + 0x100 * j + 0x10 * k + l < 0xd800 ∨
        0xdfff < 0x1000 * i + 0x100 * j + 0x10 * k + l := by
    simp only [Nat.isValidChar]
    omega
  simp only [Option.bind_some, hn, charOfNat?, hvalid]

/-- What a text stands for when `trigger` introduces escapes.  An escape that the text leaves
unfinished stays as it is. -/
def resolveFrom (f : Format) (trigger : Char) : List Char → List Char
  | [] => []
  | c :: text =>
      if c ≠ trigger then c :: resolveFrom f trigger text
      else
        match text with
        | [] => [trigger]
        | code :: text =>
            if code ≠ f.unicodeCode then
              match f.table.find? code with
              | some literal => literal ++ resolveFrom f trigger text
              | none => trigger :: code :: resolveFrom f trigger text
            else
              match text with
              | a :: b :: c :: d :: text =>
                  match characterNamed? a b c d with
                  | some named => named :: resolveFrom f trigger text
                  | none => trigger :: code :: a :: b :: c :: d :: resolveFrom f trigger text
              | digits => trigger :: code :: digits

def resolve (f : Format) (text : List Char) : List Char :=
  match f.trigger with
  | none => text
  | some trigger => resolveFrom f trigger text

section Equations

variable {f : Format} {trigger : Char}

private theorem resolveFrom_plain {c : Char} (h : c ≠ trigger) (text : List Char) :
    resolveFrom f trigger (c :: text) = c :: resolveFrom f trigger text := by
  rw [resolveFrom.eq_def]
  simp [h]

private theorem resolveFrom_trigger : resolveFrom f trigger [trigger] = [trigger] := by
  simp [resolveFrom]

private theorem resolveFrom_code {code : Char} (h : code ≠ f.unicodeCode) (text : List Char) :
    resolveFrom f trigger (trigger :: code :: text) =
      (f.table.find? code).getD [trigger, code] ++ resolveFrom f trigger text := by
  rw [resolveFrom.eq_def]
  cases hliteral : f.table.find? code <;> simp [h, hliteral]

private theorem resolveFrom_codePoint (a b c d : Char) (text : List Char) :
    resolveFrom f trigger (trigger :: f.unicodeCode :: a :: b :: c :: d :: text) =
      match characterNamed? a b c d with
      | some named => named :: resolveFrom f trigger text
      | none => trigger :: f.unicodeCode :: a :: b :: c :: d :: resolveFrom f trigger text := by
  simp [resolveFrom]

private theorem resolveFrom_unfinished {digits : List Char} (h : digits.length < 4) :
    resolveFrom f trigger (trigger :: f.unicodeCode :: digits) =
      trigger :: f.unicodeCode :: digits := by
  match digits, h with
  | [], _ | [_], _ | [_, _], _ | [_, _, _], _ => simp [resolveFrom]

end Equations

private theorem decode_eq_resolveFrom {f : Format} {trigger : Char}
    (htrigger : f.trigger = some trigger) : ∀ text, decode f text = resolveFrom f trigger text
  | [] => by rw [decode_nil, resolveFrom]
  | c :: text => by
      by_cases hc : c = trigger
      · subst hc
        match text with
        | [] => rw [decode_trigger htrigger, resolveFrom_trigger]
        | code :: text =>
            by_cases hcode : code = f.unicodeCode
            · subst hcode
              match text with
              | [] | [_] | [_, _] | [_, _, _] =>
                  rw [decode_unfinished htrigger (by simp), resolveFrom_unfinished (by simp)]
              | a :: b :: c :: d :: text =>
                  rw [decode_codePoint htrigger, resolveFrom_codePoint,
                    decode_eq_resolveFrom htrigger text]
                  simp only [Engine.decodeDigits, hexChar?_eq_characterNamed?]
                  cases characterNamed? a b c d <;> simp [Format.unicodeStart, htrigger]
            · rw [decode_code htrigger hcode, resolveFrom_code hcode,
                decode_eq_resolveFrom htrigger text]
              simp [Engine.decodeCode, htrigger]
      · have hne : f.trigger ≠ some c := by simpa [htrigger] using Ne.symm hc
        rw [decode_plain hne, resolveFrom_plain hc, decode_eq_resolveFrom htrigger text]

private theorem decode_eq_resolve (f : Format) (text : List Char) :
    decode f text = resolve f text := by
  unfold resolve
  split
  · rename_i hnone
    exact decode_of_trigger_none hnone text
  · rename_i trigger htrigger
    exact decode_eq_resolveFrom htrigger text

theorem scanFrom_never (sofar : List Char) (length : Nat) (e : Engine) (text : List Char) :
    e.scanFrom true (Engine.stopAt fun _ => false) sofar length () text =
      ⟨sofar ++ (e.feed text).1, length + text.length, (e.feed text).2, ()⟩ := by
  induction text generalizing sofar length e with
  | nil => simp [Engine.scanFrom, Engine.feed]
  | cons c text ih =>
      simp only [Engine.scanFrom, Engine.stopAt, ih, Engine.feed]
      split <;> simp [Nat.add_comm, Nat.add_left_comm]

theorem remainingConsidering_eq_complete (c : Cursor) (e : Engine) :
    (c.remainingConsidering e).1 = e.complete c.ahead := by
  simp [Cursor.remainingConsidering, Cursor.readUntilConsidering, Cursor.scanned,
    Engine.scanResolved, scanFrom_never, Engine.complete]

@[simp] theorem feed_format (e : Engine) (text : List Char) :
    (e.feed text).2.format = e.format := by
  induction text generalizing e with
  | nil => rfl
  | cons c text ih => simp [Engine.feed, ih]

/-- Decoding is the recursion, and it is what a cursor gets for a whole text from an engine that was
reset, whatever the engine had been fed. -/
theorem decode_agrees_with_recursion :
    (∀ f text, decode f text = resolve f text) ∧
      ∀ (e : Engine) (fed text : List Char),
        (({ content := text } : Cursor).remainingConsidering (e.feed fed).2.reset).1 =
          resolve e.format text := by
  refine ⟨decode_eq_resolve, fun e fed text => ?_⟩
  rw [remainingConsidering_eq_complete, ← decode_eq_resolve]
  simp [Engine.reset, decode, Cursor.ahead]

end TextGrammar.Escape
