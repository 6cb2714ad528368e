import TextGrammar.Proofs.Escape.Decoding

/-!
# Formats whose escapes are read back

Decoding undoes encoding on every text exactly when the format has no trigger, or when it has a
code for the trigger and never writes the code of an escape by code point.  A format that falls
short has a text of at most six characters that is not read back.
-/

namespace TextGrammar

namespace Dictionary

variable {κ α : Type} [DecidableEq κ]

def KeysDistinct (d : Dictionary κ α) : Prop := (d.entries.map Prod.fst).Nodup

theorem KeysDistinct.insert {d : Dictionary κ α} (h : d.KeysDistinct) (key : κ) (value : α) :
    (d.insert key value).KeysDistinct := by
  simp only [KeysDistinct, Dictionary.insert, List.map_cons, List.nodup_cons]
  constructor
  · simp
  · exact h.sublist (List.filter_sublist.map Prod.fst)

theorem KeysDistinct.find?_eq_some_iff {d : Dictionary κ α} (h : d.KeysDistinct) {key : κ}
    {value : α} : d.find? key = some value ↔ (key, value) ∈ d.entries := by
  obtain ⟨entries⟩ := d
  simp only [KeysDistinct, find?] at h ⊢
  induction entries with
  | nil => simp
  | cons entry entries ih =>
      obtain ⟨other, found⟩ := entry
      simp only [List.map_cons, List.nodup_cons] at h
      by_cases hkey : other = key
      · subst hkey
        have hnone : (other, value) ∉ entries := fun hmem =>
          h.1 (List.mem_map.2 ⟨(other, value), hmem, rfl⟩)
        simp [hnone, eq_comm]
      · have hne : key ≠ other := fun heq => hkey heq.symm
        simp [hkey, hne, ih h.2]

end Dictionary

namespace Escape

theorem Format.table_configure_keysDistinct {f : Format} (h : f.table.KeysDistinct)
    (s : Setting) : (f.configure s).table.KeysDistinct := by
  cases s with
  | escape code literal => exact h.insert code literal
  | _ => exact h

theorem Format.table_foldl_keysDistinct (settings : List Setting) {f : Format}
    (h : f.table.KeysDistinct) : (settings.foldl Format.configure f).table.KeysDistinct := by
  induction settings generalizing f with
  | nil => exact h
  | cons s settings ih => exact ih (Format.table_configure_keysDistinct h s)

theorem Format.table_ofSettings_keysDistinct (settings : List Setting) :
    (Format.ofSettings settings).table.KeysDistinct :=
  Format.table_foldl_keysDistinct settings List.nodup_nil

private theorem smallest?_eq_none_iff {cs : List Char} : smallest? cs = none ↔ cs = [] := by
  cases cs with
  | nil => simp [smallest?]
  | cons c cs =>
      simp only [smallest?]
      split <;> simp

private theorem least_of_smallest? {cs : List Char} {m : Char} (h : smallest? cs = some m) :
    m ∈ cs ∧ ∀ c ∈ cs, m ≤ c := by
  induction cs generalizing m with
  | nil => simp [smallest?] at h
  | cons d cs ih =>
      simp only [smallest?] at h
      split at h
      · rename_i hnone
        cases h
        simp [smallest?_eq_none_iff.1 hnone]
      · rename_i least hleast
        obtain ⟨hmem, hle⟩ := ih hleast
        cases h
        split
        · rename_i hd
          exact ⟨by simp, by simpa using fun c hc => Char.le_trans hd (hle c hc)⟩
        · rename_i hd
          have hd' : least ≤ d := (Char.le_total d least).resolve_left hd
          exact ⟨by simp [hmem], by simpa [hd'] using hle⟩

private theorem smallest?_eq_some_iff {cs : List Char} {m : Char} :
    smallest? cs = some m ↔ m ∈ cs ∧ ∀ c ∈ cs, m ≤ c := by
  constructor
  · exact least_of_smallest?
  · rintro ⟨hmem, hle⟩
    cases hleast : smallest? cs with
    | none => simp [smallest?_eq_none_iff.1 hleast] at hmem
    | some least =>
        obtain ⟨hmem', hle'⟩ := least_of_smallest? hleast
        rw [Char.le_antisymm (hle' m hmem) (hle least hmem')]

def Format.Picks (f : Format) (c code : Char) : Prop :=
  f.table.find? code = some [c] ∧ ∀ other, f.table.find? other = some [c] → code ≤ other

section Codes

variable {f : Format} (hdistinct : f.table.KeysDistinct)

include hdistinct

private theorem mem_codes_iff {c code : Char} :
    code ∈ (f.table.entries.filter fun entry => entry.2 = [c]).map Prod.fst ↔
      f.table.find? code = some [c] := by
  rw [hdistinct.find?_eq_some_iff]
  simp

theorem codeFor?_eq_some_iff {c code : Char} : codeFor? f c = some code ↔ f.Picks c code := by
  simp only [codeFor?, smallest?_eq_some_iff, mem_codes_iff hdistinct, Format.Picks]

private theorem codeFor?_eq_none_iff {c : Char} :
    codeFor? f c = none ↔ ∀ code, f.table.find? code ≠ some [c] := by
  rw [codeFor?, smallest?_eq_none_iff, List.eq_nil_iff_forall_not_mem]
  simp only [mem_codes_iff hdistinct, ne_eq]

end Codes

private theorem encode_of_trigger_none {f : Format} (h : f.trigger = none) (text : List Char) :
    encode f text = text := by
  simp [encode, h]

@[simp] theorem encode_nil (f : Format) : encode f [] = [] := by
  unfold encode
  split <;> rfl

theorem encode_cons_code {f : Format} {trigger c code : Char} (htrigger : f.trigger = some trigger)
    (h : codeFor? f c = some code) (text : List Char) :
    encode f (c :: text) = trigger :: code :: encode f text := by
  simp [encode, htrigger, h]

theorem encode_cons_self {f : Format} {c : Char} (h : codeFor? f c = none) (text : List Char) :
    encode f (c :: text) = c :: encode f text := by
  unfold encode
  split <;> simp [h]

private theorem encode_eq_self {f : Format} {text : List Char}
    (h : ∀ c ∈ text, codeFor? f c = none) : encode f text = text := by
  induction text with
  | nil => simp
  | cons c text ih =>
      rw [encode_cons_self (h c (by simp)), ih fun d hd => h d (by simp [hd])]

private theorem length_le_length_encode (f : Format) (text : List Char) :
    text.length ≤ (encode f text).length := by
  induction text with
  | nil => simp
  | cons c text ih =>
      cases htrigger : f.trigger with
      | none => simp [encode_of_trigger_none htrigger]
      | some trigger =>
          cases hcode : codeFor? f c with
          | none => simpa [encode_cons_self hcode] using ih
          | some code =>
              simp only [encode_cons_code htrigger hcode, List.length_cons]
              omega

theorem codeFor?_eq_none_of_encode_eq {f : Format} {trigger : Char} {text : List Char}
    (htrigger : f.trigger = some trigger) (h : encode f text = text) :
    ∀ c ∈ text, codeFor? f c = none := by
  induction text with
  | nil => simp
  | cons c text ih =>
      cases hcode : codeFor? f c with
      | none =>
          rw [encode_cons_self hcode] at h
          have htext := ih (List.cons.inj h).2
          simpa [hcode] using htext
      | some code =>
          have hlength := length_le_length_encode f text
          have hsame := congrArg List.length h
          simp only [encode_cons_code htrigger hcode, List.length_cons] at hsame
          omega

/-! ## Formats that are read back -/

theorem decode_of_trigger_none {f : Format} (h : f.trigger = none) (text : List Char) :
    decode f text = text := by
  induction text with
  | nil => simp
  | cons c text ih => rw [decode_plain (by simp [h]), ih]

private theorem decodeCode_of_find? {f : Format} {code : Char} {literal : List Char}
    (h : f.table.find? code = some literal) : Engine.decodeCode f code = literal := by
  simp [Engine.decodeCode, h]

theorem decode_encode_append {f : Format} {trigger : Char} (hdistinct : f.table.KeysDistinct)
    (htrigger : f.trigger = some trigger) (hself : codeFor? f trigger ≠ none)
    (hpicks : ∀ c code, f.Picks c code → code ≠ f.unicodeCode) (text rest : List Char) :
    decode f (encode f text ++ rest) = text ++ decode f rest := by
  induction text with
  | nil => simp
  | cons c text ih =>
      cases hcode : codeFor? f c with
      | some code =>
          have hpick := (codeFor?_eq_some_iff hdistinct).1 hcode
          rw [encode_cons_code htrigger hcode, List.cons_append, List.cons_append,
            decode_code htrigger (hpicks c code hpick), decodeCode_of_find? hpick.1, ih]
          rfl
      | none =>
          have hne : trigger ≠ c := by
            rintro rfl
            exact hself hcode
          rw [encode_cons_self hcode, List.cons_append,
            decode_plain (by simpa [htrigger] using hne), ih]
          rfl

/-! ## Texts that are not read back -/

section Failures

variable {f : Format} {trigger : Char} (htrigger : f.trigger = some trigger)

include htrigger

private theorem decode_encode_ne_of_unicodeCode {c : Char} (h : codeFor? f c = some f.unicodeCode) :
    decode f (encode f [c]) ≠ [c] := by
  -- A character written as the code of an escape by code point leaves that escape unfinished.
  rw [encode_cons_code htrigger h, encode_nil, decode_unfinished htrigger (by simp)]
  simp

private theorem decode_encode_ne_of_code {c code : Char} (hdistinct : f.table.KeysDistinct)
    (hself : codeFor? f trigger = none) (h : codeFor? f c = some code) :
    decode f (encode f [trigger, c]) ≠ [trigger, c] := by
  -- A trigger written as itself takes the trigger of the next escape for its code.
  have hpick := ((codeFor?_eq_some_iff hdistinct).1 h).1
  have hself' := (codeFor?_eq_none_iff hdistinct).1 hself
  rw [encode_cons_self hself, encode_cons_code htrigger h, encode_nil]
  by_cases hunicode : trigger = f.unicodeCode
  · have hdecode : decode f [trigger, f.unicodeCode, code] = [trigger, f.unicodeCode, code] :=
      decode_unfinished htrigger (by simp)
    rw [← hunicode] at hdecode
    simp [hdecode]
  rw [decode_code htrigger hunicode]
  by_cases hcode : code = trigger
  · -- The trigger is itself the code of `c`, so the two come out in the wrong order.
    subst hcode
    have hne : c ≠ code := by
      rintro rfl
      exact hself' c hpick
    rw [decodeCode_of_find? hpick, decode_trigger htrigger]
    simp [hne]
  · rw [decode_plain (by simpa [htrigger] using fun heq => hcode heq.symm), decode_nil]
    cases hliteral : f.table.find? trigger with
    | none => simp [Engine.decodeCode, hliteral, htrigger]
    | some literal =>
        rw [decodeCode_of_find? hliteral]
        intro heq
        have hsingle : literal = [trigger] := by
          cases literal with
          | nil => simp at heq
          | cons d ds => cases ds <;> simp_all
        exact hself' trigger (hsingle ▸ hliteral)

private theorem decode_encode_ne_of_no_codes (h : ∀ c, codeFor? f c = none) :
    decode f (encode f [trigger, f.unicodeCode, '0', '0', '4', '1']) ≠
      [trigger, f.unicodeCode, '0', '0', '4', '1'] := by
  -- Without codes the text of an escape by code point is written as it is.
  rw [encode_eq_self fun c _ => h c, decode_codePoint htrigger, decode_nil]
  have hdigits : Engine.decodeDigits f ['0', '0', '4', '1'] = ['A'] := rfl
  simp [hdigits]

end Failures

/-! ## The characterization -/

/-- There is no trigger, or the trigger has a code and no code that encoding picks starts an escape
by code point. -/
def Format.IsReadable (f : Format) : Prop :=
  f.trigger = none ∨ ∃ trigger, f.trigger = some trigger ∧
    (∃ code, f.table.find? code = some [trigger]) ∧
    ∀ c code, f.Picks c code → code ≠ f.unicodeCode

private theorem decode_encode_of_isReadable {f : Format} (hdistinct : f.table.KeysDistinct)
    (h : f.IsReadable) (text : List Char) : decode f (encode f text) = text := by
  rcases h with hnone | ⟨trigger, htrigger, ⟨code, hcode⟩, hpicks⟩
  · rw [encode_of_trigger_none hnone, decode_of_trigger_none hnone]
  · have hself : codeFor? f trigger ≠ none := fun hself =>
      (codeFor?_eq_none_iff hdistinct).1 hself code hcode
    simpa using decode_encode_append hdistinct htrigger hself hpicks text []

private theorem isReadable_of_decode_encode {f : Format} (hdistinct : f.table.KeysDistinct)
    (h : ∀ text, decode f (encode f text) = text) : f.IsReadable := by
  cases htrigger : f.trigger with
  | none => exact .inl htrigger
  | some trigger =>
      refine .inr ⟨trigger, htrigger, ?_, ?_⟩
      · apply Classical.byContradiction
        intro hno
        have hself : codeFor? f trigger = none :=
          (codeFor?_eq_none_iff hdistinct).2 fun code hcode => hno ⟨code, hcode⟩
        by_cases hcodes : ∃ c code, codeFor? f c = some code
        · obtain ⟨c, code, hcode⟩ := hcodes
          exact decode_encode_ne_of_code htrigger hdistinct hself hcode (h _)
        · have hnone : ∀ c, codeFor? f c = none := fun c =>
            Option.eq_none_iff_forall_ne_some.2 fun code hcode => hcodes ⟨c, code, hcode⟩
          exact decode_encode_ne_of_no_codes htrigger hnone (h _)
      · rintro c code hpick rfl
        have hcode := (codeFor?_eq_some_iff hdistinct).2 hpick
        exact decode_encode_ne_of_unicodeCode htrigger hcode (h _)

theorem standard_table_keysDistinct : Format.standard.table.KeysDistinct :=
  Format.table_ofSettings_keysDistinct _

theorem standard_code_ne_unicodeCode {code : Char} {literal : List Char}
    (h : Format.standard.table.find? code = some literal) : code ≠ 'u' := by
  rintro rfl
  exact absurd h nofun

private theorem standard_isReadable : Format.standard.IsReadable :=
  .inr ⟨'\\', rfl, ⟨'\\', rfl⟩, fun _ _ hpick => standard_code_ne_unicodeCode hpick.1⟩

theorem decode_encode_standard (text : List Char) :
    decode .standard (encode .standard text) = text :=
  decode_encode_of_isReadable standard_table_keysDistinct standard_isReadable text

theorem escapes_read_back_iff :
    (∀ settings : List Setting,
      (∀ text, decode (.ofSettings settings) (encode (.ofSettings settings) text) = text) ↔
        (Format.ofSettings settings).IsReadable) ∧
      ∀ text, decode .standard (encode .standard text) = text := by
  refine ⟨fun settings => ?_, decode_encode_standard⟩
  have hdistinct := Format.table_ofSettings_keysDistinct settings
  exact ⟨isReadable_of_decode_encode hdistinct, decode_encode_of_isReadable hdistinct⟩

end Escape

end TextGrammar
