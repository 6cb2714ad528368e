import TextGrammar.Proofs.Escape.Bounds

/-!
# Engines that can be reached

Settings may be added to an engine at any time, in the middle of an escape or inside a quote, and
engines are copied and reset between the characters they read.  Whatever the order, what an engine
keeps for the time being fits its format, and resetting leaves nothing but the settings it was
given.
-/

namespace TextGrammar.Escape

namespace Engine

structure WellFormed (e : Engine) : Prop extends InStep e where
  open_le_one : e.openQuotes.count true ≤ 1
  pending_le_three : e.pending.length ≤ 3
  pending_eq_nil : e.phase ≠ .unicode → e.pending = []
  trigger_of_escape : e.phase ≠ .plain → e.format.trigger ≠ none
  prevEscaped_of_unicode : e.phase = .unicode → e.prevEscaped = true

private theorem openQuotes_track_count {e : Engine} (h : InStep e)
    (hle : e.openQuotes.count true ≤ 1) (c : Char) : (e.track c).openQuotes.count true ≤ 1 := by
  unfold track
  cases hopen : e.openQuotes.findIdx? id with
  | none =>
      -- A quote opens only while none is open.
      have hclosed : e.openQuotes.count true = 0 := by
        rw [List.count_eq_zero]
        exact fun hmem => Bool.noConfusion (List.findIdx?_eq_none_iff.1 hopen true hmem)
      unfold trackOutside
      dsimp only
      split
      · exact hle
      split
      · exact hle
      split
      · rename_i i hi
        have hlt : i < e.openQuotes.length := h.openQuotes ▸ lt_length_of_findIdx? hi
        simp [List.count_set hlt, hclosed]
      · exact hle
  | some i =>
      dsimp only
      split
      · have hlt := lt_length_of_findIdx? hopen
        simp only [List.count_set hlt]
        simp
        omega
      · exact hle

namespace WellFormed

variable {e : Engine}

theorem start (f : Format) : WellFormed (start f) where
  toInStep := .start f
  open_le_one := by simp [Engine.start, List.count_replicate]
  pending_le_three := by simp [Engine.start]
  pending_eq_nil _ := rfl
  trigger_of_escape h := absurd rfl h
  prevEscaped_of_unicode h := nomatch h

theorem reset (e : Engine) : WellFormed e.reset := .start e.format

theorem configure (h : WellFormed e) (s : Setting) : WellFormed (e.configure s) := by
  cases s with
  | trigger c => exact { h with trigger_of_escape := fun _ => nofun }
  | unicodeCode c => exact { h with }
  | escape code literal => exact { h with }
  | quote c =>
      exact { h with
        openQuotes := by simp [Engine.configure, Format.configure, h.openQuotes]
        open_le_one := by simpa [Engine.configure] using h.open_le_one }
  | brackets left right =>
      exact { h with counts := by simp [Engine.configure, Format.configure, h.counts] }

theorem track (h : WellFormed e) (c : Char) : WellFormed (e.track c) where
  toInStep := (h.toInStep.track c).2
  open_le_one := openQuotes_track_count h.toInStep h.open_le_one c
  pending_le_three := by simpa using h.pending_le_three
  pending_eq_nil := by simpa using h.pending_eq_nil
  trigger_of_escape := by simpa using h.trigger_of_escape
  prevEscaped_of_unicode := by simpa using h.prevEscaped_of_unicode

theorem consider (h : WellFormed e) (c : Char) : WellFormed (e.consider c).2 := by
  cases hphase : e.phase with
  | plain =>
      have hpending : e.pending = [] := h.pending_eq_nil (by simp [hphase])
      by_cases htrigger : e.format.trigger = some c
      · rw [consider_trigger hphase htrigger]
        exact { h with
          pending_eq_nil := fun _ => hpending
          trigger_of_escape := fun _ => by simp [htrigger]
          prevEscaped_of_unicode := nofun }
      · rw [consider_plain hphase htrigger]
        refine WellFormed.track ?_ c
        exact { h with prevEscaped_of_unicode := fun hunicode => by simp [hphase] at hunicode }
  | escaped =>
      have htrigger : e.format.trigger ≠ none := h.trigger_of_escape (by simp [hphase])
      have hpending : e.pending = [] := h.pending_eq_nil (by simp [hphase])
      by_cases hcode : c = e.format.unicodeCode
      · rw [consider_unicodeCode hphase hcode]
        exact { h with
          pending_eq_nil := fun _ => hpending
          trigger_of_escape := fun _ => htrigger
          prevEscaped_of_unicode := fun _ => rfl }
      · rw [consider_code hphase hcode]
        exact { h with
          pending_eq_nil := fun _ => hpending
          trigger_of_escape := fun hne => absurd rfl hne
          prevEscaped_of_unicode := nofun }
  | unicode =>
      by_cases hdigits : e.pending.length < 3
      · rw [consider_digit hphase hdigits]
        exact { h with
          pending_le_three := by rw [List.length_append]; exact hdigits
          pending_eq_nil := fun hne => absurd hphase hne }
      · rw [consider_lastDigit hphase (Nat.not_lt.1 hdigits)]
        exact { h with
          pending_le_three := Nat.zero_le _
          pending_eq_nil := fun _ => rfl
          trigger_of_escape := fun hne => absurd rfl hne
          prevEscaped_of_unicode := nofun }

theorem feed (h : WellFormed e) (text : List Char) : WellFormed (e.feed text).2 := by
  induction text generalizing e with
  | nil => exact h
  | cons c text ih => exact ih (h.consider c)

theorem trailing_eq_nil_iff (h : WellFormed e) : e.trailing = [] ↔ e.phase = .plain := by
  unfold Engine.trailing
  cases hphase : e.phase with
  | plain => simp
  | escaped => simpa using h.trigger_of_escape (by simp [hphase])
  | unicode => simp [Format.unicodeStart]

end WellFormed

end Engine

structure Configured where
  engine : Engine := {}
  settings : List Setting := []

namespace Configured

def configure (x : Configured) (s : Setting) : Configured :=
  ⟨x.engine.configure s, x.settings ++ [s]⟩

def consider (x : Configured) (c : Char) : Configured :=
  { x with engine := (x.engine.consider c).2 }

def reset (x : Configured) : Configured := { x with engine := x.engine.reset }

end Configured

inductive Operation where
  | configure (i : Nat) (s : Setting)
  | consider (i : Nat) (c : Char)
  | clone (i : Nat)
  | reset (i : Nat)
  deriving DecidableEq, Repr

def Operation.apply (xs : List Configured) : Operation → List Configured
  | .configure i s => xs.modify i (·.configure s)
  | .consider i c => xs.modify i (·.consider c)
  | .clone i => xs ++ xs[i]?.toList
  | .reset i => xs ++ (xs[i]?.map Configured.reset).toList

/-- The engines there are after some operations, beginning with one engine that is new. -/
def enginesAfter (operations : List Operation) : List Configured :=
  operations.foldl Operation.apply [{}]

def Engine.Reachable (e : Engine) : Prop :=
  ∃ operations, ∃ x ∈ enginesAfter operations, x.engine = e

private theorem forall_mem_modify {α : Type} {P : α → Prop} {g : α → α} {xs : List α}
    (h : ∀ x ∈ xs, P x) (hg : ∀ x, P x → P (g x)) (i : Nat) : ∀ x ∈ xs.modify i g, P x := by
  intro x hx
  obtain ⟨j, hj⟩ := List.getElem?_of_mem hx
  rw [List.getElem?_modify, Option.map_eq_map, Option.map_eq_some_iff] at hj
  obtain ⟨y, hy, rfl⟩ := hj
  have hP := h y (List.mem_of_getElem? hy)
  split
  · exact hg y hP
  · exact hP

structure Inherited (P : Configured → Prop) : Prop where
  configure : ∀ x s, P x → P (x.configure s)
  consider : ∀ x c, P x → P (x.consider c)
  reset : ∀ x, P x → P x.reset

namespace Inherited

variable {P : Configured → Prop}

theorem apply (h : Inherited P) {xs : List Configured} (hxs : ∀ x ∈ xs, P x)
    (operation : Operation) : ∀ x ∈ operation.apply xs, P x := by
  cases operation with
  | configure i s => exact forall_mem_modify hxs (fun x hx => h.configure x s hx) i
  | consider i c => exact forall_mem_modify hxs (fun x hx => h.consider x c hx) i
  | clone i =>
      intro x hx
      rcases List.mem_append.1 hx with hx | hx
      · exact hxs x hx
      · exact hxs x (List.mem_of_getElem? (Option.mem_toList.1 hx))
  | reset i =>
      intro x hx
      rcases List.mem_append.1 hx with hx | hx
      · exact hxs x hx
      · obtain ⟨y, hy, rfl⟩ := Option.map_eq_some_iff.1 (Option.mem_toList.1 hx)
        exact h.reset y (hxs y (List.mem_of_getElem? hy))

theorem enginesAfter (h : Inherited P) (hnew : P {}) (operations : List Operation) :
    ∀ x ∈ enginesAfter operations, P x := by
  have hrun : ∀ xs : List Configured, (∀ x ∈ xs, P x) →
      ∀ x ∈ operations.foldl Operation.apply xs, P x := by
    induction operations with
    | nil => exact fun xs hxs => hxs
    | cons operation operations ih => exact fun xs hxs => ih _ (h.apply hxs operation)
  exact hrun [{}] (by simpa using hnew)

end Inherited

private theorem inherited_wellFormed : Inherited fun x => x.engine.WellFormed where
  configure _ s h := h.configure s
  consider _ c h := h.consider c
  reset x _ := .reset x.engine

theorem Engine.Reachable.wellFormed {e : Engine} (h : e.Reachable) : e.WellFormed := by
  obtain ⟨operations, x, hx, rfl⟩ := h
  exact inherited_wellFormed.enginesAfter (.start {}) operations x hx

private theorem inherited_format :
    Inherited fun x => x.engine.format = Format.ofSettings x.settings where
  configure x s h := by
    have hformat : (x.engine.configure s).format = x.engine.format.configure s := by
      cases s <;> rfl
    simp [Configured.configure, Format.ofSettings, hformat, h]
  consider x c h := by simpa [Configured.consider] using h
  reset _ h := h

private theorem foldl_configure_start (settings : List Setting) (f : Format) :
    settings.foldl Engine.configure (Engine.start f) =
      Engine.start (settings.foldl Format.configure f) := by
  induction settings generalizing f with
  | nil => rfl
  | cons s settings ih =>
      have hs : (Engine.start f).configure s = Engine.start (f.configure s) := by
        cases s <;> simp [Engine.configure, Engine.start, Format.configure, List.replicate_succ']
      rw [List.foldl_cons, List.foldl_cons, hs, ih]

theorem reachable_engines_wellFormed (operations : List Operation) :
    ∀ x ∈ enginesAfter operations,
      x.engine.WellFormed ∧
      (x.engine.trailing = [] ↔ x.engine.phase = .plain) ∧
      (∀ c, x.engine.consider? c = some (x.engine.consider c)) ∧
      x.engine.reset = x.settings.foldl Engine.configure {} := by
  intro x hx
  have hformed := inherited_wellFormed.enginesAfter (.start {}) operations x hx
  have hformat := inherited_format.enginesAfter rfl operations x hx
  refine ⟨hformed, hformed.trailing_eq_nil_iff, hformed.toInStep.consider?_eq, ?_⟩
  calc x.engine.reset
      = Engine.start (x.settings.foldl Format.configure {}) := by
        rw [Engine.reset, hformat, Format.ofSettings]
    _ = x.settings.foldl Engine.configure {} := (foldl_configure_start x.settings {}).symm

/-- A copy is taken inside a quote, and gets a pair of brackets in the middle of an escape. -/
theorem reachable_engines_wellFormed_midEscape :
    let operations : List Operation :=
      [.configure 0 (.trigger '\\'), .configure 0 (.quote '"'), .consider 0 '"', .clone 0,
        .configure 1 (.quote '\''), .consider 1 '\\', .consider 1 'u', .consider 1 '4',
        .configure 1 (.brackets '(' ')'), .reset 1]
    ∃ x ∈ enginesAfter operations,
      x.settings.length = 4 ∧ x.engine.trailing = ['\\', 'u', '4'] ∧ x.engine.inQuotes = true ∧
      x.engine.WellFormed ∧
      (x.engine.trailing = [] ↔ x.engine.phase = .plain) ∧
      (∀ c, x.engine.consider? c = some (x.engine.consider c)) ∧
      x.engine.reset = x.settings.foldl Engine.configure {} := by
  intro operations
  obtain ⟨x, hx, hlength, htrailing, hquotes⟩ : ∃ x, (enginesAfter operations)[1]? = some x ∧
      x.settings.length = 4 ∧ x.engine.trailing = ['\\', 'u', '4'] ∧ x.engine.inQuotes = true :=
    ⟨_, rfl, rfl, rfl, rfl⟩
  have hmem : x ∈ enginesAfter operations := List.mem_of_getElem? hx
  exact ⟨x, hmem, hlength, htrailing, hquotes, reachable_engines_wellFormed operations x hmem⟩

end TextGrammar.Escape
