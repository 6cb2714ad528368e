import TextGrammar.Proofs.Cursor.Resumption

/-!
# Reading on behind the end

Resolved reads on one cursor share its engine.  Until one of them comes to the end of the text, they
return what a single read of the whole text does, cut into pieces; an escape that the text leaves
unfinished stands at the end of the last piece.  No read takes the engine out of this escape, so
each further one returns it again.
-/

namespace TextGrammar

open Escape

namespace Escape.Engine

variable {e : Engine} {x : Char}

private theorem complete_of_shouldConsider (h : e.WellFormed)
    (hx : (e.consider x).2.shouldConsider = true) (text : List Char) :
    (e.consider x).2.complete (x :: text) = e.complete (x :: text) := by
  obtain ⟨hphase, htrigger⟩ := plain_of_shouldConsider h hx
  obtain ⟨hfirst, hsame⟩ := consider_plain_sameEscape hphase htrigger
  have hphase' : (e.consider x).2.phase = .plain := hsame.phase.trans hphase
  have htrigger' : (e.consider x).2.format.trigger ≠ some x := by simpa using htrigger
  obtain ⟨hagain, hsame'⟩ := consider_plain_sameEscape hphase' htrigger'
  rw [complete_cons, complete_cons e, hagain, hfirst, hsame'.complete]

end Escape.Engine

namespace Cursor

inductive ResolvedRead where
  | readUntilConsidering (p : Char → Bool)
  | readUntilRule (fuel : Nat) (rule : Rule)
  | readUntilAccumulatedConsidering (p : List Char → Bool)
  | readUntilAccumulatedRule (fuel : Nat) (rule : Rule)
  | remainingConsidering

def ResolvedRead.perform (c : Cursor) (e : Engine) :
    ResolvedRead → Option (List Char × Engine × Cursor)
  | .readUntilConsidering p => some (c.readUntilConsidering e p)
  | .readUntilRule fuel rule => c.readUntilRule fuel e rule
  | .readUntilAccumulatedConsidering p => some (c.readUntilAccumulatedConsidering e p)
  | .readUntilAccumulatedRule fuel rule => c.readUntilAccumulatedRule fuel e rule
  | .remainingConsidering => some (c.remainingConsidering e)

def readEach (c : Cursor) (e : Engine) :
    List ResolvedRead → Option (List (List Char) × Engine × Cursor)
  | [] => some ([], e, c)
  | read :: reads => do
      let (text, e, c) ← read.perform c e
      let (texts, e, c) ← readEach c e reads
      some (text :: texts, e, c)

variable {c c' : Cursor} {e e' : Engine} {text : List Char} {texts : List (List Char)}
  {read : ResolvedRead} {reads : List ResolvedRead}

theorem ResolvedRead.resolves {r : List Char × Engine × Cursor} (h : read.perform c e = some r) :
    ∃ k, c.Resolves e k r := by
  cases read with
  | readUntilConsidering p =>
      obtain rfl := Option.some.inj h
      exact ⟨c.context, c.resolves_scanned e _ (Engine.stopAt p) ()⟩
  | readUntilRule fuel rule =>
      obtain ⟨k, -, rfl⟩ := Option.map_eq_some_iff.1 h
      exact ⟨k, c.resolves_scanned e k (stopAtRule fuel rule c.content) (some c.context)⟩
  | readUntilAccumulatedConsidering p =>
      obtain rfl := Option.some.inj h
      exact ⟨c.context, c.resolves_scanned e _ (Engine.stopWhen p) ()⟩
  | readUntilAccumulatedRule fuel rule =>
      obtain ⟨-, -, rfl⟩ := Option.map_eq_some_iff.1 h
      exact ⟨c.context, c.resolves_scanned e _ (stopWhenMatched fuel rule) (some ())⟩
  | remainingConsidering =>
      obtain rfl := Option.some.inj h
      exact ⟨c.context, c.resolves_scanned e _ (Engine.stopAt fun _ => false) ()⟩

private theorem readEach_cons (h : c.readEach e (read :: reads) = some (texts, e', c')) :
    ∃ text e₁ c₁ rest, read.perform c e = some (text, e₁, c₁) ∧
      c₁.readEach e₁ reads = some (rest, e', c') ∧ texts = text :: rest := by
  obtain ⟨⟨text, e₁, c₁⟩, hfirst, hrest⟩ := Option.bind_eq_some_iff.1 h
  obtain ⟨⟨rest, e₂, c₂⟩, hreads, hall⟩ := Option.bind_eq_some_iff.1 hrest
  cases hall
  exact ⟨text, e₁, c₁, rest, hfirst, hreads, rfl⟩

private theorem hasNext_iff : c.hasNext = true ↔ c.ahead ≠ [] := by
  rw [hasNext, decide_eq_true_eq, ahead, Ne, List.drop_eq_nil_iff, Nat.not_le, length]

theorem scanned_nil {σ : Type} (stop : StopCondition σ) (s : σ) :
    c.scanned (e.scanResolved stop s []) = (e.trailing, e, c) := rfl

theorem ResolvedRead.perform_behind_end (hend : c.ahead = []) (e : Engine) (read : ResolvedRead) :
    read.perform c e = some (e.trailing, e, c) := by
  cases read with
  | readUntilConsidering p => simp only [perform, Cursor.readUntilConsidering, hend, scanned_nil]
  | readUntilRule fuel rule =>
      simp only [perform, Cursor.readUntilRule, hend]
      rfl
  | readUntilAccumulatedConsidering p =>
      simp only [perform, Cursor.readUntilAccumulatedConsidering, hend, scanned_nil]
  | readUntilAccumulatedRule fuel rule =>
      simp only [perform, Cursor.readUntilAccumulatedRule, hend]
      rfl
  | remainingConsidering =>
      simp only [perform, Cursor.remainingConsidering, Cursor.readUntilConsidering, hend,
        scanned_nil]

private theorem readEach_behind_end (hend : c.ahead = []) (e : Engine) (reads : List ResolvedRead) :
    c.readEach e reads = some (List.replicate reads.length e.trailing, e, c) := by
  induction reads with
  | nil => rfl
  | cons read reads ih => simp [readEach, read.perform_behind_end hend, ih, List.replicate_succ]

private theorem ahead_advance_length {front rest : List Char} (h : c.ahead = front ++ rest) :
    (c.advance front.length).ahead = rest := by
  simp only [ahead, advance, ← List.drop_drop] at h ⊢
  rw [h, List.drop_left]

theorem Resolves.up_to_end {k : Context} (h : c.Resolves e k (text, e', c'))
    (hend : c'.ahead = []) : text = e.complete c.ahead ∧ e' = (e.feed c.ahead).2 := by
  cases h with
  | stopped hahead =>
      have hrest := ahead_advance_length hahead
      exact absurd (hrest.symm.trans hend) (List.cons_ne_nil _ _)
  | exhausted => exact ⟨rfl, rfl⟩

theorem Resolves.before_end {k : Context} (h : c.Resolves e k (text, e', c'))
    (hnext : c'.ahead ≠ []) (he : e.WellFormed) :
    text ++ e'.complete c'.ahead = e.complete c.ahead ∧ e'.WellFormed := by
  cases h with
  | @stopped front rest x hahead considered =>
      have hrest : (c.advance front.length).ahead = x :: rest := ahead_advance_length hahead
      have hfront : (e.feed front).2.WellFormed := he.feed front
      refine ⟨?_, hfront.consider x⟩
      calc (e.feed front).1 ++
              ((e.feed front).2.consider x).2.complete (c.advance front.length).ahead
          = (e.feed front).1 ++ (e.feed front).2.complete (x :: rest) := by
            rw [hrest, Engine.complete_of_shouldConsider hfront considered]
        _ = e.complete c.ahead := by rw [hahead, Engine.complete_append]
  | exhausted =>
      refine absurd ?_ hnext
      simp only [ahead, advance, List.drop_eq_nil_iff, List.length_drop]
      omega

private theorem readEach_before_end (h : c.readEach e reads = some (texts, e', c'))
    (hnext : reads = [] ∨ c'.ahead ≠ []) (he : e.WellFormed) :
    texts.flatten ++ e'.complete c'.ahead = e.complete c.ahead ∧ e'.WellFormed := by
  induction reads generalizing c e texts with
  | nil =>
      cases h
      exact ⟨rfl, he⟩
  | cons read reads ih =>
      have hnext : c'.ahead ≠ [] := hnext.resolve_left (List.cons_ne_nil _ _)
      obtain ⟨text, e₁, c₁, rest, hfirst, hrest, rfl⟩ := readEach_cons h
      obtain ⟨k, hresolves⟩ := ResolvedRead.resolves hfirst
      -- Behind the end there is no way back.
      have hnext₁ : c₁.ahead ≠ [] := by
        intro hend
        rw [readEach_behind_end hend] at hrest
        cases hrest
        exact hnext hend
      obtain ⟨hpiece, he₁⟩ := hresolves.before_end hnext₁ he
      obtain ⟨hpieces, he'⟩ := ih hrest (.inr hnext) he₁
      refine ⟨?_, he'⟩
      rw [List.flatten_cons, List.append_assoc, hpieces, hpiece]

/-- Behind the read that comes to the end, what the text leaves unfinished is returned by every
further read. -/
theorem unfinished_escape_returns {c₁ c₂ : Cursor} {e₁ e₂ : Engine} {last : ResolvedRead}
    (hreads : c.readEach e.reset reads = some (texts, e₁, c₁))
    (hnext : reads = [] ∨ c₁.hasNext = true)
    (hlast : last.perform c₁ e₁ = some (text, e₂, c₂)) (hend : c₂.hasNext = false) :
    texts.flatten ++ text = decode e.format c.ahead ∧ e₂.trailing <:+ text ∧
      (e₂.trailing = [] ↔ e₂.inEscape = false) ∧
      ∀ later, c₂.readEach e₂ later = some (List.replicate later.length e₂.trailing, e₂, c₂) := by
  have hahead₂ : c₂.ahead = [] := by
    by_cases h : c₂.ahead = []
    · exact h
    · exact absurd (hasNext_iff.2 h) (Bool.eq_false_iff.1 hend)
  obtain ⟨k, hresolves⟩ := ResolvedRead.resolves hlast
  obtain ⟨rfl, rfl⟩ := hresolves.up_to_end hahead₂
  obtain ⟨hpieces, he₁⟩ := readEach_before_end hreads (hnext.imp_right hasNext_iff.1) (.reset e)
  have htrailing := (he₁.feed c₁.ahead).trailing_eq_nil_iff
  exact ⟨hpieces, List.suffix_append _ _, by simpa [Engine.inEscape] using htrailing,
    readEach_behind_end hahead₂ _⟩

/-- A code point with two digits, behind a comma at which the first read stops. -/
theorem unfinished_escape_returns_digits :
    let c : Cursor := { content := ['a', ',', 'b', '\\', 'u', '0', '0'] }
    let e : Engine := .start .standard
    let reads : List ResolvedRead := [.readUntilConsidering (· = ',')]
    let last : ResolvedRead := .readUntilAccumulatedConsidering fun text => text = ['b']
    ∃ texts e₁ c₁ text e₂ c₂,
      c.readEach e.reset reads = some (texts, e₁, c₁) ∧ c₁.hasNext = true ∧
      last.perform c₁ e₁ = some (text, e₂, c₂) ∧ c₂.hasNext = false ∧
      texts.flatten ++ text = decode e.format c.ahead ∧ e₂.trailing <:+ text ∧
      e₂.trailing = ['\\', 'u', '0', '0'] ∧
      c₂.readEach e₂ [.readUntilRule 0 (.literal ","), .remainingConsidering] =
        some ([e₂.trailing, e₂.trailing], e₂, c₂) := by
  intro c e reads last
  have hrun : ((c.readEach e.reset reads).bind fun x => (last.perform x.2.2 x.2.1).map fun y =>
      (x.2.2.hasNext, y.2.2.hasNext, y.2.1.trailing)) =
      some (true, false, ['\\', 'u', '0', '0']) := by decide +kernel
  obtain ⟨⟨texts, e₁, c₁⟩, hreads, hrun⟩ := Option.bind_eq_some_iff.1 hrun
  obtain ⟨⟨text, e₂, c₂⟩, hlast, hrun⟩ := Option.map_eq_some_iff.1 hrun
  obtain ⟨hnext, hend, htrailing⟩ : c₁.hasNext = true ∧ c₂.hasNext = false ∧
      e₂.trailing = ['\\', 'u', '0', '0'] := by simpa using hrun
  obtain ⟨hpieces, hsuffix, -, hlater⟩ := unfinished_escape_returns hreads (.inr hnext) hlast hend
  exact ⟨texts, e₁, c₁, text, e₂, c₂, hreads, hnext, hlast, hend, hpieces, hsuffix, htrailing,
    hlater _⟩

/-- The first read comes to the end, and the trigger it returns there is returned again. -/
theorem unfinished_escape_is_doubled :
    let c : Cursor := { content := ['a', 'b', '\\'] }
    let e : Engine := .start .standard
    (c.remainingConsidering e.reset).2.2.hasNext = false ∧
      (c.readEach e.reset [.remainingConsidering, .remainingConsidering]).map Prod.fst =
        some [['a', 'b', '\\'], ['\\']] := by
  intro c e
  exact ⟨by decide +kernel, by decide +kernel⟩

end Cursor

end TextGrammar
