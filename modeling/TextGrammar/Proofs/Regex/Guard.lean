import TextGrammar.Proofs.Regex.Search

/-!
# Programs behind a condition

Behind a condition on the place at which it starts, a program does what it does alone, one address
further on.  Where the condition does not hold it finds nothing.
-/

namespace TextGrammar.Regex.Program

variable {p : Program} {t : Thread} {ts : List Thread}
  {seen seen' : Set Thread} {result : Option Nat} {a : Assertion}

/-- The thread of the guarded program that does what a thread of the program does. -/
def behindGuard (t : Thread) : Thread := (t.1 + 1, t.2)

private theorem behindGuard_injective : Function.Injective behindGuard := by
  rintro ⟨address, place⟩ ⟨address', place'⟩ h
  simpa [behindGuard] using h

private theorem guarded_code_succ (a : Assertion) (p : Program) (address : Nat) :
    (guarded a p).code[address + 1]? = p.code[address]?.map (.shift 1) := by
  simp [guarded]

private theorem guarded_accepts_iff : (guarded a p).Accepts (behindGuard t) ↔ p.Accepts t := by
  rw [Accepts, behindGuard, guarded_code_succ, Accepts]
  cases p.code[t.1]? with
  | none => simp
  | some i => cases i <;> simp [Instruction.shift]

private theorem guarded_next (a : Assertion) (p : Program) (t : Thread) :
    (guarded a p).next (behindGuard t) = (p.next t).map behindGuard := by
  obtain ⟨address, index, before, ahead⟩ := t
  simp only [next, behindGuard, guarded_code_succ]
  cases p.code[address]? with
  | none => rfl
  | some i =>
      cases i with
      | accept | jump target | split preferred other => rfl
      | require a =>
          by_cases h : a.holds before ahead.head? <;> simp [Instruction.shift, behindGuard, h]
      | consume s =>
          cases ahead with
          | nil => rfl
          | cons c cs =>
              by_cases h : s.contains c <;> simp [Instruction.shift, behindGuard, h]

theorem Explores.guarded (h : p.Explores ts seen result seen') {met : Set Thread}
    (hmet : ∀ t, behindGuard t ∈ met ↔ t ∈ seen) :
    ∃ met', (Program.guarded a p).Explores (ts.map behindGuard) met result met' := by
  have hinsert {seen met : Set Thread} (hmet : ∀ t, behindGuard t ∈ met ↔ t ∈ seen) (s : Thread) :
      ∀ t, behindGuard t ∈ insert (behindGuard s) met ↔ t ∈ insert s seen := by
    simp [Set.mem_insert_iff, behindGuard_injective.eq_iff, hmet]
  induction h generalizing met with
  | done => exact ⟨met, .done⟩
  | @again t _ _ _ _ hseen _ ih =>
      obtain ⟨met', hrest⟩ := ih hmet
      exact ⟨met', .again ((hmet t).2 hseen) hrest⟩
  | @accept t _ _ hnew haccepts =>
      exact ⟨_, .accept (mt (hmet t).1 hnew) (guarded_accepts_iff.2 haccepts)⟩
  | @go t _ _ _ _ hnew hnot _ ih =>
      obtain ⟨met', hrest⟩ := ih (hinsert hmet t)
      rw [List.map_append, ← guarded_next a] at hrest
      exact ⟨met', .go (mt (hmet t).1 hnew) (mt guarded_accepts_iff.1 hnot) hrest⟩

theorem Closed.guarded (h : p.Closed) (a : Assertion) : (Program.guarded a p).Closed := by
  have hsize : (Program.guarded a p).code.size = p.code.size + 1 := by simp [Program.guarded]
  have hpos := h.nonempty
  refine ⟨by omega, fun address i hi target htarget => ?_, fun address i hi hnot => ?_⟩
  · cases address with
    | zero =>
        obtain rfl : i = .require a := by simpa [Program.guarded] using hi.symm
        simp [Instruction.targets] at htarget
    | succ address =>
        rw [guarded_code_succ, Option.map_eq_some_iff] at hi
        obtain ⟨i, hi, rfl⟩ := hi
        have hlt := h.targets address i hi
        cases i <;> simp [Instruction.targets, Instruction.shift] at hlt htarget <;> omega
  · cases address with
    | zero => omega
    | succ address =>
        rw [guarded_code_succ, Option.map_eq_some_iff] at hi
        obtain ⟨i, hi, rfl⟩ := hi
        have hlt := h.goesOn address i hi (by rintro rfl; exact hnot rfl)
        omega

private theorem guarded_code_zero (a : Assertion) (p : Program) :
    (guarded a p).code[0]? = some (.require a) := by
  simp [guarded]

theorem meaning_guarded (hp : p.Closed) (a : Assertion) (before ahead : List Char) :
    (guarded a p).meaning before ahead =
      if a.holds before.getLast? ahead.head? then p.meaning before ahead else none := by
  let start : Place := .behind before ahead
  obtain ⟨seen, hexplores⟩ := endAt?_explores hp before ahead
  obtain ⟨met, hguarded⟩ := endAt?_explores (hp.guarded a) before ahead
  have hnot : ¬ (guarded a p).Accepts (0, start) := by simp [Accepts, guarded_code_zero]
  cases hholds : a.holds before.getLast? ahead.head? with
  | true =>
      have hnext : (guarded a p).next (0, start) = [behindGuard (0, start)] := by
        simp [next, guarded_code_zero, behindGuard, start, Place.behind, hholds]
      have hmet (t : Thread) : behindGuard t ∈ insert (0, start) (∅ : Set Thread) ↔
          t ∈ (∅ : Set Thread) := by simp [behindGuard]
      obtain ⟨met', hbehind⟩ := hexplores.guarded (a := a) hmet
      have hend := hguarded.unique (.go (by simp) hnot (by rw [hnext]; exact hbehind))
      rw [meaning, hend, meaning]
      rfl
  | false =>
      have hnext : (guarded a p).next (0, start) = [] := by
        simp [next, guarded_code_zero, start, Place.behind, hholds]
      have hend := hguarded.unique (.go (by simp) hnot (by rw [hnext]; exact .done))
      rw [meaning, hend]
      rfl

end TextGrammar.Regex.Program
