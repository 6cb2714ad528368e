import TextGrammar.Regex.Program

/-!
# Code at another address

An expression has the same code wherever it is placed, but for the targets of its branches, which
move along.  They lie inside the code or right behind it.  Bringing an expression into normal form
leaves its code alone, so code is put together from the code of the items of a sequence.
-/

namespace TextGrammar.Regex

namespace Instruction

def shift (d : Nat) : Instruction → Instruction
  | .consume s => .consume s
  | .require a => .require a
  | .jump target => .jump (target + d)
  | .split preferred other => .split (preferred + d) (other + d)
  | .accept => .accept

def targets : Instruction → List Nat
  | .jump target => [target]
  | .split preferred other => [preferred, other]
  | .consume _ | .require _ | .accept => []

variable {greedy : Bool} {d enter leave target : Nat}

@[simp] theorem shift_jump : (jump target).shift d = jump (target + d) := rfl

@[simp] theorem shift_split : (split enter leave).shift d = split (enter + d) (leave + d) := rfl

@[simp] theorem shift_accept : accept.shift d = accept := rfl

@[simp] theorem shift_branch :
    (branch greedy enter leave).shift d = branch greedy (enter + d) (leave + d) := by
  cases greedy <;> rfl

@[simp] theorem mem_targets_branch :
    target ∈ (branch greedy enter leave).targets ↔ target = enter ∨ target = leave := by
  cases greedy <;> simp [branch, targets, or_comm]

end Instruction

/-! ## Code -/

namespace Code

/-- Code that does the same at every address, and does not branch out of itself. -/
structure Movable (code : Code) : Prop where
  moved : ∀ here d, code (here + d) = (code here).map (Instruction.shift d)
  within : ∀ here, ∀ i ∈ code here, ∀ target ∈ i.targets, target ≤ here + (code here).length

variable {a b code : Code} {greedy : Bool}

theorem Movable.length_eq (h : code.Movable) (here : Nat) :
    (code here).length = (code 0).length := by
  rw [← Nat.zero_add here, h.moved, List.length_map]

private theorem movable_straight {is : List Instruction} (hshift : ∀ i ∈ is, ∀ d, i.shift d = i)
    (htargets : ∀ i ∈ is, i.targets = []) : Movable fun _ => is where
  moved _ d := (List.map_id is).symm.trans (List.map_congr_left fun i hi => (hshift i hi d).symm)
  within _ i hi target htarget := by simp [htargets i hi] at htarget

theorem Movable.append (ha : a.Movable) (hb : b.Movable) : (a.append b).Movable where
  moved here d := by
    simp only [Code.append, ha.moved, List.length_map, List.map_append]
    rw [Nat.add_right_comm, hb.moved]
  within here i hi target htarget := by
    simp only [Code.append, List.mem_append, List.length_append] at hi ⊢
    rcases hi with hi | hi
    · have := ha.within here i hi target htarget
      omega
    · have := hb.within _ i hi target htarget
      omega

theorem Movable.copies (h : code.Movable) (n : Nat) : (code.copies n).Movable := by
  induction n with
  | zero => exact movable_straight (by simp) (by simp)
  | succ n ih => exact h.append ih

theorem Movable.rounds (h : code.Movable) : (code.rounds greedy).Movable where
  moved here d := by
    simp [Code.rounds, h.moved, Nat.add_right_comm]
  within here i hi target htarget := by
    simp only [Code.rounds, List.mem_append, List.mem_singleton, List.length_append,
      List.length_singleton] at hi ⊢
    rcases hi with hi | rfl
    · have := h.within here i hi target htarget
      omega
    · rw [Instruction.mem_targets_branch] at htarget
      omega

theorem Movable.loop (h : code.Movable) : (code.loop greedy).Movable where
  moved here d := by
    simp [Code.loop, Nat.add_right_comm _ d, h.moved]
  within here i hi target htarget := by
    simp only [Code.loop, List.mem_append, List.mem_cons, List.not_mem_nil, or_false,
      List.length_append, List.length_cons, List.length_nil] at hi ⊢
    rcases hi with (rfl | hi) | rfl
    · rw [Instruction.mem_targets_branch] at htarget
      omega
    · have := h.within _ i hi target htarget
      omega
    · simp only [Instruction.targets, List.mem_singleton] at htarget
      omega

/-! Rounds that may all be left for one place, which lies behind them. -/

theorem Movable.upTo_length (h : code.Movable) (stop n here : Nat) :
    (upTo code greedy stop n here).length = n * ((code 0).length + 1) := by
  induction n generalizing here with
  | zero => simp [upTo]
  | succ n ih =>
      simp only [upTo, List.length_append, List.length_cons, ih, h.length_eq (here + 1)]
      rw [Nat.succ_mul, Nat.add_comm]

theorem Movable.upTo_moved (h : code.Movable) (stop n here d : Nat) :
    upTo code greedy (stop + d) n (here + d) =
      (upTo code greedy stop n here).map (Instruction.shift d) := by
  induction n generalizing here with
  | zero => rfl
  | succ n ih =>
      simp only [upTo, List.map_cons, List.map_append, Instruction.shift_branch,
        Nat.add_right_comm here d 1, h.moved, List.length_map]
      rw [Nat.add_right_comm _ d, ih]

theorem Movable.upTo_within (h : code.Movable) {stop n here : Nat}
    (hstop : here + n * ((code 0).length + 1) ≤ stop) :
    ∀ i ∈ upTo code greedy stop n here, ∀ target ∈ i.targets, target ≤ stop := by
  induction n generalizing here with
  | zero => simp [upTo]
  | succ n ih =>
      rw [Nat.succ_mul] at hstop
      have hlength := h.length_eq (here + 1)
      intro i hi target htarget
      simp only [upTo, List.mem_cons, List.mem_append] at hi
      rcases hi with (rfl | hi) | hi
      · rw [Instruction.mem_targets_branch] at htarget
        omega
      · have := h.within _ i hi target htarget
        omega
      · exact ih (by omega) i hi target htarget

theorem Movable.atMost (h : code.Movable) (n : Nat) : (code.atMost greedy n).Movable where
  moved here d := by
    simp only [Code.atMost, h.length_eq (here + d), h.length_eq here]
    rw [Nat.add_right_comm, h.upTo_moved]
  within here i hi := by
    simp only [Code.atMost, h.length_eq here] at hi ⊢
    rw [h.upTo_length]
    exact h.upTo_within (Nat.le_refl _) i hi

/-! Code one behind the other. -/

def nil : Code := fun _ => []

private theorem nil_append (a : Code) : nil.append a = a := rfl

private theorem append_nil (a : Code) : a.append nil = a := by
  funext here
  simp [append, nil]

private theorem append_assoc (a b c : Code) : (a.append b).append c = a.append (b.append c) := by
  funext here
  simp [append, Nat.add_assoc]

end Code

/-! ## Expressions -/

namespace Expression

theorem assemble_movable (e : Expression) : e.assemble.Movable := by
  induction e with
  | empty => exact Code.movable_straight (by simp) (by simp)
  | literal text =>
      exact Code.movable_straight (by simp [Instruction.shift]) (by simp [Instruction.targets])
  | set s =>
      exact Code.movable_straight (by simp [Instruction.shift]) (by simp [Instruction.targets])
  | look a =>
      exact Code.movable_straight (by simp [Instruction.shift]) (by simp [Instruction.targets])
  | group number e ih => exact ih
  | seq a b iha ihb => exact iha.append ihb
  | alt a b iha ihb =>
      constructor
      · intro here d
        simp [assemble, Nat.add_right_comm _ d, iha.moved, ihb.moved]
      · intro here i hi target htarget
        simp only [assemble, List.mem_append, List.mem_cons, List.length_append,
          List.length_cons] at hi ⊢
        rcases hi with (rfl | hi) | rfl | hi
        · simp only [Instruction.targets, List.mem_cons, List.not_mem_nil, or_false] at htarget
          omega
        · have := iha.within _ i hi target htarget
          omega
        · simp only [Instruction.targets, List.mem_singleton] at htarget
          omega
        · have := ihb.within _ i hi target htarget
          omega
  | repeated min max greedy e ih =>
      cases max with
      | some max => exact (ih.copies min).append (ih.atMost (max - min))
      | none =>
          unfold assemble
          split
          · exact (ih.copies (min - 1)).append ih.rounds
          · split
            · exact ih.rounds.atMost 1
            · exact ih.loop

def inTurn : List Expression → Code
  | [] => Code.nil
  | e :: es => e.assemble.append (inTurn es)

private theorem inTurn_append (es fs : List Expression) :
    inTurn (es ++ fs) = (inTurn es).append (inTurn fs) := by
  induction es with
  | nil => exact (Code.nil_append _).symm
  | cons e es ih => rw [List.cons_append, inTurn, ih, inTurn, Code.append_assoc]

private theorem inTurn_items (e : Expression) : inTurn e.items = e.assemble := by
  induction e with
  | empty => rfl
  | seq a b _ ihb => rw [items, inTurn, ihb]; rfl
  | _ => exact Code.append_nil _

private theorem inTurn_flatMap_items (es : List Expression) :
    inTurn (es.flatMap items) = inTurn es := by
  induction es with
  | nil => rfl
  | cons e es ih => rw [List.flatMap_cons, inTurn_append, inTurn_items, ih, inTurn]

private theorem assemble_ofItems (es : List Expression) : (ofItems es).assemble = inTurn es := by
  fun_induction ofItems es with
  | case1 => rfl
  | case2 e => exact (Code.append_nil _).symm
  | case3 e es _ ih => rw [assemble, ih, inTurn]

private theorem assemble_literal_append (text more : List Char) :
    (literal (text ++ more)).assemble = (literal text).assemble.append (literal more).assemble := by
  funext here
  exact List.map_append

private theorem inTurn_joinLiterals (es : List Expression) :
    inTurn (joinLiterals es) = inTurn es := by
  fun_induction joinLiterals es with
  | case1 => rfl
  | case2 text es more rest hjoin ih =>
      rw [hjoin, inTurn] at ih
      rw [inTurn, inTurn, ← ih, assemble_literal_append, Code.append_assoc]
  | case3 text es _ ih => rw [inTurn, inTurn, ih]
  | case4 e es _ ih => rw [inTurn, inTurn, ih]

private theorem assemble_sequence (es : List Expression) : (sequence es).assemble = inTurn es := by
  rw [sequence, assemble_ofItems, inTurn_joinLiterals, inTurn_flatMap_items]

def totalWeight : List Expression → Nat
  | [] => 0
  | e :: es => e.weight + totalWeight es

private theorem totalWeight_append (es fs : List Expression) :
    totalWeight (es ++ fs) = totalWeight es + totalWeight fs := by
  induction es with
  | nil => exact (Nat.zero_add _).symm
  | cons e es ih => rw [List.cons_append, totalWeight, ih, totalWeight, Nat.add_assoc]

private theorem totalWeight_items (e : Expression) : totalWeight e.items = e.weight := by
  induction e with
  | empty => rfl
  | seq a b _ ihb => rw [items, totalWeight, weight, ihb]
  | _ => exact Nat.add_zero _

private theorem weight_ofItems (es : List Expression) : (ofItems es).weight = totalWeight es := by
  fun_induction ofItems es with
  | case1 => rfl
  | case2 e => exact (Nat.add_zero _).symm
  | case3 e es _ ih => rw [weight, ih]; rfl

private theorem totalWeight_joinLiterals (es : List Expression) :
    totalWeight (joinLiterals es) = totalWeight es := by
  fun_induction joinLiterals es with
  | case1 => rfl
  | case2 text es more rest hjoin ih =>
      simp only [totalWeight, hjoin, weight, List.length_append] at ih ⊢
      omega
  | case3 text es _ ih => simpa [totalWeight] using ih
  | case4 e es _ ih => simpa [totalWeight] using ih

theorem weight_sequence (es : List Expression) : (sequence es).weight = totalWeight es := by
  rw [sequence, weight_ofItems, totalWeight_joinLiterals]
  induction es with
  | nil => rfl
  | cons e es ih =>
      rw [List.flatMap_cons, totalWeight_append, totalWeight_items, ih, totalWeight]

end Expression

/-! ## Programs -/

namespace Program

/-- A condition on the place at which the program starts, and the program behind it. -/
def guarded (a : Assertion) (p : Program) : Program :=
  ⟨(.require a :: p.code.toList.map (.shift 1)).toArray⟩

theorem ofExpression_sequence_singleton (e : Expression) :
    ofExpression (.sequence [e]) = ofExpression e := by
  simp only [ofExpression, Expression.assemble_sequence, Expression.inTurn, Code.append_nil]

theorem ofExpression_look (a : Assertion) (e : Expression) :
    ofExpression (.sequence [.look a, e]) = guarded a (ofExpression e) := by
  have hmoved := e.assemble_movable.moved 0 1
  simp only [ofExpression, guarded, Expression.assemble_sequence, Expression.inTurn,
    Code.append_nil]
  simp [← hmoved, Code.append, Expression.assemble]

end Program

end TextGrammar.Regex
