import TextGrammar.Verdict

/-!
# Verdicts as trees

A verdict with all verdicts inside it, those that are set aside included.
-/

namespace TextGrammar.Verdict

mutual

def inner : Verdict → List Verdict
  | ⟨_, _, _, parts, _⟩ => innerAll parts

def innerAll : List Verdict → List Verdict
  | [] => []
  | v :: vs => v :: inner v ++ innerAll vs

end

@[elab_as_elim]
theorem forestInduction {motive : List Verdict → Prop} (nil : motive [])
    (cons : ∀ v vs, motive v.parts → motive vs → motive (v :: vs)) : ∀ vs, motive vs
  | [] => nil
  | ⟨_, _, _, parts, _⟩ :: vs =>
      cons _ vs (forestInduction nil cons parts) (forestInduction nil cons vs)

def nodes (v : Verdict) : List Verdict := v :: v.inner

private theorem innerAll_eq (vs : List Verdict) : innerAll vs = vs.flatMap nodes := by
  induction vs with
  | nil => simp [innerAll]
  | cons v vs ih => simp [innerAll, nodes, ih]

private theorem inner_eq (v : Verdict) : v.inner = v.parts.flatMap nodes := by
  cases v
  simp [inner, innerAll_eq]

theorem mem_nodes_iff {v node : Verdict} :
    node ∈ v.nodes ↔ node = v ∨ ∃ part ∈ v.parts, node ∈ part.nodes := by
  rw [nodes, List.mem_cons, inner_eq, List.mem_flatMap]

theorem mem_nodes_self (v : Verdict) : v ∈ v.nodes := List.mem_cons_self

theorem forall_mem_nodes_iff {p : Verdict → Prop} {v : Verdict} :
    (∀ node ∈ v.nodes, p node) ↔ p v ∧ ∀ part ∈ v.parts, ∀ node ∈ part.nodes, p node := by
  rw [nodes, inner_eq, List.forall_mem_cons]
  refine and_congr_right fun _ => ⟨fun h part hpart node hnode => ?_, fun h node hnode => ?_⟩
  · exact h node (List.mem_flatMap.2 ⟨part, hpart, hnode⟩)
  · obtain ⟨part, hpart, hinner⟩ := List.mem_flatMap.1 hnode
    exact h part hpart node hinner

@[simp] theorem composed_stop (error : String) (stop : Nat) (parts : List Verdict) :
    (composed error stop parts).stop = stop := by
  unfold composed
  split <;> rfl

@[simp] theorem composed_parts (error : String) (stop : Nat) (parts : List Verdict) :
    (composed error stop parts).parts = parts := by
  unfold composed
  split <;> rfl

theorem composed_eq_success (error : String) (stop : Nat) {parts : List Verdict}
    (h : ∀ v ∈ parts, v.isFailure = false) :
    composed error stop parts = ⟨stop, .success, matchedMessage, parts, false⟩ := by
  have hnone : parts.any isFailure = false := by
    rw [List.any_eq_false]
    exact fun v hv => Bool.eq_false_iff.1 (h v hv)
  rw [composed, hnone]
  rfl

theorem composed_isSuccessful {error : String} {stop : Nat} {parts : List Verdict}
    (h : ∀ v ∈ parts, v.isFailure = false) : (composed error stop parts).isSuccessful = true := by
  rw [composed_eq_success error stop h]
  rfl

end TextGrammar.Verdict
