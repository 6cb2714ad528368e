/-!
# Fuel

What may go on for ever is given fuel and answers nothing when this runs out.  Mostly it is steady:
more fuel never changes an answer, so there is no other, and two of them can be had with the same
amount.
-/

namespace TextGrammar

variable {α β : Type} {x : Nat → Option α} {y : Nat → Option β} {fuel fuel' : Nat} {a : α} {b : β}

/-- More fuel never changes an answer. -/
def Steady (x : Nat → Option α) : Prop :=
  ∀ ⦃fuel fuel' : Nat⦄, fuel ≤ fuel' → ∀ a, x fuel = some a → x fuel' = some a

def Yields (x : Nat → Option α) (a : α) : Prop := ∃ fuel, x fuel = some a

/-- From some amount of fuel on there is an answer, and always the same. -/
def Settles (x : Nat → Option α) : Prop := ∃ a enough, ∀ fuel, enough ≤ fuel → x fuel = some a

theorem Steady.together (hx : Steady x) (hy : Steady y) (ha : x fuel = some a)
    (hb : y fuel' = some b) : ∃ more, x more = some a ∧ y more = some b :=
  ⟨Nat.max fuel fuel', hx (Nat.le_max_left fuel fuel') a ha, hy (Nat.le_max_right fuel fuel') b hb⟩

theorem Steady.map (hx : Steady x) (f : α → β) : Steady fun fuel => (x fuel).map f := by
  intro fuel fuel' hle b hb
  obtain ⟨a, ha, rfl⟩ := Option.map_eq_some_iff.1 hb
  exact Option.map_eq_some_iff.2 ⟨a, hx hle a ha, rfl⟩

theorem Steady.unique {a' : α} (hx : Steady x) (h : Yields x a) (h' : Yields x a') : a = a' := by
  obtain ⟨fuel, ha⟩ := h
  obtain ⟨fuel', ha'⟩ := h'
  obtain ⟨more, ha, ha'⟩ := hx.together hx ha ha'
  exact Option.some.inj (ha.symm.trans ha')

namespace Settles

theorem answer (a : α) : Settles fun _ => some a := ⟨a, 0, fun _ _ => rfl⟩

theorem succ (h : Settles fun fuel => x (fuel + 1)) : Settles x := by
  obtain ⟨a, enough, ha⟩ := h
  refine ⟨a, enough + 1, fun fuel hfuel => ?_⟩
  obtain ⟨more, rfl⟩ : ∃ more, fuel = more + 1 := ⟨fuel - 1, by omega⟩
  exact ha more (by omega)

theorem add (h : Settles x) (more : Nat) : Settles fun fuel => x (fuel + more) := by
  obtain ⟨a, enough, ha⟩ := h
  exact ⟨a, enough, fun fuel hfuel => ha _ (by omega)⟩

theorem bind {f : Nat → α → Option β} (h : Settles x)
    (hf : ∀ fuel a, x fuel = some a → Settles fun fuel => f fuel a) :
    Settles fun fuel => x fuel >>= f fuel := by
  obtain ⟨a, enough, ha⟩ := h
  obtain ⟨b, enough', hb⟩ := hf enough a (ha enough (Nat.le_refl enough))
  -- The larger amount is enough for both.
  refine ⟨b, Nat.max enough enough', fun fuel hfuel => Option.bind_eq_some_iff.2 ⟨a, ?_, ?_⟩⟩
  · exact ha fuel (Nat.le_trans (Nat.le_max_left enough enough') hfuel)
  · exact hb fuel (Nat.le_trans (Nat.le_max_right enough enough') hfuel)

theorem andThen {f : α → Option β} (h : Settles x) (hf : ∀ a, ∃ b, f a = some b) :
    Settles fun fuel => x fuel >>= f := by
  refine h.bind fun _ a _ => ?_
  obtain ⟨b, hb⟩ := hf a
  exact ⟨b, 0, fun _ _ => hb⟩

end Settles

end TextGrammar
