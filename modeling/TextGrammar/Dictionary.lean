/-!
# Dictionaries

Finite maps from keys to values.  A key occurs at most once, so entering a value for a key drops
the value it had before.
-/

namespace TextGrammar

structure Dictionary (κ α : Type) where
  entries : List (κ × α) := []

namespace Dictionary

variable {κ α : Type} [DecidableEq κ]

def empty : Dictionary κ α := ⟨[]⟩

def find? (d : Dictionary κ α) (key : κ) : Option α :=
  (d.entries.find? fun entry => entry.1 = key).map Prod.snd

def insert (d : Dictionary κ α) (key : κ) (value : α) : Dictionary κ α :=
  ⟨(key, value) :: d.entries.filter fun entry => entry.1 ≠ key⟩

@[simp] theorem find?_empty (key : κ) : (empty : Dictionary κ α).find? key = none := rfl

@[simp] theorem find?_insert_self (d : Dictionary κ α) (key : κ) (value : α) :
    (d.insert key value).find? key = some value := by
  simp [find?, insert]

theorem find?_insert_of_ne (d : Dictionary κ α) {key other : κ} (value : α) (h : other ≠ key) :
    (d.insert key value).find? other = d.find? other := by
  simp only [find?, insert, List.find?_cons, List.find?_filter]
  have hk : (decide (key = other)) = false := by simpa using fun e => h e.symm
  rw [hk]
  have hp : (fun entry : κ × α => decide (entry.1 ≠ key) && decide (entry.1 = other)) =
      fun entry => decide (entry.1 = other) := by
    funext entry
    by_cases he : entry.1 = other
    · simp [he, h]
    · simp [he]
  simp only [Bool.decide_and, Bool.decide_eq_true, hp]

end Dictionary

end TextGrammar
