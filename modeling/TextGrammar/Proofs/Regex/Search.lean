import TextGrammar.Proofs.Regex.Assembly
import TextGrammar.Regex
import Mathlib.Data.Set.Insert

/-!
# What a search finds

Following the threads of a program is a depth first search: the threads that a thread goes on with
take its place in front of all others, and no thread is followed twice.  This is said here without
fuel and without marks, so that programs can be compared.  Threads that were followed to no avail
may be passed over, so a search that keeps its marks from place to place finds the leftmost match.
-/

namespace TextGrammar.Regex

namespace Place

def Of (text : List Char) (place : Place) : Prop :=
  ∃ front, text = front ++ place.ahead ∧ place.index = front.length ∧ place.before = front.getLast?

def behind (before ahead : List Char) : Place := ⟨before.length, before.getLast?, ahead⟩

variable {text : List Char} {place other : Place}

private theorem behind_of (before ahead : List Char) : (behind before ahead).Of (before ++ ahead) :=
  ⟨before, rfl, rfl, rfl⟩

theorem Of.index_le (h : place.Of text) : place.index ≤ text.length := by
  obtain ⟨front, rfl, hindex, -⟩ := h
  simp [hindex]

theorem Of.eq (h : place.Of text) (h' : other.Of text) (hindex : place.index = other.index) :
    place = other := by
  obtain ⟨front, htext, hfront, hbefore⟩ := h
  obtain ⟨front', htext', hfront', hbefore'⟩ := h'
  obtain ⟨rfl, hahead⟩ :=
    List.append_inj (htext.symm.trans htext') (by rw [← hfront, ← hfront', hindex])
  cases place
  cases other
  simp_all

theorem Of.step {c : Char} {cs : List Char} (h : place.Of text) (hahead : place.ahead = c :: cs) :
    (Place.mk (place.index + 1) (some c) cs).Of text := by
  obtain ⟨front, rfl, hindex, -⟩ := h
  exact ⟨front ++ [c], by simp [hahead], by simp [hindex], by simp⟩

end Place

namespace Program

abbrev Thread := Nat × Place

variable {p : Program} {text : List Char} {t : Thread} {ts : List Thread} {stop : Nat}

def next (p : Program) (t : Thread) : List Thread :=
  match p.code[t.1]? with
  | none | some .accept => []
  | some (.jump target) => [(target, t.2)]
  | some (.split preferred other) => [(preferred, t.2), (other, t.2)]
  | some (.require a) => if a.holds t.2.before t.2.ahead.head? then [(t.1 + 1, t.2)] else []
  | some (.consume s) =>
      match t.2.ahead with
      | [] => []
      | c :: cs => if s.contains c then [(t.1 + 1, ⟨t.2.index + 1, some c, cs⟩)] else []

def Accepts (p : Program) (t : Thread) : Prop := p.code[t.1]? = some .accept

instance (p : Program) (t : Thread) : Decidable (p.Accepts t) :=
  inferInstanceAs (Decidable (p.code[t.1]? = some .accept))

def mark (p : Program) (t : Thread) : Nat := t.2.index * p.code.size + t.1

private theorem length_next_le (p : Program) (t : Thread) : (p.next t).length ≤ 2 := by
  unfold next
  repeat' split
  all_goals simp

private theorem follow_nil (p : Program) (fuel : Nat) (marks : Array Bool) :
    p.follow fuel [] marks = (none, marks) := by
  cases fuel <;> rfl

private theorem follow_cons (p : Program) (fuel : Nat) (t : Thread) (ts : List Thread)
    (marks : Array Bool) :
    p.follow (fuel + 1) (t :: ts) marks =
      if marks.getD (p.mark t) true then p.follow fuel ts marks
      else if p.Accepts t then (some t.2.index, marks.setIfInBounds (p.mark t) true)
      else p.follow fuel (p.next t ++ ts) (marks.setIfInBounds (p.mark t) true) := by
  obtain ⟨address, place⟩ := t
  rw [follow]
  simp only [mark, Accepts, next]
  split
  · rfl
  · cases p.code[address]? with
    | none => simp
    | some i =>
        cases i with
        | accept => simp
        | jump target => simp
        | split preferred other => simp
        | require a => by_cases h : a.holds place.before place.ahead.head? <;> simp [h]
        | consume s =>
            cases place.ahead with
            | nil => simp
            | cons c cs => by_cases h : s.contains c <;> simp [h]

/-! ## Depth first search -/

/-- Following threads, given the threads that were followed before: where one accepts first, if one
does, and the threads that were followed in the end. -/
inductive Explores (p : Program) :
    List Thread → Set Thread → Option Nat → Set Thread → Prop
  | done {seen : Set Thread} : Explores p [] seen none seen
  | again {t ts seen seen' result} (h : t ∈ seen) (rest : Explores p ts seen result seen') :
      Explores p (t :: ts) seen result seen'
  | accept {t ts seen} (h : t ∉ seen) (haccepts : p.Accepts t) :
      Explores p (t :: ts) seen (some t.2.index) (insert t seen)
  | go {t ts seen seen' result} (h : t ∉ seen) (haccepts : ¬ p.Accepts t)
      (rest : Explores p (p.next t ++ ts) (insert t seen) result seen') :
      Explores p (t :: ts) seen result seen'

variable {seen seen' seen'' : Set Thread} {result result' : Option Nat}

theorem Explores.unique (h : p.Explores ts seen result seen')
    (h' : p.Explores ts seen result' seen'') : result = result' := by
  induction h with
  | done => cases h'; rfl
  | again hseen _ ih =>
      cases h' with
      | again _ hrest => exact ih hrest
      | accept hnew _ | go hnew _ _ => exact absurd hseen hnew
  | accept hnew haccepts =>
      cases h' with
      | again hseen _ => exact absurd hseen hnew
      | accept _ _ => rfl
      | go _ hnot _ => exact absurd haccepts hnot
  | go hnew hnot _ ih =>
      cases h' with
      | again hseen _ => exact absurd hseen hnew
      | accept _ haccepts => exact absurd haccepts hnot
      | go _ _ hrest => exact ih hrest

/-- No thread of the set accepts, and what they go on with is in it, or waits to be followed. -/
def Explored (p : Program) (seen : Set Thread) (waiting : List Thread) : Prop :=
  ∀ t ∈ seen, ¬ p.Accepts t ∧ ∀ t' ∈ p.next t, t' ∈ seen ∨ t' ∈ waiting

theorem Explored.again (h : p.Explored seen (t :: ts)) (ht : t ∈ seen) : p.Explored seen ts := by
  intro s hs
  refine ⟨(h s hs).1, fun s' hs' => ?_⟩
  rcases (h s hs).2 s' hs' with hseen | hwaits
  · exact .inl hseen
  · rcases List.mem_cons.1 hwaits with rfl | hwaits
    · exact .inl ht
    · exact .inr hwaits

theorem Explored.go (h : p.Explored seen (t :: ts)) (ht : ¬ p.Accepts t) :
    p.Explored (insert t seen) (p.next t ++ ts) := by
  intro s hs
  rcases Set.mem_insert_iff.1 hs with rfl | hs
  · exact ⟨ht, fun s' hs' => .inr (List.mem_append_left _ hs')⟩
  · refine ⟨(h s hs).1, fun s' hs' => ?_⟩
    rcases (h s hs).2 s' hs' with hseen | hwaits
    · exact .inl (Set.mem_insert_of_mem _ hseen)
    · rcases List.mem_cons.1 hwaits with rfl | hwaits
      · exact .inl (Set.mem_insert _ _)
      · exact .inr (List.mem_append_right _ hwaits)

theorem Explores.complete (h : p.Explores ts seen result seen') (hresult : result = none)
    (hseen : p.Explored seen ts) :
    seen ⊆ seen' ∧ (∀ t ∈ ts, t ∈ seen') ∧ p.Explored seen' [] := by
  induction h with
  | done => exact ⟨subset_rfl, by simp, hseen⟩
  | again hagain _ ih =>
      obtain ⟨hsub, hmem, hexplored⟩ := ih hresult (hseen.again hagain)
      exact ⟨hsub, List.forall_mem_cons.2 ⟨hsub hagain, hmem⟩, hexplored⟩
  | accept => simp at hresult
  | go _ hnot _ ih =>
      obtain ⟨hsub, hmem, hexplored⟩ := ih hresult (hseen.go hnot)
      exact ⟨(Set.subset_insert _ _).trans hsub,
        List.forall_mem_cons.2 ⟨hsub (Set.mem_insert _ _),
          fun s hs => hmem s (List.mem_append_right _ hs)⟩, hexplored⟩

theorem Explores.of_seen {us : List Thread} (hus : ∀ u ∈ us, u ∈ seen)
    (h : p.Explores (us ++ ts) seen result seen') : p.Explores ts seen result seen' := by
  induction us with
  | nil => exact h
  | cons u us ih =>
      obtain ⟨hu, hus⟩ := List.forall_mem_cons.1 hus
      cases h with
      | again _ rest => exact ih hus rest
      | accept hnew _ | go hnew _ _ => exact absurd hu hnew

theorem Explores.union (h : p.Explores ts seen result seen') {dead : Set Thread}
    (hdead : p.Explored dead []) : p.Explores ts (seen ∪ dead) result (seen' ∪ dead) := by
  -- What leads nowhere may as well have been followed before.
  induction h with
  | done => exact .done
  | again hseen _ ih => exact .again (.inl hseen) ih
  | @accept t _ _ hnew haccepts =>
      rw [Set.insert_union]
      exact .accept (not_or.2 ⟨hnew, fun ht => (hdead t ht).1 haccepts⟩) haccepts
  | @go t _ _ _ _ hnew hnot _ ih =>
      rw [Set.insert_union] at ih
      by_cases ht : t ∈ dead
      · rw [Set.insert_eq_of_mem (Set.mem_union_right _ ht)] at ih
        have hnext (u : Thread) (hu : u ∈ p.next t) : u ∈ dead :=
          ((hdead t ht).2 u hu).resolve_right List.not_mem_nil
        exact .again (.inr ht) (ih.of_seen fun u hu => .inr (hnext u hu))
      · exact .go (not_or.2 ⟨hnew, ht⟩) hnot ih

/-! ## Programs that stay inside themselves -/

structure Closed (p : Program) : Prop where
  nonempty : 0 < p.code.size
  targets : ∀ (address : Nat) i, p.code[address]? = some i → ∀ target ∈ i.targets,
    target < p.code.size
  goesOn : ∀ (address : Nat) i, p.code[address]? = some i → i ≠ .accept →
    address + 1 < p.code.size

theorem ofExpression_closed (e : Expression) : (ofExpression e).Closed := by
  have hsize : (ofExpression e).code.size = (e.assemble 0).length + 1 := by simp [ofExpression]
  have hcases : ∀ (address : Nat) i, (ofExpression e).code[address]? = some i →
      (i ∈ e.assemble 0 ∧ address < (e.assemble 0).length) ∨ i = .accept := by
    intro address i hi
    simp only [ofExpression, List.getElem?_toArray, List.getElem?_append,
      List.getElem?_singleton] at hi
    split at hi
    · exact .inl ⟨List.mem_of_getElem? hi, ‹_›⟩
    · split at hi <;> simp_all
  refine ⟨by omega, fun address i hi target htarget => ?_, fun address i hi hnot => ?_⟩
  · rcases hcases address i hi with ⟨hmem, -⟩ | rfl
    · have := e.assemble_movable.within 0 i hmem target htarget
      omega
    · simp [Instruction.targets] at htarget
  · rcases hcases address i hi with ⟨-, hlt⟩ | rfl
    · omega
    · exact absurd rfl hnot

def Stands (p : Program) (text : List Char) (t : Thread) : Prop :=
  t.1 < p.code.size ∧ t.2.Of text

theorem Closed.behind_stands (h : p.Closed) (before ahead : List Char) :
    p.Stands (before ++ ahead) (0, .behind before ahead) := ⟨h.nonempty, Place.behind_of _ _⟩

theorem Closed.next_stands (h : p.Closed) (ht : p.Stands text t) :
    ∀ t' ∈ p.next t, p.Stands text t' := by
  obtain ⟨-, hplace⟩ := ht
  intro t' ht'
  unfold next at ht'
  split at ht'
  · simp at ht'
  · simp at ht'
  · rename_i target hcode
    obtain rfl := List.mem_singleton.1 ht'
    exact ⟨h.targets _ _ hcode target (by simp [Instruction.targets]), hplace⟩
  · rename_i preferred other hcode
    simp only [List.mem_cons, List.not_mem_nil, or_false] at ht'
    rcases ht' with rfl | rfl
    · exact ⟨h.targets _ _ hcode preferred (by simp [Instruction.targets]), hplace⟩
    · exact ⟨h.targets _ _ hcode other (by simp [Instruction.targets]), hplace⟩
  · rename_i a hcode
    split at ht'
    · obtain rfl := List.mem_singleton.1 ht'
      exact ⟨h.goesOn _ _ hcode (by simp), hplace⟩
    · simp at ht'
  · rename_i s hcode
    split at ht'
    · simp at ht'
    · rename_i c cs hahead
      split at ht'
      · obtain rfl := List.mem_singleton.1 ht'
        exact ⟨h.goesOn _ _ hcode (by simp), hplace.step hahead⟩
      · simp at ht'

/-! ## Marks and fuel -/

structure Marks (p : Program) (text : List Char) (marks : Array Bool) (seen : Set Thread) :
    Prop where
  size : marks.size = p.code.size * (text.length + 1)
  marked : ∀ t, p.Stands text t → (marks.getD (p.mark t) true = true ↔ t ∈ seen)

private theorem mark_lt (ht : p.Stands text t) : p.mark t < p.code.size * (text.length + 1) := by
  obtain ⟨haddress, hplace⟩ := ht
  have hindex := hplace.index_le
  calc p.mark t < t.2.index * p.code.size + p.code.size := Nat.add_lt_add_left haddress _
    _ = p.code.size * (t.2.index + 1) := by rw [Nat.mul_succ, Nat.mul_comm]
    _ ≤ p.code.size * (text.length + 1) := Nat.mul_le_mul_left _ (by omega)

private theorem mark_injective {t' : Thread} (ht : p.Stands text t) (ht' : p.Stands text t')
    (hmark : p.mark t = p.mark t') : t = t' := by
  obtain ⟨haddress, hplace⟩ := ht
  obtain ⟨haddress', hplace'⟩ := ht'
  have hpos : 0 < p.code.size := by omega
  have hdiv := congrArg (· / p.code.size) hmark
  have hmod := congrArg (· % p.code.size) hmark
  simp only [mark, Nat.mul_comm _ p.code.size, Nat.mul_add_div hpos, Nat.mul_add_mod,
    Nat.div_eq_of_lt haddress, Nat.div_eq_of_lt haddress', Nat.mod_eq_of_lt haddress,
    Nat.mod_eq_of_lt haddress', Nat.add_zero] at hdiv hmod
  exact Prod.ext hmod (hplace.eq hplace' hdiv)

variable {marks : Array Bool} {fuel : Nat}

private theorem marks_initial (p : Program) (text : List Char) :
    p.Marks text (.replicate (p.code.size * (text.length + 1)) false) ∅ where
  size := by simp
  marked t ht := by simp [mark_lt ht]

theorem Marks.insert (h : p.Marks text marks seen) (ht : p.Stands text t) :
    p.Marks text (marks.setIfInBounds (p.mark t) true) (insert t seen) where
  size := by simp [h.size]
  marked t' ht' := by
    have hlt := mark_lt ht
    rw [← h.size] at hlt
    rw [Set.mem_insert_iff, ← h.marked t' ht']
    by_cases hmark : p.mark t = p.mark t'
    · simp [mark_injective ht ht' hmark, ← hmark, hlt]
    · have hne : t' ≠ t := fun heq => hmark (heq ▸ rfl)
      simp [Array.getD_eq_getD_getElem?, hmark, hne]

def unmarked (marks : Array Bool) : Nat := marks.count false

private theorem unmarked_set {i : Nat} (h : marks.getD i true = false) :
    unmarked (marks.setIfInBounds i true) + 1 = unmarked marks := by
  have hlt : i < marks.size := by
    by_contra hge
    simp [hge] at h
  have hget : marks[i] = false := by simpa [hlt] using h
  have hpos : 0 < marks.count false :=
    Array.count_pos_iff.2 (hget ▸ Array.getElem_mem hlt)
  rw [unmarked, Array.setIfInBounds_def, dif_pos hlt, Array.count_set]
  simp only [hget, unmarked]
  simp
  omega

private theorem follow_explores (hp : p.Closed) (hmarks : p.Marks text marks seen)
    (hts : ∀ t ∈ ts, p.Stands text t) (hfuel : 2 * unmarked marks + ts.length ≤ fuel) :
    ∃ seen', p.Explores ts seen (p.follow fuel ts marks).1 seen' ∧
      p.Marks text (p.follow fuel ts marks).2 seen' := by
  -- Every thread that is not met again sets a mark and brings at most two threads.
  induction fuel generalizing ts marks seen with
  | zero =>
      obtain rfl := List.length_eq_zero_iff.1 (by omega : ts.length = 0)
      exact ⟨seen, .done, hmarks⟩
  | succ fuel ih =>
      cases ts with
      | nil => exact ⟨seen, follow_nil p _ marks ▸ .done, follow_nil p _ marks ▸ hmarks⟩
      | cons t ts =>
          obtain ⟨ht, hts⟩ := List.forall_mem_cons.1 hts
          rw [List.length_cons] at hfuel
          rw [follow_cons]
          split
          · rename_i hmarked
            obtain ⟨seen', hrest, hmarks'⟩ := ih hmarks hts (by omega)
            exact ⟨seen', .again ((hmarks.marked t ht).1 hmarked) hrest, hmarks'⟩
          · rename_i hmarked
            have hnew : t ∉ seen := fun hseen => hmarked ((hmarks.marked t ht).2 hseen)
            split
            · rename_i haccepts
              exact ⟨_, .accept hnew haccepts, hmarks.insert ht⟩
            · rename_i hnot
              have hless := unmarked_set (Bool.eq_false_iff.2 hmarked)
              have hnext := p.length_next_le t
              obtain ⟨seen', hrest, hmarks'⟩ := ih (hmarks.insert ht)
                (List.forall_mem_append.2 ⟨hp.next_stands ht, hts⟩)
                (by rw [List.length_append]; omega)
              exact ⟨seen', .go hnew hnot hrest, hmarks'⟩

theorem Marks.fuel_enough (hmarks : p.Marks text marks seen) (t : Thread) :
    2 * unmarked marks + [t].length ≤ p.followFuel text.length := by
  have hcount : unmarked marks ≤ marks.size := Array.count_le_size
  rw [hmarks.size] at hcount
  simp only [followFuel, List.length_singleton]
  omega

variable {before ahead : List Char}

/-- How many characters lie in front of the end of the preferred match of those that begin between
the texts. -/
def endAt? (p : Program) (before ahead : List Char) : Option Nat :=
  (p.follow (p.followFuel (before ++ ahead).length) [(0, .behind before ahead)]
    (.replicate (p.code.size * ((before ++ ahead).length + 1)) false)).1

theorem endAt?_explores (hp : p.Closed) (before ahead : List Char) :
    ∃ seen, p.Explores [(0, .behind before ahead)] ∅ (p.endAt? before ahead) seen := by
  have hmarks := marks_initial p (before ++ ahead)
  obtain ⟨seen, hexplores, -⟩ := follow_explores hp hmarks
    (List.forall_mem_singleton.2 (hp.behind_stands before ahead)) (hmarks.fuel_enough _)
  exact ⟨seen, hexplores⟩

private theorem follow_eq_endAt? (hp : p.Closed) (htext : before ++ ahead = text)
    (hmarks : p.Marks text marks seen) (hdead : p.Explored seen []) :
    (p.follow (p.followFuel text.length) [(0, .behind before ahead)] marks).1 =
      p.endAt? before ahead := by
  subst htext
  obtain ⟨seen', hexplores, -⟩ := follow_explores hp hmarks
    (List.forall_mem_singleton.2 (hp.behind_stands before ahead)) (hmarks.fuel_enough _)
  obtain ⟨fresh, hfresh⟩ := endAt?_explores hp before ahead
  have hunion := hfresh.union hdead
  rw [Set.empty_union] at hunion
  exact hexplores.unique hunion

private theorem next_index_le {t' : Thread} (h : t' ∈ p.next t) : t.2.index ≤ t'.2.index := by
  unfold next at h
  repeat' split at h
  all_goals simp at h
  all_goals grind

theorem Explores.index_le (h : p.Explores ts seen result seen') (hresult : result = some stop)
    {n : Nat} (hts : ∀ t ∈ ts, n ≤ t.2.index) : n ≤ stop := by
  induction h with
  | done => cases hresult
  | again _ _ ih => exact ih hresult (List.forall_mem_cons.1 hts).2
  | accept => exact Option.some.inj hresult ▸ (List.forall_mem_cons.1 hts).1
  | go _ _ _ ih =>
      obtain ⟨ht, hts⟩ := List.forall_mem_cons.1 hts
      refine ih hresult (List.forall_mem_append.2 ⟨fun t' ht' => ?_, hts⟩)
      exact Nat.le_trans ht (next_index_le ht')

private theorem le_endAt? (hp : p.Closed) (h : p.endAt? before ahead = some stop) :
    before.length ≤ stop := by
  obtain ⟨seen, hexplores⟩ := endAt?_explores hp before ahead
  exact hexplores.index_le h (List.forall_mem_singleton.2 (Nat.le_refl _))

/-! ## Leftmost matches -/

def meaning (p : Program) : Meaning := fun before ahead =>
  (p.endAt? before ahead).map fun stop => ahead.take (stop - before.length)

private theorem take_endAt? (hp : p.Closed) (htext : before ++ ahead = text) :
    (p.endAt? before ahead).map text.take = (p.meaning before ahead).map (before ++ ·) := by
  subst htext
  rw [meaning, Option.map_map]
  cases hend : p.endAt? before ahead with
  | none => rfl
  | some stop =>
      have hle := le_endAt? hp hend
      simp [List.take_append, List.take_of_length_le hle]

private theorem searchFrom_cons (p : Program) (fuel : Nat) (marks : Array Bool) (before : List Char)
    (c : Char) (cs : List Char) :
    p.searchFrom fuel marks before.getLast? before.length (c :: cs) =
      (p.follow fuel [(0, .behind before (c :: cs))] marks).1.or
        (p.searchFrom fuel (p.follow fuel [(0, .behind before (c :: cs))] marks).2
          (before ++ [c]).getLast? (before ++ [c]).length cs) := by
  rw [searchFrom, List.getLast?_concat, List.length_append, List.length_singleton, Place.behind]
  cases p.follow fuel [(0, ⟨before.length, before.getLast?, c :: cs⟩)] marks with
  | mk stop marks => cases stop <;> rfl

private theorem searchFrom_eq_leftmost (hp : p.Closed) (htext : before ++ ahead = text)
    (hmarks : p.Marks text marks seen) (hdead : p.Explored seen []) :
    (p.searchFrom (p.followFuel text.length) marks before.getLast? before.length ahead).map
        text.take = p.meaning.leftmostEnd? before ahead := by
  -- The marks that are kept are those of threads that led nowhere.
  have hfirst := follow_eq_endAt? hp htext hmarks hdead
  have htake := take_endAt? hp htext
  induction ahead generalizing before marks seen with
  | nil =>
      rw [Meaning.leftmostEnd?, ← htake, ← hfirst]
      rfl
  | cons c cs ih =>
      obtain ⟨seen', hexplores, hmarks'⟩ := follow_explores hp hmarks
        (List.forall_mem_singleton.2 (htext ▸ hp.behind_stands before (c :: cs)))
        (hmarks.fuel_enough _)
      rw [searchFrom_cons, Option.map_or, hfirst, htake, Meaning.leftmostEnd?]
      cases hend : p.endAt? before (c :: cs) with
      | some stop => simp [meaning, hend]
      | none =>
          have hseen : p.Explored seen [(0, .behind before (c :: cs))] := fun t ht =>
            ⟨(hdead t ht).1, fun t' ht' => .inl (((hdead t ht).2 t' ht').resolve_right (by simp))⟩
          obtain ⟨-, -, hdead'⟩ := hexplores.complete (hfirst.trans hend) hseen
          have htext' : before ++ [c] ++ cs = text := by rw [← htext, List.append_assoc]; rfl
          rw [ih htext' hmarks' hdead' (follow_eq_endAt? hp htext' hmarks' hdead')
            (take_endAt? hp htext')]

theorem search_eq_leftmost (hp : p.Closed) (text : List Char) :
    (p.search text).map text.take = p.meaning.leftmostEnd? [] text :=
  searchFrom_eq_leftmost hp (List.nil_append text) (marks_initial p text) fun _ h => h.elim

end Program

end TextGrammar.Regex
