import TextGrammar.Proofs.Verdict.Tree
import TextGrammar.Verdict.Message

/-!
# Messages as outlines

A message is the outline of what it shows of a verdict: one line for each verdict, from the root on,
and its margin says how deep the verdict lies.  Whatever the verdicts say, an outline of lines can
be read back.  The offset ends at the first bracket and the label at the first colon, and whether
there is something below a line is seen from the margin of the next one: how the line itself ends
does not tell, since what a verdict says may end just so.
-/

namespace TextGrammar

structure Shown where
  stop : Nat
  outcome : Outcome
  message : String
  parts : List Shown

structure Place where
  depth : Nat
  shown : Shown

namespace Shown

mutual

/-- The root first, and each part with what is below it before the next part. -/
def places (depth : Nat) : Shown → List Place
  | ⟨stop, outcome, message, parts⟩ =>
      ⟨depth, ⟨stop, outcome, message, parts⟩⟩ :: placesOfParts (depth + 1) parts

def placesOfParts (depth : Nat) : List Shown → List Place
  | [] => []
  | part :: parts => places depth part ++ placesOfParts depth parts

end

theorem places_eq (depth : Nat) (shown : Shown) :
    shown.places depth = ⟨depth, shown⟩ :: placesOfParts (depth + 1) shown.parts := by
  cases shown
  rw [places]

@[elab_as_elim]
theorem forestInduction {motive : List Shown → Prop} (nil : motive [])
    (cons : ∀ first behind, motive first.parts → motive behind → motive (first :: behind)) :
    ∀ forest, motive forest
  | [] => nil
  | ⟨_, _, _, parts⟩ :: behind =>
      cons _ behind (forestInduction nil cons parts) (forestInduction nil cons behind)

end Shown

namespace Place

def suffix (place : Place) : List Char :=
  if place.shown.parts.isEmpty then [] else ". Caused by:".toList

def text (place : Place) : List Char :=
  (Verdict.headline place.shown.stop place.shown.outcome place.shown.message).toList

def line (place : Place) : List Char := Text.indentation place.depth ++ (place.text ++ place.suffix)

end Place

namespace Verdict

mutual

/-- Hidden parts are left out, with all that is below them. -/
def shown (debug : Bool) : Verdict → Shown
  | ⟨stop, outcome, message, parts, _⟩ => ⟨stop, outcome, message, shownParts debug parts⟩

def shownParts (debug : Bool) : List Verdict → List Shown
  | [] => []
  | part :: parts =>
      if isVisible debug part then shown debug part :: shownParts debug parts
      else shownParts debug parts

end

mutual

def withoutAsides : Verdict → Verdict
  | ⟨stop, outcome, message, parts, aside⟩ =>
      ⟨stop, outcome, message, partsWithoutAsides parts, aside⟩

def partsWithoutAsides : List Verdict → List Verdict
  | [] => []
  | part :: parts =>
      if part.aside then partsWithoutAsides parts
      else withoutAsides part :: partsWithoutAsides parts

end

private theorem shown_eq (debug : Bool) (v : Verdict) :
    v.shown debug = ⟨v.stop, v.outcome, v.message, shownParts debug v.parts⟩ := by
  cases v
  rw [shown]

private theorem withoutAsides_eq (v : Verdict) :
    v.withoutAsides = { v with parts := partsWithoutAsides v.parts } := by
  cases v
  rw [withoutAsides]

private theorem shownParts_partsWithoutAsides (vs : List Verdict) :
    shownParts true (partsWithoutAsides vs) = shownParts false vs := by
  induction vs using forestInduction with
  | nil => rfl
  | cons v vs ihParts ihRest =>
      rw [partsWithoutAsides, shownParts]
      cases haside : v.aside with
      | true => simpa [isVisible, haside] using ihRest
      | false => simp [isVisible, haside, shownParts, shown_eq, withoutAsides_eq, ihParts, ihRest]

private theorem shown_withoutAsides (v : Verdict) : v.withoutAsides.shown true = v.shown false := by
  rw [shown_eq, shown_eq, withoutAsides_eq]
  simp [shownParts_partsWithoutAsides]

/-! ## The lines of a message -/

private theorem isEmpty_shownParts (debug : Bool) (vs : List Verdict) :
    (shownParts debug vs).isEmpty = !vs.any (isVisible debug) := by
  induction vs with
  | nil => rfl
  | cons v vs ih => cases hv : isVisible debug v <;> simp [shownParts, hv, ih]

private theorem lines_eq_cons (debug : Bool) (depth : Nat) (v : Verdict) :
    v.lines debug depth = String.ofList (Place.line ⟨depth, v.shown debug⟩) ::
      linesOfParts debug (depth + 1) v.parts := by
  obtain ⟨stop, outcome, message, parts, aside⟩ := v
  have hsuffix : (Place.suffix ⟨depth, shown debug ⟨stop, outcome, message, parts, aside⟩⟩) =
      (if parts.any (isVisible debug) then ". Caused by:" else "").toList := by
    rw [Place.suffix, shown, isEmpty_shownParts]
    cases parts.any (isVisible debug) <;> rfl
  rw [lines, Place.line, hsuffix]
  simp [Place.text, shown, String.ofList_append, String.append_assoc]

private theorem linesOfParts_eq (debug : Bool) (depth : Nat) (vs : List Verdict) :
    linesOfParts debug depth vs =
      (Shown.placesOfParts depth (shownParts debug vs)).map
        fun place => String.ofList place.line := by
  induction vs using forestInduction generalizing depth with
  | nil => rfl
  | cons v vs ihParts ihRest =>
      rw [linesOfParts, shownParts, ihRest]
      cases isVisible debug v with
      | true => simp [lines_eq_cons, Shown.placesOfParts, Shown.places_eq, shown_eq, ihParts]
      | false => simp

private theorem lines_eq (debug : Bool) (v : Verdict) :
    v.lines debug 0 = ((v.shown debug).places 0).map fun place => String.ofList place.line := by
  rw [lines_eq_cons, linesOfParts_eq, Shown.places_eq]
  simp [shown_eq]

private theorem toList_render (debug : Bool) (v : Verdict) :
    (v.render debug).toList =
      ((v.shown debug).places 0).flatMap fun place => place.line ++ ['\n'] := by
  rw [render, lines_eq]
  simp [String.toList_join, List.flatMap_map]

end Verdict

/-! ## Lines read back -/

namespace Text

private theorem eq_of_append_cons_eq {x : Char} {a b c d : List Char} (ha : x ∉ a) (hb : x ∉ b)
    (h : a ++ x :: c = b ++ x :: d) : a = b ∧ c = d := by
  have hsplit := congrArg (List.splitOn x) h
  rw [List.splitOn_append_cons_self_of_not_mem ha, List.splitOn_append_cons_self_of_not_mem hb]
    at hsplit
  obtain ⟨rfl, -⟩ := List.cons.inj hsplit
  exact ⟨rfl, by simpa using h⟩

private theorem not_mem_toDigits {x : Char} (hx : x.isDigit = false) (n : Nat) :
    x ∉ Nat.toDigits 10 n := by
  intro hmem
  have hdigit := Nat.isDigit_of_mem_toDigits (by decide) (by decide) hmem
  exact absurd (hx.symm.trans hdigit) nofun

private theorem toDigits_injective {m n : Nat} (h : Nat.toDigits 10 m = Nat.toDigits 10 n) :
    m = n := by
  have hread := congrArg (fun digits => Nat.ofDigitChars 10 digits 0) h
  simpa only [Nat.ofDigitChars_toDigits (by decide : 1 < 10) (by decide : 10 ≤ 10)] using hread

end Text

namespace Outcome

private theorem label_injective {outcome outcome' : Outcome} (h : outcome.label = outcome'.label) :
    outcome = outcome' := by
  cases outcome <;> cases outcome' <;> simp_all [label]

private theorem colon_not_mem_label (outcome : Outcome) : ':' ∉ outcome.label.toList := by
  cases outcome <;> simp [label]

end Outcome

namespace Verdict

open Text (not_mem_toDigits)

private theorem toList_headline (stop : Nat) (outcome : Outcome) (message : String) :
    (headline stop outcome message).toList =
      '[' :: (Nat.toDigits 10 stop ++ ']' :: ' ' :: (outcome.label.toList ++ ':' ::
        ((" " ++ (if outcome.isSuccessful then "Successful" else "Unsuccessful") ++ ": ").toList ++
          message.toList))) := by
  simp [headline]

private theorem headline_injective {stop stop' : Nat} {outcome outcome' : Outcome}
    {message message' : String}
    (h : headline stop outcome message = headline stop' outcome' message') :
    stop = stop' ∧ outcome = outcome' ∧ message = message' := by
  have hlist := congrArg String.toList h
  rw [toList_headline, toList_headline] at hlist
  obtain ⟨hdigits, hrest⟩ := Text.eq_of_append_cons_eq (not_mem_toDigits (by decide) stop)
    (not_mem_toDigits (by decide) stop') (List.cons.inj hlist).2
  obtain ⟨hlabel, hmessage⟩ := Text.eq_of_append_cons_eq outcome.colon_not_mem_label
    outcome'.colon_not_mem_label (List.cons.inj hrest).2
  obtain rfl : stop = stop' := Text.toDigits_injective hdigits
  obtain rfl : outcome = outcome' := Outcome.label_injective (String.toList_inj.1 hlabel)
  exact ⟨rfl, rfl, String.toList_inj.1 (List.append_cancel_left hmessage)⟩

end Verdict

namespace Place

theorem line_eq (place : Place) :
    ∃ behind, place.line = List.replicate (4 * place.depth) ' ' ++ '[' :: behind := by
  rw [line, text, Verdict.toList_headline]
  exact ⟨_, by rw [Text.indentation, List.cons_append]⟩

theorem takeWhile_line (place : Place) :
    place.line.takeWhile (· = ' ') = List.replicate (4 * place.depth) ' ' := by
  obtain ⟨behind, hline⟩ := place.line_eq
  rw [hline, List.takeWhile_append_of_pos (by simp), List.takeWhile_cons_of_neg (by decide),
    List.append_nil]

theorem depth_eq_of_line_eq {place other : Place} (h : place.line = other.line) :
    place.depth = other.depth := by
  have hmargin := congrArg (fun line => (line.takeWhile (· = ' ')).length) h
  simp only [takeWhile_line, List.length_replicate] at hmargin
  omega

theorem shown_eq_of_line_eq {place other : Place} (h : place.line = other.line)
    (hparts : place.shown.parts = other.shown.parts) : place.shown = other.shown := by
  obtain ⟨depth, stop, outcome, message, parts⟩ := place
  obtain ⟨depth', stop', outcome', message', parts'⟩ := other
  obtain rfl : depth = depth' := depth_eq_of_line_eq h
  obtain rfl : parts = parts' := hparts
  have htext := List.append_cancel_right (List.append_cancel_left h)
  obtain ⟨rfl, rfl, rfl⟩ := Verdict.headline_injective (String.toList_inj.1 htext)
  rfl

end Place

/-- No line, or one that starts further left than what lies at this depth. -/
def Closes (depth : Nat) (lines : List (List Char)) : Prop :=
  ∀ line ∈ lines.head?, (line.takeWhile (· = ' ')).length < 4 * depth

private theorem closes_nil (depth : Nat) : Closes depth [] := nofun

private theorem closes_cons {depth : Nat} {place : Place} {lines : List (List Char)} :
    Closes depth (place.line :: lines) ↔ place.depth < depth := by
  simp [Closes, Place.takeWhile_line]

namespace Shown

theorem closes_placesOfParts {depth : Nat} {lines : List (List Char)} (h : Closes depth lines)
    (forest : List Shown) :
    Closes (depth + 1) ((placesOfParts depth forest).map Place.line ++ lines) := by
  cases forest with
  | nil => exact fun line hline => Nat.lt_of_lt_of_le (h line hline) (by omega)
  | cons first behind =>
      rw [placesOfParts, places_eq]
      exact closes_cons.2 (Nat.lt_succ_self depth)

theorem eq_of_lines_eq {forest other : List Shown} {depth : Nat} {lines lines' : List (List Char)}
    (hlines : Closes depth lines) (hlines' : Closes depth lines')
    (h : (placesOfParts depth forest).map Place.line ++ lines =
      (placesOfParts depth other).map Place.line ++ lines') : forest = other ∧ lines = lines' := by
  -- By induction on the first forest: its lines go on as long as they start no further left.
  induction forest using forestInduction generalizing other depth lines lines' with
  | nil =>
      cases other with
      | nil => exact ⟨rfl, h⟩
      | cons first' behind' =>
          rw [placesOfParts, placesOfParts, places_eq] at h
          obtain rfl : lines = _ := h
          exact absurd (closes_cons.1 hlines) (Nat.lt_irrefl depth)
  | cons first behind ihParts ihBehind =>
      cases other with
      | nil =>
          rw [placesOfParts, placesOfParts, places_eq] at h
          obtain rfl : _ = lines' := h
          exact absurd (closes_cons.1 hlines') (Nat.lt_irrefl depth)
      | cons first' behind' =>
          simp only [placesOfParts, places_eq, List.map_append, List.map_cons, List.cons_append,
            List.append_assoc] at h
          obtain ⟨hline, hrest⟩ := List.cons.inj h
          obtain ⟨hparts, hbehind⟩ := ihParts (closes_placesOfParts hlines behind)
            (closes_placesOfParts hlines' behind') hrest
          obtain ⟨rfl, rfl⟩ := ihBehind hlines hlines' hbehind
          obtain rfl : first = first' := Place.shown_eq_of_line_eq hline hparts
          exact ⟨rfl, rfl⟩

theorem eq_of_places_eq {shown other : Shown}
    (h : (shown.places 0).map Place.line = (other.places 0).map Place.line) : shown = other := by
  rw [places_eq, places_eq, List.map_cons, List.map_cons] at h
  obtain ⟨hline, hparts⟩ := List.cons.inj h
  obtain ⟨hsame, -⟩ := eq_of_lines_eq (closes_nil 1) (closes_nil 1)
    (congrArg (· ++ []) hparts)
  exact Place.shown_eq_of_line_eq hline hsame

end Shown

/-! ## Messages -/

namespace Verdict

def Unbroken (v : Verdict) : Prop := ∀ node ∈ v.nodes, '\n' ∉ node.message.toList

instance (v : Verdict) : Decidable v.Unbroken :=
  inferInstanceAs (Decidable (∀ node ∈ v.nodes, '\n' ∉ node.message.toList))

private theorem newline_not_mem_headline {stop : Nat} {outcome : Outcome} {message : String}
    (h : '\n' ∉ message.toList) : '\n' ∉ (headline stop outcome message).toList := by
  have hdigits : '\n' ∉ Nat.toDigits 10 stop := Text.not_mem_toDigits (by decide) stop
  cases outcome <;> simp [toList_headline, Outcome.label, Outcome.isSuccessful, hdigits, h]

private theorem newline_not_mem_line {place : Place} (h : '\n' ∉ place.shown.message.toList) :
    '\n' ∉ place.line := by
  have hsuffix : '\n' ∉ place.suffix := by
    unfold Place.suffix
    split <;> simp
  simp [Place.line, Place.text, Text.indentation, newline_not_mem_headline h, hsuffix]

private theorem exists_of_mem_placesOfParts {debug : Bool} {depth : Nat} {vs : List Verdict}
    {place : Place} (h : place ∈ Shown.placesOfParts depth (shownParts debug vs)) :
    ∃ v ∈ vs, ∃ node ∈ v.nodes, place.shown.message = node.message := by
  induction vs using forestInduction generalizing depth with
  | nil => cases h
  | cons v vs ihParts ihRest =>
      have hbehind (h : place ∈ Shown.placesOfParts depth (shownParts debug vs)) :
          ∃ w ∈ v :: vs, ∃ node ∈ w.nodes, place.shown.message = node.message := by
        obtain ⟨w, hw, hnode⟩ := ihRest h
        exact ⟨w, List.mem_cons_of_mem v hw, hnode⟩
      rw [shownParts] at h
      cases hvisible : isVisible debug v with
      | false =>
          rw [if_neg (by simp [hvisible])] at h
          exact hbehind h
      | true =>
          rw [if_pos hvisible, Shown.placesOfParts, Shown.places_eq, shown_eq, List.mem_append,
            List.mem_cons] at h
          obtain (rfl | hbelow) | hrest := h
          · exact ⟨v, List.mem_cons_self, v, v.mem_nodes_self, rfl⟩
          · obtain ⟨part, hpart, node, hnode, hmessage⟩ := ihParts hbelow
            have hinside := mem_nodes_iff.2 (.inr ⟨part, hpart, hnode⟩)
            exact ⟨v, List.mem_cons_self, node, hinside, hmessage⟩
          · exact hbehind hrest

theorem Unbroken.newline_not_mem {v : Verdict} (hv : v.Unbroken) {debug : Bool} {place : Place}
    (hplace : place ∈ (v.shown debug).places 0) : '\n' ∉ place.line := by
  rw [Shown.places_eq, shown_eq, List.mem_cons] at hplace
  obtain rfl | hbelow := hplace
  · exact newline_not_mem_line (hv v v.mem_nodes_self)
  · obtain ⟨part, hpart, node, hnode, hmessage⟩ := exists_of_mem_placesOfParts hbelow
    refine newline_not_mem_line ?_
    rw [hmessage]
    exact hv node (mem_nodes_iff.2 (.inr ⟨part, hpart, hnode⟩))

private theorem splitOn_closed {lines : List (List Char)} (h : ∀ line ∈ lines, '\n' ∉ line) :
    (lines.flatMap (· ++ ['\n'])).splitOn '\n' = lines ++ [[]] := by
  induction lines with
  | nil => simp
  | cons line lines ih =>
      obtain ⟨hline, hlines⟩ := List.forall_mem_cons.1 h
      rw [List.flatMap_cons, List.append_assoc, List.singleton_append,
        List.splitOn_append_cons_self_of_not_mem hline, ih hlines, List.cons_append]

private theorem splitOn_render {v : Verdict} (hv : v.Unbroken) (debug : Bool) :
    (v.render debug).toList.splitOn '\n' = ((v.shown debug).places 0).map Place.line ++ [[]] := by
  have hlines : ∀ line ∈ ((v.shown debug).places 0).map Place.line, '\n' ∉ line :=
    List.forall_mem_map.2 fun place hplace => hv.newline_not_mem hplace
  rw [← splitOn_closed hlines, toList_render, List.flatMap_map]

private theorem render_false_eq (v : Verdict) : v.render false = v.withoutAsides.render true := by
  rw [← String.toList_inj, toList_render, toList_render, shown_withoutAsides]

private theorem shown_eq_of_render_eq {v w : Verdict} (hv : v.Unbroken) (hw : w.Unbroken)
    {debug debug' : Bool} (h : v.render debug = w.render debug') :
    v.shown debug = w.shown debug' := by
  have hlines := congrArg (fun text => text.toList.splitOn '\n') h
  simp only [splitOn_render hv, splitOn_render hw] at hlines
  exact Shown.eq_of_places_eq (List.append_cancel_right hlines)

theorem messages_show_visible_tree (v : Verdict) :
    v.render false = v.withoutAsides.render true ∧
    (v.Unbroken → ∀ debug,
      (v.render debug).toList.splitOn '\n' = ((v.shown debug).places 0).map Place.line ++ [[]] ∧
      (∀ place ∈ (v.shown debug).places 0,
        place.line.takeWhile (· = ' ') = List.replicate (4 * place.depth) ' ') ∧
      ∀ (w : Verdict) (debug' : Bool), w.Unbroken → v.render debug = w.render debug' →
        v.shown debug = w.shown debug') := by
  refine ⟨v.render_false_eq, fun hv debug => ⟨splitOn_render hv debug, ?_, ?_⟩⟩
  · exact fun place _ => place.takeWhile_line
  · exact fun w debug' hw h => shown_eq_of_render_eq hv hw h

/-- A message that looks as if something were below it, where all that is below it is hidden. -/
theorem messages_show_visible_tree_imitated :
    let imitation : Verdict :=
      ⟨0, .success, "    [0] SUCCESS: . Caused by:", [.setAside (.parseError "é" 3)], false⟩
    let v : Verdict := ⟨12, .syntaxError, ". Caused by:", [imitation, .warning "" 2], true⟩
    v.Unbroken ∧ v.withoutAsides.Unbroken ∧ v.render false = v.withoutAsides.render true ∧
      v.shown false = v.withoutAsides.shown true ∧
      ((v.shown false).places 0).map Place.depth = [0, 1, 1] ∧
      ((v.shown true).places 0).map Place.depth = [0, 1, 2, 1] ∧
      ∀ debug,
        (v.render debug).toList.splitOn '\n' =
          ((v.shown debug).places 0).map Place.line ++ [[]] := by
  intro imitation v
  have hv : v.Unbroken := by decide +kernel
  have hw : v.withoutAsides.Unbroken := by decide +kernel
  obtain ⟨hsame, hshown⟩ := messages_show_visible_tree v
  obtain ⟨-, -, hinjective⟩ := hshown hv false
  exact ⟨hv, hw, hsame, hinjective v.withoutAsides true hw hsame, by decide +kernel,
    by decide +kernel, fun debug => (hshown hv debug).1⟩

end Verdict

end TextGrammar
