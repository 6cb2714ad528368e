import TextGrammar.Cursor
import TextGrammar.Proofs.Escape.Stopping

/-!
# Scanning for a delimiter

A delimiter of one character can be asked for in three ways: as a character, as a rule that is tried
at the offset of each place, and as the end of what was gathered with the next character.  Wherever
the engine considers a character the three answer alike, so the scans go the same way.
-/

namespace TextGrammar

open Escape Text

namespace Escape.Engine

/-- Two stop conditions that answer alike along a text, `f` taking the states of one to those of the
other. -/
def AnswersAlike {σ τ : Type} (f : σ → τ) (stop : StopCondition σ) (stop' : StopCondition τ)
    (text : List Char) : Prop :=
  ∀ x rest, x :: rest <:+ text → ∀ sofar s,
    stop' sofar (x :: rest) (f s) =
      ((stop sofar (x :: rest) s).1, f (stop sofar (x :: rest) s).2)

section Alike

variable {σ τ : Type} {f : σ → τ} {stop : StopCondition σ} {stop' : StopCondition τ}

theorem AnswersAlike.tail {x : Char} {text : List Char}
    (h : AnswersAlike f stop stop' (x :: text)) : AnswersAlike f stop stop' text :=
  fun y rest hsuffix => h y rest (hsuffix.trans (List.suffix_cons x text))

theorem AnswersAlike.scanFrom {text : List Char} (h : AnswersAlike f stop stop' text) (e : Engine)
    (resolved : Bool) (sofar : List Char) (length : Nat) (s : σ) :
    e.scanFrom resolved stop' sofar length (f s) text =
      let scan := e.scanFrom resolved stop sofar length s text
      scan.withState (f scan.state) := by
  induction text generalizing e sofar length s with
  | nil => rfl
  | cons x text ih =>
      have halike := h x text List.suffix_rfl sofar s
      simp only [Engine.scanFrom]
      cases hconsider : (e.consider x).2.shouldConsider with
      | false => simpa using ih h.tail _ _ _ _
      | true =>
          simp only [halike, if_true]
          cases stop sofar (x :: text) s with
          | mk stopped s' =>
              cases stopped with
              | true => rfl
              | false => exact ih h.tail _ _ _ _

theorem AnswersAlike.scanResolved {text : List Char} (h : AnswersAlike f stop stop' text)
    (e : Engine) (s : σ) :
    e.scanResolved stop' (f s) text =
      let scan := e.scanResolved stop s text
      scan.withState (f scan.state) := by
  simp only [Engine.scanResolved, h.scanFrom]
  rfl

end Alike

end Escape.Engine

namespace Cursor

open Engine (AnswersAlike)

variable {d : Char}

private theorem literalVerdict_singleton (front : List Char) (x : Char) (rest : List Char) :
    (Rule.literalVerdict (String.singleton d) (front ++ x :: rest)
      (byteLength front)).isSuccessful = decide (x = d) := by
  simp only [Rule.literalVerdict, dropBytes?_byteLength_append, String.toList_singleton]
  by_cases hx : x = d
  · simp [hx]
    rfl
  · simp [hx, Ne.symm hx]
    rfl

private theorem stopAtRule_alike (content ahead : List Char) (hahead : ahead <:+ content)
    (fuel : Nat) (context : Context) :
    AnswersAlike (fun _ => some context) (Engine.stopAt (· = d))
      (stopAtRule (fuel + 1) (.literal (String.singleton d)) content) ahead := by
  intro x rest hsuffix sofar s
  obtain ⟨front, rfl⟩ := hsuffix.trans hahead
  have hoffset : byteLength (front ++ x :: rest) - byteLength (x :: rest) = byteLength front := by
    rw [byteLength_append, Nat.add_sub_cancel]
  simp only [stopAtRule, hoffset, Option.bind_some, Rule.matchAt, Rule.eval, Rule.leaf,
    Option.map_some, literalVerdict_singleton, Engine.stopAt]

private theorem stopWhen_alike (ahead : List Char) :
    AnswersAlike id (Engine.stopAt (· = d)) (Engine.stopWhen fun text => text.getLast? = some d)
      ahead := by
  intro x rest _ sofar s
  simp [Engine.stopAt, Engine.stopWhen]

theorem delimiter_scans_agree (c : Cursor) (e : Engine) (d : Char) :
    c.readUntilAccumulatedConsidering e (fun text => text.getLast? = some d) =
        c.readUntilConsidering e (· = d) ∧
      ∀ fuel, c.readUntilRule (fuel + 1) e (.literal (String.singleton d)) =
        some (c.readUntilConsidering e (· = d)) := by
  constructor
  · have hscan := (stopWhen_alike (d := d) c.ahead).scanResolved e ()
    simp only [id] at hscan
    simp only [readUntilAccumulatedConsidering, readUntilConsidering, hscan]
    rfl
  · intro fuel
    have hahead : c.ahead <:+ c.content := List.drop_suffix _ _
    have halike := stopAtRule_alike (d := d) c.content c.ahead hahead fuel c.context
    have hscan := halike.scanResolved e ()
    simp only [readUntilRule, hscan]
    rfl

end Cursor

end TextGrammar
