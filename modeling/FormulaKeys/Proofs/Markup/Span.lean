import FormulaKeys.Markup.Cursor
import Mathlib.Data.String.Basic

/-! Ranges of byte offsets and the characters they hold.

Readers move along byte offsets; statements about them are made on lists of
characters. A range spans a list when the list stands in the markup between two
character boundaries, and each reader is described once by what it does to it.
-/

set_option autoImplicit false

namespace FormulaKeys.Markup

open String (utf8Len)

/-- The characters of the markup between the boundaries `pos` and `stop`. -/
def Spans (source : String) (pos stop : Nat) (chars : List Char) : Prop :=
  ∃ before behind : List Char, source = String.ofList (before ++ chars ++ behind) ∧
    pos = utf8Len before ∧ stop = pos + utf8Len chars

namespace Spans

variable {source : String} {pos stop : Nat} {chars first rest : List Char} {c : Char}

theorem whole (source : String) : Spans source 0 source.utf8ByteSize source.toList :=
  ⟨[], [], by simp, rfl, by simp⟩

/-- A list in a range splits it, and both parts are ranges again. -/
theorem split (spans : Spans source pos stop (first ++ rest)) :
    Spans source pos (pos + utf8Len first) first ∧
      Spans source (pos + utf8Len first) stop rest := by
  obtain ⟨before, behind, text, start, finish⟩ := spans
  refine ⟨⟨before, rest ++ behind, ?_, start, rfl⟩, ⟨before ++ first, behind, ?_, ?_, ?_⟩⟩
  · simpa only [List.append_assoc] using text
  · simpa only [List.append_assoc] using text
  · rw [String.utf8Len_append, start]
  · rw [finish, String.utf8Len_append, Nat.add_assoc]

theorem tail (spans : Spans source pos stop (c :: rest)) :
    Spans source (pos + c.utf8Size) stop rest := by
  have parts := (@split source pos stop [c] rest spans).2
  simpa using parts

/-- Behind the last character the range is empty. -/
theorem finish (spans : Spans source pos stop chars) : Spans source stop stop [] := by
  obtain ⟨before, behind, text, start, finish⟩ := spans
  refine ⟨before ++ chars, behind, ?_, ?_, rfl⟩
  · rwa [List.append_nil]
  · rw [finish, start, String.utf8Len_append]

theorem peek?_eq (spans : Spans source pos stop chars) :
    peek? source pos stop = chars.head? := by
  obtain ⟨before, behind, rfl, rfl, rfl⟩ := spans
  cases chars with
  | nil => simp [peek?]
  | cons c rest =>
    have room : utf8Len before < utf8Len before + utf8Len (c :: rest) := by
      have := c.utf8Size_pos
      rw [String.utf8Len_cons]
      omega
    have found := String.get_of_valid before (c :: rest ++ behind)
    rw [peek?, if_pos room, List.append_assoc, found]
    rfl

theorem slice_eq (spans : Spans source pos stop chars) :
    slice source pos stop = String.ofList chars := by
  obtain ⟨before, behind, rfl, rfl, rfl⟩ := spans
  exact String.extract_of_valid before chars behind

theorem skipWhile_eq (inClass : Char → Bool) (spans : Spans source pos stop chars) :
    skipWhile inClass source pos stop = pos + utf8Len (chars.takeWhile inClass) := by
  induction chars generalizing pos with
  | nil =>
    rw [skipWhile]
    split
    next found => simp [spans.peek?_eq] at found
    next => rfl
  | cons c rest ih =>
    rw [skipWhile]
    split
    next found =>
      rw [spans.peek?_eq] at found
      cases found
      split
      next inside =>
        rw [ih spans.tail, List.takeWhile_cons_of_pos inside, String.utf8Len_cons]
        omega
      next outside => simp [List.takeWhile_cons_of_neg outside]
    next missing => simp [spans.peek?_eq] at missing

/-- The run of characters in the class, and the range behind it. -/
theorem skip (inClass : Char → Bool) (spans : Spans source pos stop chars) :
    Spans source pos (skipWhile inClass source pos stop) (chars.takeWhile inClass) ∧
      Spans source (skipWhile inClass source pos stop) stop (chars.dropWhile inClass) := by
  rw [spans.skipWhile_eq]
  apply split
  rwa [List.takeWhile_append_dropWhile]

end Spans

end FormulaKeys.Markup
