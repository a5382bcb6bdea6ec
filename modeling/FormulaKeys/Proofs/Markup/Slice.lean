import FormulaKeys.Proofs.Markup.Span
import FormulaKeys.Proofs.Text.Bytes
import Mathlib.Data.Nat.Bitwise

/-! Slices of the markup, which fail where there is nothing to take.

The readers of the cursor answer at every offset. Here an offset has to be in the
markup, and on the boundary of a character where characters are asked for.
-/

set_option autoImplicit false

namespace FormulaKeys.Markup

open String (utf8Len)

variable {source : String} {pos mid stop : Nat} {chars first rest : List Char}

/-- A character begins at the offset, or the markup ends there. -/
def IsBoundary (source : String) (pos : Nat) : Prop := String.Pos.Raw.IsValid source ⟨pos⟩

instance : Decidable (IsBoundary source pos) :=
  inferInstanceAs (Decidable (String.Pos.Raw.IsValid source ⟨pos⟩))

theorem isBoundary_iff : IsBoundary source pos ↔
    ∃ before behind, source.toList = before ++ behind ∧ pos = utf8Len before := by
  rw [IsBoundary, String.Pos.Raw.isValid_iff_exists_take_toList]
  constructor
  · rintro ⟨index, same⟩
    exact ⟨source.toList.take index, source.toList.drop index,
      (List.take_append_drop index source.toList).symm, same.trans (String.utf8ByteSize_ofList _)⟩
  · rintro ⟨before, behind, text, start⟩
    exact ⟨before.length, by rw [text, List.take_left, String.utf8ByteSize_ofList, start]⟩

theorem IsBoundary.le (boundary : IsBoundary source pos) : pos ≤ source.utf8ByteSize :=
  String.Pos.Raw.IsValid.le_utf8ByteSize boundary

/-- Where the byte of an ASCII character stands, this character begins. -/
theorem isBoundary_of_ascii {byte : UInt8} (here : (Text.bytes source)[pos]? = some byte)
    (ascii : byte.toNat < 128) : IsBoundary source pos := by
  obtain ⟨inside, same⟩ := List.getElem?_eq_some_iff.mp here
  have leading : byte &&& 128 = 0 := by
    apply UInt8.toNat_inj.mp
    rw [UInt8.toNat_and, Nat.and_comm]
    change 2 ^ 7 &&& byte.toNat = 0
    rw [Nat.two_pow_and, Nat.testBit_lt_two_pow ascii]
    rfl
  rw [← same] at leading
  exact String.Pos.Raw.isValid_iff_isUTF8FirstByte.mpr (.inr ⟨inside, .inl leading⟩)

theorem prefix_of_utf8Len_le {before passed text : List Char} (front : before <+: text)
    (further : passed <+: text) (le : utf8Len before ≤ utf8Len passed) : before <+: passed := by
  rcases List.prefix_or_prefix_of_prefix front further with within | ⟨more, rfl⟩
  · exact within
  · rw [String.utf8Len_append] at le
    obtain rfl : more = [] := String.utf8Len_eq_zero.mp (by omega)
    simp

theorem eq_of_utf8Len_eq {before passed text : List Char} (front : before <+: text)
    (further : passed <+: text) (same : utf8Len before = utf8Len passed) : before = passed :=
  (prefix_of_utf8Len_le front further (Nat.le_of_eq same)).eq_of_length_le
    (prefix_of_utf8Len_le further front (Nat.le_of_eq same.symm)).length_le

/-- The bytes between two offsets, if the markup has them. -/
def bytes? (source : String) (start stop : Nat) : Option (List UInt8) :=
  if start ≤ stop ∧ stop ≤ source.utf8ByteSize then
    some (((Text.bytes source).take stop).drop start)
  else
    none

theorem bytes?_zero (room : stop ≤ source.utf8ByteSize) :
    bytes? source 0 stop = some ((Text.bytes source).take stop) := by
  rw [bytes?, if_pos ⟨Nat.zero_le stop, room⟩, List.drop_zero]

/-- The characters between two offsets, if these are boundaries. -/
def chars? (source : String) (start stop : Nat) : Option (List Char) :=
  if start ≤ stop ∧ IsBoundary source start ∧ IsBoundary source stop then
    some (slice source start stop).toList
  else
    none

namespace Spans

theorem toList_eq (spans : Spans source pos stop chars) :
    ∃ before behind, source.toList = before ++ chars ++ behind ∧ pos = utf8Len before := by
  obtain ⟨before, behind, text, start, _⟩ := spans
  exact ⟨before, behind, by rw [text, String.toList_ofList], start⟩

theorem stop_eq (spans : Spans source pos stop chars) : stop = pos + utf8Len chars := by
  obtain ⟨before, behind, text, start, finish⟩ := spans
  exact finish

theorem start_le (spans : Spans source pos stop chars) : pos ≤ stop := by
  have := spans.stop_eq
  omega

theorem isBoundary (spans : Spans source pos stop chars) : IsBoundary source pos := by
  obtain ⟨before, behind, text, start⟩ := spans.toList_eq
  exact isBoundary_iff.mpr ⟨before, chars ++ behind, by rw [text, List.append_assoc], start⟩

theorem isBoundary_stop (spans : Spans source pos stop chars) : IsBoundary source stop :=
  spans.finish.isBoundary

/-- Between two boundaries stand characters. -/
theorem exists_of_isBoundary (start : IsBoundary source pos) (finish : IsBoundary source stop)
    (le : pos ≤ stop) : ∃ chars, Spans source pos stop chars := by
  obtain ⟨before, behind, text, rfl⟩ := isBoundary_iff.mp start
  obtain ⟨passed, rest, sameText, rfl⟩ := isBoundary_iff.mp finish
  obtain ⟨chars, rfl⟩ := prefix_of_utf8Len_le ⟨behind, text.symm⟩ ⟨rest, sameText.symm⟩ le
  exact ⟨chars, before, rest, by rw [← sameText, String.ofList_toList], rfl,
    String.utf8Len_append ..⟩

theorem chars?_eq (spans : Spans source pos stop chars) : chars? source pos stop = some chars := by
  rw [chars?, if_pos ⟨spans.start_le, spans.isBoundary, spans.isBoundary_stop⟩, spans.slice_eq,
    String.toList_ofList]

theorem of_chars? (found : chars? source pos stop = some chars) : Spans source pos stop chars := by
  unfold chars? at found
  split at found
  next inside =>
    obtain ⟨within, spans⟩ := exists_of_isBoundary inside.2.1 inside.2.2 inside.1
    rw [spans.slice_eq, String.toList_ofList, Option.some_inj] at found
    rwa [← found]
  next => cases found

theorem prefix_of_le (spans : Spans source pos stop chars) (within : Spans source pos mid first)
    (le : mid ≤ stop) : first <+: chars := by
  have shorter := within.stop_eq
  have longer := spans.stop_eq
  obtain ⟨before, behind, text, rfl⟩ := spans.toList_eq
  obtain ⟨passed, more, sameText, same⟩ := within.toList_eq
  rw [List.append_assoc] at text sameText
  obtain rfl := eq_of_utf8Len_eq ⟨_, text.symm⟩ ⟨_, sameText.symm⟩ same
  rw [text, List.append_cancel_left_eq] at sameText
  exact prefix_of_utf8Len_le ⟨more, sameText.symm⟩ (List.prefix_append ..) (by omega)

/-- A range holds one list of characters. -/
theorem chars_eq (spans : Spans source pos stop first) (others : Spans source pos stop rest) :
    first = rest :=
  Option.some_inj.mp (spans.chars?_eq.symm.trans others.chars?_eq)

theorem append (spans : Spans source pos mid first) (behind : Spans source mid stop rest) :
    Spans source pos stop (first ++ rest) := by
  obtain ⟨chars, whole⟩ := exists_of_isBoundary spans.isBoundary behind.isBoundary_stop
    (Nat.le_trans spans.start_le behind.start_le)
  obtain ⟨more, rfl⟩ := whole.prefix_of_le spans behind.start_le
  have second := whole.split.2
  rw [← spans.stop_eq] at second
  rwa [behind.chars_eq second]

/-- The bytes in front of `stop` end with those of the range. -/
theorem front_eq (spans : Spans source pos stop chars) :
    ∃ passed, passed.length = pos ∧ bytes? source 0 stop = some (passed ++ Text.encoded chars) := by
  have room := spans.isBoundary_stop.le
  obtain ⟨before, behind, rfl, rfl, rfl⟩ := spans
  refine ⟨Text.encoded before, Text.length_encoded before, ?_⟩
  rw [bytes?_zero room, Text.bytes_ofList, Text.encoded_append,
    List.take_left' (by simp [Text.length_encoded, Text.encoded_append]), Text.encoded_append]

theorem bytes?_eq (spans : Spans source pos stop chars) :
    bytes? source pos stop = some (Text.encoded chars) := by
  obtain ⟨passed, length, front⟩ := spans.front_eq
  unfold bytes? at front ⊢
  split at front
  next room =>
    rw [List.drop_zero, Option.some_inj] at front
    rw [if_pos ⟨spans.start_le, room.2⟩, front, List.drop_left' length]
  next => cases front

end Spans

end FormulaKeys.Markup
