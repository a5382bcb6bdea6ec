import FormulaKeys.Proofs.Markup.Checked
import FormulaKeys.Proofs.Markup.Unmatched
import Mathlib.Order.Bounds.Basic
import Mathlib.Order.Nat

/-! The brace that closes a group.

The search for it jumps along the bytes from brace to brace, and the end of its range may
stand inside a character. It finds the first closing brace in front of which as many
braces open as close. What opens inside a group with an end therefore ends there too.
-/

set_option autoImplicit false

namespace FormulaKeys.Markup

open String (utf8Len)

variable {source : String} {start stop close pos : Nat} {chars content rest : List Char}

/-- A closing brace stands at `close`, and from `start` up to it as many braces open as close. -/
structure ClosesAt (source : String) (start close : Nat) : Prop where
  brace : Spans source close (close + 1) ['}']
  level : ∃ content, Spans source start close content ∧ content.count '{' = content.count '}'

/-- Up to and with the brace, one more is closed than opened. -/
theorem ClosesAt.exists_through (closes : ClosesAt source start close) :
    ∃ through, Spans source start (close + 1) through ∧ depth through < 0 := by
  obtain ⟨brace, content, spans, level⟩ := closes
  refine ⟨content ++ ['}'], spans.append brace, ?_⟩
  rw [depth_append, depth_closing, depth]
  omega

namespace Spans

/-- The brace behind balanced content is the first one to close. -/
theorem isLeast_closesAt (spans : Spans source start stop (content ++ '}' :: rest))
    (balanced : Balanced content) :
    IsLeast {close | ClosesAt source start close} (start + utf8Len content) := by
  have inside := spans.split.1
  have brace : Spans source (start + utf8Len content) stop (['}'] ++ rest) := spans.split.2
  constructor
  · have level := balanced.level
    rw [depth] at level
    exact ⟨brace.split.1, content, inside, by omega⟩
  · intro close closes
    by_contra further
    obtain ⟨through, shorter, negative⟩ := closes.exists_through
    have := balanced.nonneg through (inside.prefix_of_le shorter (by omega))
    omega

theorem closes_of_closesAt (spans : Spans source start stop chars)
    (closes : ClosesAt source start close) (lt : close < stop) : Closes chars := by
  obtain ⟨through, shorter, negative⟩ := closes.exists_through
  obtain ⟨rest, rfl⟩ := spans.prefix_of_le shorter lt
  have : Closes through := by
    by_contra unmatched
    have := depth_nonneg unmatched
    omega
  exact this.append rest

end Spans

namespace Checked

theorem closing?_append {front tail : List UInt8} {pos : Nat}
    (plain : ∀ byte ∈ tail, Plain.isBrace (Char.ofUInt8 byte) = false)
    (inside : pos ≤ front.length) (fuel depth : Nat) :
    closing? (front ++ tail) fuel pos depth = closing? front fuel pos depth := by
  induction fuel generalizing pos depth with
  | zero => rfl
  | succ fuel ih =>
    have room : pos ≤ (front ++ tail).length := by
      rw [List.length_append]
      omega
    rw [closing?, closing?]
    simp only [Option.bind_eq_bind, guard_bind inside, guard_bind room,
      List.drop_append_of_le_length inside, List.findIdx?_append,
      List.findIdx?_eq_none_iff.mpr plain, Option.map_none, Option.or_none]
    cases jump : (front.drop pos).findIdx? fun byte => Plain.isBrace (Char.ofUInt8 byte) with
    | none => rfl
    | some offset =>
      -- The jump ends at a byte of the front, so both searches go on from there.
      have lt : pos + offset < front.length := by
        obtain ⟨lt, _⟩ := List.findIdx?_eq_some_iff_getElem.mp jump
        rw [List.length_drop] at lt
        omega
      simp only [List.getElem?_append_left lt, ih lt]

/-! The end of the range may stand inside a character. -/

/-- The first boundary from `stop` on. -/
def IsCeiling (source : String) (stop high : Nat) : Prop :=
  IsLeast {pos | IsBoundary source pos ∧ stop ≤ pos} high

theorem exists_isCeiling (room : stop ≤ source.utf8ByteSize) : ∃ high, IsCeiling source stop high :=
  ⟨_, Nat.isLeast_find ⟨source.utf8ByteSize, (Spans.whole source).isBoundary_stop, room⟩⟩

namespace IsCeiling

variable {high : Nat}

theorem le (ceiling : IsCeiling source stop high) : stop ≤ high := ceiling.1.2

/-- No character begins between the end and the next boundary. -/
theorem lt_iff_lt (ceiling : IsCeiling source stop high) (boundary : IsBoundary source pos) :
    pos < stop ↔ pos < high := by
  constructor
  · intro lt
    exact Nat.lt_of_lt_of_le lt ceiling.le
  · intro lt
    by_contra beyond
    have := ceiling.2 ⟨boundary, Nat.le_of_not_lt beyond⟩
    omega

theorem isBrace_eq_false (ceiling : IsCeiling source stop high) {byte : UInt8}
    (mem : byte ∈ ((Text.bytes source).take high).drop stop) :
    Plain.isBrace (Char.ofUInt8 byte) = false := by
  rw [List.mem_drop_iff_getElem] at mem
  obtain ⟨index, inside, here⟩ := mem
  rw [List.getElem_take] at here
  rw [List.length_take] at inside
  by_contra brace
  have ascii : (Char.ofUInt8 byte).toNat < 128 := Plain.isBrace_ascii _ (by simpa using brace)
  have boundary := isBoundary_of_ascii (List.getElem?_eq_some_iff.mpr ⟨_, here⟩) ascii
  have := (ceiling.lt_iff_lt boundary).mpr (by omega)
  omega

theorem closer?_eq (ceiling : IsCeiling source stop high) (spans : Spans source start high chars) :
    closer? source start stop 0 =
      (Plain.splitGroup? 0 chars).map fun (content, _) => start + utf8Len content := by
  refine closer?_of_peek? 0 fun first rest same => ?_
  subst same
  have behind := spans.split.2
  rw [← behind.peek?_eq, peek?, peek?]
  simp only [ceiling.lt_iff_lt behind.isBoundary]

theorem length_le (ceiling : IsCeiling source stop high) (spans : Spans source start high chars) :
    chars.length ≤ stop := by
  rcases List.eq_nil_or_concat' chars with rfl | ⟨first, last, rfl⟩
  · exact Nat.zero_le stop
  · -- The last character begins in front of the end, behind at least a byte for every other.
    obtain ⟨inside, behind⟩ := spans.split
    have length := Text.length_le_length_encoded first
    rw [Text.length_encoded] at length
    have width : high = start + utf8Len first + last.utf8Size := by
      rw [behind.stop_eq, String.utf8Len_cons, String.utf8Len_nil, Nat.zero_add]
    have := last.utf8Size_pos
    have := (ceiling.lt_iff_lt inside.isBoundary_stop).mpr (by omega)
    rw [List.length_append, List.length_singleton]
    omega

theorem closing?_eq_closer? (ceiling : IsCeiling source stop high)
    (spans : Spans source start high chars) (le : start ≤ stop) :
    ∃ front, bytes? source 0 stop = some front ∧
      closing? front (front.length + 1) start 1 = some (closer? source start stop 0) := by
  obtain ⟨passed, rfl, upToHigh⟩ := spans.front_eq
  have roomHigh := spans.isBoundary_stop.le
  have room := Nat.le_trans ceiling.le roomHigh
  rw [bytes?_zero roomHigh, Option.some_inj] at upToHigh
  have length : ((Text.bytes source).take stop).length = stop := by
    rw [List.length_take]
    exact Nat.min_eq_left room
  -- What the range leaves out of the last character is not looked at.
  have same : (Text.bytes source).take stop ++ ((Text.bytes source).take high).drop stop =
      passed ++ Text.encoded chars := by
    rw [← upToHigh]
    conv => rhs; rw [← List.take_append_drop stop ((Text.bytes source).take high)]
    rw [List.take_take, Nat.min_eq_left ceiling.le]
  refine ⟨_, bytes?_zero room, ?_⟩
  rw [← closing?_append (fun byte mem => ceiling.isBrace_eq_false mem) (by omega), same,
    closing?_eq 0 (by have := ceiling.length_le spans; omega), ceiling.closer?_eq spans]

end IsCeiling

section
variable (boundary : IsBoundary source start) (le : start ≤ stop)
  (room : stop ≤ source.utf8ByteSize)
include boundary le room

theorem exists_ceiling :
    ∃ high chars, IsCeiling source stop high ∧ Spans source start high chars := by
  obtain ⟨high, ceiling⟩ := exists_isCeiling room
  obtain ⟨chars, spans⟩ :=
    Spans.exists_of_isBoundary boundary ceiling.1.1 (Nat.le_trans le ceiling.le)
  exact ⟨high, chars, ceiling, spans⟩

/-- No check of the search fails, and it finds what the cursor finds. -/
theorem groupEnd?_eq :
    groupEnd? source start stop = some ((closer? source start stop 0).elim
      (stop, [.groupUnclosed start]) fun close => (close, [])) := by
  obtain ⟨high, chars, ceiling, spans⟩ := exists_ceiling boundary le room
  obtain ⟨front, bytes, found⟩ := ceiling.closing?_eq_closer? spans le
  rw [groupEnd?, bytes, Option.bind_eq_bind, Option.bind_some, found]
  cases closer? source start stop 0 <;> rfl

/-- The content in front of the brace that is found is balanced. -/
theorem isLeast_of_closer? (found : closer? source start stop 0 = some close) :
    IsLeast {close | ClosesAt source start close} close ∧
      ∃ content, Spans source start close content ∧ Balanced content := by
  obtain ⟨high, chars, ceiling, spans⟩ := exists_ceiling boundary le room
  rw [ceiling.closer?_eq spans] at found
  obtain ⟨⟨content, rest⟩, cut, rfl⟩ := Option.map_eq_some_iff.mp found
  have balanced := Plain.balanced_of_splitGroup? cut
  rw [Plain.splitGroup?_eq cut] at spans
  exact ⟨spans.isLeast_closesAt balanced, content, spans.split.1, balanced⟩

theorem closer?_eq_none_iff :
    closer? source start stop 0 = none ↔ ∀ close < stop, ¬ClosesAt source start close := by
  constructor
  · intro missing close lt closes
    obtain ⟨high, chars, ceiling, spans⟩ := exists_ceiling boundary le room
    rw [ceiling.closer?_eq spans, Option.map_eq_none_iff, Plain.splitGroup?_eq_none_iff] at missing
    exact missing (spans.closes_of_closesAt closes (Nat.lt_of_lt_of_le lt ceiling.le))
  · intro missing
    cases found : closer? source start stop 0 with
    | none => rfl
    | some close =>
      obtain ⟨least, _⟩ := isLeast_of_closer? boundary le room found
      exact (missing close (closer?_bounds found).2 least.1).elim

theorem closer?_eq_some_iff :
    closer? source start stop 0 = some close ↔
      close < stop ∧ IsLeast {close | ClosesAt source start close} close := by
  constructor
  · intro found
    exact ⟨(closer?_bounds found).2, (isLeast_of_closer? boundary le room found).1⟩
  · rintro ⟨lt, least⟩
    cases found : closer? source start stop 0 with
    | none => exact ((closer?_eq_none_iff boundary le room).mp found close lt least.1).elim
    | some other =>
      obtain ⟨first, _⟩ := isLeast_of_closer? boundary le room found
      rw [IsLeast.unique first least]

/-- What opens inside a group with an end is closed there. -/
theorem isSome_closer?_of_inside {brace : Nat} (found : closer? source start stop 0 = some close)
    (inside : start ≤ brace) (opens : Spans source brace (brace + 1) ['{']) (lt : brace < close) :
    (closer? source (brace + 1) close 0).isSome := by
  obtain ⟨_, content, spans, balanced⟩ := isLeast_of_closer? boundary le room found
  obtain ⟨front, before⟩ := Spans.exists_of_isBoundary boundary opens.isBoundary inside
  obtain ⟨within, behind⟩ :=
    Spans.exists_of_isBoundary opens.isBoundary_stop spans.isBoundary_stop lt
  have same := spans.chars_eq (before.append (opens.append behind))
  rw [Option.isSome_iff_ne_none, ne_eq, behind.closer?_eq 0, Option.map_eq_none_iff,
    Plain.splitGroup?_eq_none_iff, not_not]
  exact balanced.closed front within same

theorem groupEnd?_eq_found_iff :
    groupEnd? source start stop = some (close, []) ↔ closer? source start stop 0 = some close := by
  rw [groupEnd?_eq boundary le room]
  cases closer? source start stop 0 <;> simp

theorem groupEnd?_eq_unclosed_iff :
    groupEnd? source start stop = some (stop, [.groupUnclosed start]) ↔
      closer? source start stop 0 = none := by
  rw [groupEnd?_eq boundary le room]
  cases closer? source start stop 0 <;> simp

end

/-- The search for the end of a group never fails and is that of the cursor, wherever its range
ends. It finds the first closing brace in front of which as many braces open as close, and up to
there never more close than open. Where there is none in the range, and only then, it reports the
group and takes the end of the range. What opens inside a group with an end is found to close
inside of it. -/
theorem groupEnd?_finds (source : String) {start stop : Nat} (boundary : IsBoundary source start)
    (le : start ≤ stop) (room : stop ≤ source.utf8ByteSize) :
    groupEnd? source start stop = some ((closer? source start stop 0).elim
        (stop, [.groupUnclosed start]) fun close => (close, [])) ∧
      (∀ close, groupEnd? source start stop = some (close, []) ↔
        close < stop ∧ IsLeast {close | ClosesAt source start close} close) ∧
      (groupEnd? source start stop = some (stop, [.groupUnclosed start]) ↔
        ∀ close < stop, ¬ClosesAt source start close) ∧
      ∀ close, groupEnd? source start stop = some (close, []) →
        (∀ pos content, pos ≤ close → Spans source start pos content →
          content.count '}' ≤ content.count '{') ∧
        ∀ brace, start ≤ brace → brace < close → Spans source brace (brace + 1) ['{'] →
          ∃ inner, groupEnd? source (brace + 1) close = some (inner, []) ∧
            brace < inner ∧ inner < close := by
  refine ⟨groupEnd?_eq boundary le room, fun close => ?_, ?_, fun close ends => ?_⟩
  · rw [groupEnd?_eq_found_iff boundary le room, closer?_eq_some_iff boundary le room]
  · rw [groupEnd?_eq_unclosed_iff boundary le room, closer?_eq_none_iff boundary le room]
  · have found := (groupEnd?_eq_found_iff boundary le room).mp ends
    obtain ⟨_, whole, spans, balanced⟩ := isLeast_of_closer? boundary le room found
    constructor
    · intro pos content upTo within
      have nonneg := balanced.nonneg content (spans.prefix_of_le within upTo)
      rw [depth] at nonneg
      omega
    · intro brace inside lt opens
      obtain ⟨inner, closes⟩ := Option.isSome_iff_exists.mp
        (isSome_closer?_of_inside boundary le room found inside opens lt)
      have bounds := closer?_bounds closes
      refine ⟨inner, ?_, bounds⟩
      exact (groupEnd?_eq_found_iff opens.isBoundary_stop lt spans.isBoundary_stop.le).mpr closes

/-- The range ends inside its last character. -/
theorem groupEnd?_finds_nested :
    (IsBoundary "é\x7bα\x7d\x7dü" 0 ∧ 0 ≤ 8 ∧ 8 ≤ "é\x7bα\x7d\x7dü".utf8ByteSize) ∧
      groupEnd? "é\x7bα\x7d\x7dü" 0 8 = some (6, []) ∧
      IsLeast {close | ClosesAt "é\x7bα\x7d\x7dü" 0 close} 6 ∧
      ∃ inner, groupEnd? "é\x7bα\x7d\x7dü" 3 6 = some (inner, []) ∧ 2 < inner ∧ inner < 6 := by
  have boundary : IsBoundary "é\x7bα\x7d\x7dü" 0 :=
    isBoundary_iff.mpr ⟨[], "é\x7bα\x7d\x7dü".toList, rfl, rfl⟩
  have room : 8 ≤ "é\x7bα\x7d\x7dü".utf8ByteSize := by decide
  obtain ⟨search, closer, _, inside⟩ :=
    groupEnd?_finds "é\x7bα\x7d\x7dü" boundary (Nat.zero_le 8) room
  have ends := search.trans (show _ = some (6, []) by decide +kernel)
  have opens : Spans "é\x7bα\x7d\x7dü" 2 3 ['\x7b'] :=
    ⟨['é'], ['α', '\x7d', '\x7d', 'ü'], by decide, by decide, by decide⟩
  exact ⟨⟨boundary, Nat.zero_le 8, room⟩, ends, ((closer 6).mp ends).2,
    (inside 6 ends).2 2 (Nat.zero_le 2) (by decide) opens⟩

end Checked

end FormulaKeys.Markup
