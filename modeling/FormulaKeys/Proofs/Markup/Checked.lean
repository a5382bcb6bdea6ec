import FormulaKeys.Proofs.Markup.Refinement
import FormulaKeys.Proofs.Markup.Slice
import Mathlib.Data.Option.Basic

/-! The scanner as a machine that can fail.

This scanner moves one cursor along the bytes of the markup, and narrows its end for
the content of a group. It fails where a slice or an index is out of range or off the
boundary of a character, where a count would go below zero, where the cursor does not
move on or leaves its range, and where its fuel runs out. It never does any of this,
and it reads what `scan` reads.
-/

set_option autoImplicit false

namespace FormulaKeys.Markup

open String (utf8Len)

namespace Plain

def isBrace (c : Char) : Bool := c == '{' || c == '}'

theorem isBrace_iff {c : Char} : isBrace c = true ↔ c = '{' ∨ c = '}' := by simp [isBrace]

theorem isBrace_ascii (c : Char) (brace : isBrace c = true) : c.toNat < 128 := by
  rcases isBrace_iff.mp brace with rfl | rfl <;> decide

/-- The count does not change where no brace stands. -/
theorem splitGroup?_append {first : List Char} (plain : ∀ c ∈ first, isBrace c = false)
    (inner : Nat) (rest : List Char) :
    splitGroup? inner (first ++ rest) =
      (splitGroup? inner rest).map (Prod.map (first ++ ·) id) := by
  induction first with
  | nil =>
    rw [List.nil_append]
    cases splitGroup? inner rest <;> rfl
  | cons c first ih =>
    rw [List.forall_mem_cons, Bool.eq_false_iff, ne_eq, isBrace_iff, not_or] at plain
    rw [List.cons_append, splitGroup?_cons plain.1.1 plain.1.2, ih plain.2, Option.map_map]
    rfl

end Plain

namespace Checked

/-- What the scanner changes while it reads. -/
structure Cursor where
  pos : Nat
  stop : Nat
  transcript : Transcript
  deriving DecidableEq, Repr

structure Cursor.InBounds (source : String) (cursor : Cursor) : Prop where
  le : cursor.pos ≤ cursor.stop
  pos : IsBoundary source cursor.pos
  stop : IsBoundary source cursor.stop

instance (source : String) (cursor : Cursor) : Decidable (cursor.InBounds source) :=
  decidable_of_iff
    (cursor.pos ≤ cursor.stop ∧ IsBoundary source cursor.pos ∧ IsBoundary source cursor.stop)
    ⟨fun ⟨le, pos, stop⟩ => ⟨le, pos, stop⟩, fun ⟨le, pos, stop⟩ => ⟨le, pos, stop⟩⟩

/-- The brace that closes a group, `depth` groups being open at `pos`. Only the bytes in front of
the end are given. -/
def closing? (front : List UInt8) : Nat → Nat → Nat → Option (Option Nat)
  | 0, _, _ => none
  | fuel + 1, pos, depth => do
    guard (pos ≤ front.length)
    match (front.drop pos).findIdx? fun byte => Plain.isBrace (Char.ofUInt8 byte) with
    | none => return none
    | some offset =>
      let pos := pos + offset
      let byte ← front[pos]?
      if Char.ofUInt8 byte = '{' then
        closing? front fuel (pos + 1) (depth + 1)
      else do
        guard (0 < depth)
        if depth - 1 = 0 then
          return some pos
        else
          closing? front fuel (pos + 1) (depth - 1)

theorem guard_bind {α : Type} {condition : Prop} [Decidable condition] (holds : condition)
    (next : Option α) : ((guard condition : Option Unit).bind fun _ => next) = next := by
  rw [guard, if_pos holds]
  rfl

section
variable {passed : List UInt8} {chars first rest : List Char} {c : Char} {fuel depth : Nat}

theorem closing?_of_plain (plain : ∀ c ∈ chars, Plain.isBrace c = false) :
    closing? (passed ++ Text.encoded chars) (fuel + 1) passed.length depth = some none := by
  have inside : passed.length ≤ (passed ++ Text.encoded chars).length := by simp
  rw [closing?, List.drop_left, Text.findIdx?_encoded Plain.isBrace_ascii,
    List.findIdx?_eq_none_iff.mpr plain]
  exact guard_bind inside _

/-- The jump ends at the first brace, which is counted. -/
theorem closing?_of_brace (plain : ∀ d ∈ first, Plain.isBrace d = false)
    (brace : Plain.isBrace c = true) (opened : 0 < depth) :
    closing? (passed ++ Text.encoded (first ++ c :: rest)) (fuel + 1) passed.length depth =
      if c = '{' then
        closing? (passed ++ Text.encoded (first ++ c :: rest)) fuel
          (passed.length + utf8Len first + 1) (depth + 1)
      else if depth = 1 then
        some (some (passed.length + utf8Len first))
      else
        closing? (passed ++ Text.encoded (first ++ c :: rest)) fuel
          (passed.length + utf8Len first + 1) (depth - 1) := by
  have inside : passed.length ≤ (passed ++ Text.encoded (first ++ c :: rest)).length := by simp
  have here : (passed ++ Text.encoded (first ++ c :: rest))[passed.length + utf8Len first]? =
      some (UInt8.ofNat c.toNat) := by
    rw [List.getElem?_append_right (Nat.le_add_right ..), Nat.add_sub_cancel_left]
    exact Text.getElem?_encoded (Plain.isBrace_ascii c brace) first rest
  rw [closing?, List.drop_left, Text.findIdx?_encoded_append Plain.isBrace_ascii plain brace]
  have last : depth - 1 = 0 ↔ depth = 1 := by omega
  simp only [Option.bind_eq_bind, guard_bind inside, here, Option.bind_some,
    Text.ofUInt8_ascii (Plain.isBrace_ascii c brace), guard_bind opened, last]
  rfl

/-- The count goes up and down with the braces, and what is jumped over holds none. -/
theorem closing?_eq (inner : Nat) (enough : chars.length < fuel) :
    closing? (passed ++ Text.encoded chars) fuel passed.length (inner + 1) =
      some ((Plain.splitGroup? inner chars).map fun (content, _) =>
        passed.length + utf8Len content) := by
  induction fuel generalizing passed chars inner with
  | zero => omega
  | succ fuel ih =>
    rcases Text.plain_or_cut Plain.isBrace chars with plain | ⟨first, c, rest, rfl, plain, brace⟩
    · have unclosed := Plain.splitGroup?_append plain inner []
      rw [List.append_nil, Plain.splitGroup?, Option.map_none] at unclosed
      rw [closing?_of_plain plain, unclosed, Option.map_none]
    · -- Behind the brace the search goes on, and what it finds is counted from there.
      have onward (inner : Nat) :
          closing? (passed ++ Text.encoded (first ++ c :: rest)) fuel
              (passed.length + utf8Len first + 1) (inner + 1) =
            some ((Plain.splitGroup? inner rest).map fun (content, _) =>
              passed.length + utf8Len (first ++ c :: content)) := by
        have shorter : rest.length < fuel := by
          simp at enough
          omega
        have same : passed ++ Text.encoded (first ++ c :: rest) =
            (passed ++ Text.encoded (first ++ [c])) ++ Text.encoded rest := by
          rw [List.append_cons, Text.encoded_append, List.append_assoc]
        have reached : passed.length + utf8Len first + 1 =
            (passed ++ Text.encoded (first ++ [c])).length := by
          simp [Text.length_encoded, Text.utf8Size_ascii (Plain.isBrace_ascii c brace),
            Nat.add_assoc]
        rw [same, reached, ih inner shorter]
        simp [Text.length_encoded, Nat.add_assoc, Nat.add_left_comm, Nat.add_comm]
      rw [closing?_of_brace plain brace (Nat.succ_pos inner), Plain.splitGroup?_append plain]
      rcases Plain.isBrace_iff.mp brace with rfl | rfl
      · rw [if_pos rfl, onward (inner + 1), Plain.splitGroup?]
        simp [Function.comp_def]
      · rw [if_neg (by decide)]
        cases inner with
        | zero => simp [Plain.splitGroup?]
        | succ inner =>
          rw [if_neg (by omega), Nat.succ_sub_one, onward inner, Plain.splitGroup?]
          simp [Function.comp_def]

end

/-- Where the group ends whose content begins at `start`, and what is reported of it. -/
def groupEnd? (source : String) (start stop : Nat) : Option (Nat × List Event) := do
  let front ← bytes? source 0 stop
  match ← closing? front (front.length + 1) start 1 with
  | some close => return (close, [])
  | none => return (stop, [.groupUnclosed start])

section
variable (registry : Registry) (source : String) (content : Cursor → Option Cursor)

/-- The argument behind the blanks under the cursor; `content` reads what is in its braces. -/
def group (cursor : Cursor) : Option Cursor := do
  guard (cursor.InBounds source)
  let rest ← chars? source cursor.pos cursor.stop
  let trimmed := rest.dropWhile Text.isBlank
  guard (utf8Len trimmed ≤ cursor.stop)
  let opening := cursor.stop - utf8Len trimmed
  if trimmed.head? = some '{' then
    let start := opening + 1
    let (close, events) ← groupEnd? source start cursor.stop
    let inside ← content ⟨start, close, events.foldl Transcript.event cursor.transcript⟩
    guard (inside.pos = close ∧ inside.stop = close)
    let next := min (close + 1) cursor.stop
    guard (cursor.pos ≤ next)
    return ⟨next, cursor.stop, inside.transcript⟩
  else
    guard (cursor.pos ≤ opening ∧ opening ≤ cursor.stop)
    return ⟨opening, cursor.stop, cursor.transcript.event (.argumentAbsent opening)⟩

/-- The command with the arguments that its name asks for. -/
def bound (mapping : Mapping) (name : String) (cursor : Cursor) : Option Cursor :=
  let cursor := { cursor with transcript := cursor.transcript.command mapping.id }
  match Command.Class.ofName name with
  | .binary => do
    let cursor ← group source content cursor
    let cursor := { cursor with transcript := cursor.transcript.nav mapping.advance }
    let cursor ← group source content cursor
    return { cursor with transcript := cursor.transcript.nav mapping.exit }
  | .unary => do
    let cursor ← group source content cursor
    return { cursor with transcript := cursor.transcript.nav mapping.exit }
  | .wrapper | .function | .layout | .symbol _ | .unknown => return cursor

/-- The command under the cursor, to which no mapping is bound. -/
def unbound (name : String) (nameEnd : Nat) (cursor : Cursor) : Option Cursor :=
  match Command.Class.ofName name with
  | .wrapper => group source content { cursor with pos := nameEnd }
  | .function => return ⟨nameEnd, cursor.stop, cursor.transcript.text name⟩
  | .layout => return { cursor with pos := nameEnd }
  | .symbol value => do
    let front ← bytes? source 0 cursor.stop
    let next := if front[nameEnd]?.map Char.ofUInt8 = some ' ' then nameEnd + 1 else nameEnd
    return ⟨next, cursor.stop, cursor.transcript.char value⟩
  | .binary | .unary | .unknown =>
    return ⟨cursor.pos + 1, cursor.stop,
      (cursor.transcript.event (.unknownCommand name)).char '\\'⟩

/-- The command whose backslash is under the cursor. -/
def command (cursor : Cursor) : Option Cursor := do
  let start := cursor.pos + 1
  let rest ← bytes? source start cursor.stop
  if rest.head?.map Char.ofUInt8 = some ',' then
    return ⟨cursor.pos + 2, cursor.stop, cursor.transcript.char ' '⟩
  else
    let nameEnd := start + (rest.takeWhile fun byte => (Char.ofUInt8 byte).isAlpha).length
    let name ← (chars? source start nameEnd).map String.ofList
    match registry.byTrigger? name with
    | some mapping => bound source content mapping name { cursor with pos := nameEnd }
    | none => unbound source content name nameEnd cursor

/-- The marker under the cursor. -/
def marker (c : Char) (cursor : Cursor) : Option Cursor := do
  let cursor := { cursor with pos := cursor.pos + c.utf8Size }
  match registry.byTrigger? (String.singleton c) with
  | none => return { cursor with transcript := cursor.transcript.char c }
  | some mapping =>
    let cursor := { cursor with transcript := cursor.transcript.command mapping.id }
    guard (cursor.InBounds source)
    let cursor ← match (← chars? source cursor.pos cursor.stop).head? with
      | some '{' => group source content cursor
      | some d => some ⟨cursor.pos + d.utf8Size, cursor.stop, cursor.transcript.char d⟩
      | none => some cursor
    return { cursor with transcript := cursor.transcript.nav mapping.exit }

/-- The construct that begins with the character under the cursor. -/
def construct (c : Char) (cursor : Cursor) : Option Cursor :=
  match c with
  | '\\' => command registry source content cursor
  | '^' => marker registry source content '^' cursor
  | '_' => marker registry source content '_' cursor
  | '$' => return { cursor with pos := cursor.pos + 1 }
  | c => return ⟨cursor.pos + c.utf8Size, cursor.stop, cursor.transcript.char c⟩

end

/-- Read constructs up to the end of the range. -/
def range (registry : Registry) (source : String) : Nat → Cursor → Option Cursor
  | 0, _ => none
  | fuel + 1, cursor => do
    guard (cursor.InBounds source)
    match (← chars? source cursor.pos cursor.stop).head? with
    | none => do
      guard (cursor.pos = cursor.stop)
      return cursor
    | some c => do
      let next ← construct registry source (range registry source fuel) c cursor
      guard (cursor.pos < next.pos ∧ next.stop = cursor.stop)
      range registry source fuel next

/-- The cursor behind a construct, whose pieces have been added. -/
def Cursor.behind (registry : Registry) (source : String) (cursor : Cursor)
    (construct : Construct) : Cursor :=
  ⟨construct.next, cursor.stop,
    construct.pieces.foldl (Transcript.piece (scan registry source)) cursor.transcript⟩

/-- The reader scans every range that is shorter than `width`. -/
def Scans (registry : Registry) (source : String) (content : Cursor → Option Cursor)
    (width : Nat) : Prop :=
  ∀ {pos stop : Nat} {chars : List Char}, Spans source pos stop chars → stop - pos < width →
    ∀ transcript, content ⟨pos, stop, transcript⟩ =
      some ⟨stop, stop, scan registry source pos stop transcript⟩

section
variable {registry : Registry} {source : String} {content : Cursor → Option Cursor}
  {width pos stop : Nat} {chars : List Char} {transcript : Transcript}

theorem inBounds_of_spans (spans : Spans source pos stop chars) :
    (⟨pos, stop, transcript⟩ : Cursor).InBounds source :=
  ⟨spans.start_le, spans.isBoundary, spans.isBoundary_stop⟩

theorem groupEnd?_of_spans (spans : Spans source pos stop chars) :
    groupEnd? source pos stop = some ((closer? source pos stop 0).elim
      (stop, [.groupUnclosed pos]) fun close => (close, [])) := by
  obtain ⟨passed, rfl, front⟩ := spans.front_eq
  have enough : chars.length < (passed ++ Text.encoded chars).length + 1 := by
    have := Text.length_le_length_encoded chars
    rw [List.length_append]
    omega
  rw [groupEnd?, front, Option.bind_eq_bind, Option.bind_some, closing?_eq 0 enough,
    ← spans.closer?_eq 0]
  cases closer? source passed.length stop 0 <;> rfl

/-- The argument is read, the end is where it was, and the cursor stands behind the argument. -/
theorem group_eq (scans : Scans registry source content width)
    (spans : Spans source pos stop chars) (narrow : stop - pos ≤ width) :
    group source content ⟨pos, stop, transcript⟩ =
      some (Cursor.behind registry source ⟨pos, stop, transcript⟩
        ⟨(Argument.read source pos stop).pieces, (Argument.read source pos stop).next⟩) := by
  have opening := (spans.skip Text.isBlank).2
  have seen := opening.peek?_eq
  have ahead := le_skipWhile Text.isBlank source pos stop
  have reached : stop - utf8Len (chars.dropWhile Text.isBlank) =
      skipWhile Text.isBlank source pos stop := by
    have := opening.stop_eq
    omega
  have room : utf8Len (chars.dropWhile Text.isBlank) ≤ stop := by
    have := opening.stop_eq
    omega
  unfold group Argument.read
  simp only [Option.bind_eq_bind, guard_bind (inBounds_of_spans spans), spans.chars?_eq,
    Option.bind_some, guard_bind room, reached, seen]
  split
  next opens =>
    obtain ⟨inside, same⟩ := List.head?_eq_some_iff.mp opens
    rw [same] at opening
    have inner : Spans source (skipWhile Text.isBlank source pos stop + 1) stop inside :=
      opening.tail
    have ends := groupEnd?_of_spans inner
    have shorter := inner.start_le
    simp only [opens]
    cases brace : closer? source (skipWhile Text.isBlank source pos stop + 1) stop 0 with
    | none =>
      rw [brace, Option.elim_none] at ends
      rw [ends, Option.bind_some, scans inner (by omega), Option.bind_some, guard_bind ⟨rfl, rfl⟩,
        Nat.min_eq_right (Nat.le_succ stop), guard_bind spans.start_le]
      rfl
    | some close =>
      obtain ⟨group, rest, cut, within, behind⟩ := inner.of_closer? brace
      have bounds := closer?_bounds brace
      rw [brace, Option.elim_some] at ends
      rw [ends, Option.bind_some, scans within (by omega), Option.bind_some, guard_bind ⟨rfl, rfl⟩,
        Nat.min_eq_left bounds.2, guard_bind (by omega)]
      rfl
  next noBrace =>
    have within := opening.start_le
    rw [guard_bind ⟨ahead, within⟩]
    split
    next opens => exact (noBrace opens).elim
    next => rfl

theorem bound_eq (scans : Scans registry source content width)
    (spans : Spans source pos stop chars) (narrow : stop - pos ≤ width) (mapping : Mapping)
    (name : String) :
    bound source content mapping name ⟨pos, stop, transcript⟩ =
      some (Cursor.behind registry source ⟨pos, stop, transcript⟩
        (Construct.ofMapping mapping name source pos stop)) := by
  have later := Argument.le_next source pos stop
  have middle := spans.argument.1
  unfold bound Construct.ofMapping
  cases Command.Class.ofName name with
  | binary =>
    simp only [Option.bind_eq_bind, group_eq scans spans narrow, Option.bind_some, Cursor.behind]
    rw [group_eq scans middle (by omega)]
    simp [Cursor.behind, Transcript.piece]
  | unary =>
    simp only [Option.bind_eq_bind, group_eq scans spans narrow, Option.bind_some, Cursor.behind]
    simp [Transcript.piece]
  | wrapper | function | layout | symbol | unknown => rfl

theorem unbound_eq {slash : Nat} (scans : Scans registry source content width)
    (spans : Spans source pos stop chars) (narrow : stop - pos ≤ width) (name : String) :
    unbound source content name pos ⟨slash, stop, transcript⟩ =
      some (Cursor.behind registry source ⟨slash, stop, transcript⟩
        (Construct.ofUnbound name source slash pos stop)) := by
  unfold unbound Construct.ofUnbound
  cases Command.Class.ofName name with
  | wrapper => exact group_eq scans spans narrow
  | symbol value =>
    obtain ⟨passed, rfl, front⟩ := spans.front_eq
    have space : (passed ++ Text.encoded chars)[passed.length]?.map Char.ofUInt8 = some ' ' ↔
        chars.head? = some ' ' := by
      rw [← Text.head?_encoded (by decide) chars, List.getElem?_append_right (Nat.le_refl _),
        Nat.sub_self, List.head?_eq_getElem?]
    simp only [Option.bind_eq_bind, front, Option.bind_some, space, spans.peek?_eq]
    rfl
  | function | layout | binary | unary | unknown => rfl

theorem command_eq {slash : Nat} (scans : Scans registry source content width)
    (spans : Spans source slash stop ('\\' :: chars)) (narrow : stop - slash ≤ width) :
    command registry source content ⟨slash, stop, transcript⟩ =
      some (Cursor.behind registry source ⟨slash, stop, transcript⟩
        (Construct.ofCommand registry source slash stop)) := by
  have letters : Spans source (slash + 1) stop chars := spans.tail
  obtain ⟨named, behind⟩ := letters.skip Char.isAlpha
  have later := le_skipWhile Char.isAlpha source (slash + 1) stop
  have length : slash + 1 + (Text.encoded (chars.takeWhile Char.isAlpha)).length =
      skipWhile Char.isAlpha source (slash + 1) stop := by
    rw [Text.length_encoded, letters.skipWhile_eq]
  unfold command Construct.ofCommand
  simp only [Option.bind_eq_bind, letters.bytes?_eq, Option.bind_some, letters.peek?_eq,
    Text.head?_encoded (show ','.toNat < 128 by decide), Text.takeWhile_encoded Text.isAlpha_ascii,
    length, named.chars?_eq, Option.map_some, named.slice_eq]
  split
  next comma => rfl
  next noComma =>
    cases registry.byTrigger? (String.ofList (chars.takeWhile Char.isAlpha)) with
    | some mapping => exact bound_eq scans behind (by omega) mapping _
    | none => exact unbound_eq scans behind (by omega) _

theorem marker_eq {c : Char} (single : c.utf8Size = 1)
    (scans : Scans registry source content width) (spans : Spans source pos stop (c :: chars))
    (narrow : stop - pos ≤ width) :
    marker registry source content c ⟨pos, stop, transcript⟩ =
      some (Cursor.behind registry source ⟨pos, stop, transcript⟩
        (Construct.ofMarker registry c source pos stop)) := by
  have behind : Spans source (pos + 1) stop chars := single ▸ spans.tail
  unfold marker Construct.ofMarker
  rw [single]
  cases registry.byTrigger? (String.singleton c) with
  | none => rfl
  | some mapping =>
    simp only [Option.bind_eq_bind, guard_bind (inBounds_of_spans behind), behind.chars?_eq,
      Option.bind_some, behind.peek?_eq]
    cases chars with
    | nil => rfl
    | cons d rest =>
      by_cases brace : d = '{'
      · subst brace
        simp only [List.head?_cons, group_eq scans behind (by omega), Option.bind_some]
        simp [Cursor.behind, Transcript.piece]
      · simp [Cursor.behind, Transcript.piece]

theorem construct_eq (scans : Scans registry source content width) {c : Char}
    (spans : Spans source pos stop (c :: chars)) (narrow : stop - pos ≤ width)
    (transcript : Transcript) :
    (Construct.read? registry source pos stop).map
        (Cursor.behind registry source ⟨pos, stop, transcript⟩) =
      construct registry source content c ⟨pos, stop, transcript⟩ := by
  have seen := spans.peek?_eq
  unfold Construct.read? construct
  split
  next found =>
    cases seen.symm.trans found
    exact (command_eq scans spans narrow).symm
  next found =>
    cases seen.symm.trans found
    exact (marker_eq rfl scans spans narrow).symm
  next found =>
    cases seen.symm.trans found
    exact (marker_eq rfl scans spans narrow).symm
  next found =>
    cases seen.symm.trans found
    rfl
  next d notSlash notHat notBar notDollar found =>
    cases seen.symm.trans found
    split <;> first | contradiction | rfl
  next found => cases seen.symm.trans found

end

/-- The cursor reads its range to the end, and the transcript is that of `scan`. -/
theorem range_eq (registry : Registry) (source : String) (fuel : Nat) :
    Scans registry source (range registry source fuel) fuel := by
  induction fuel with
  | zero =>
    intro pos stop chars spans enough
    omega
  | succ fuel ih =>
    intro pos stop chars spans enough transcript
    rw [range]
    simp only [Option.bind_eq_bind, guard_bind (inBounds_of_spans spans), spans.chars?_eq,
      Option.bind_some]
    cases chars with
    | nil =>
      obtain rfl : pos = stop := by simpa using spans.stop_eq.symm
      rw [scan_of_read?_none transcript (spans.read?_nil registry)]
      exact guard_bind rfl _
    | cons c chars =>
      obtain ⟨construct, found, same⟩ := spans.read?_cons registry
      have room := Construct.lt_of_read? found
      have onward := (Construct.within_of_read? found).lt_next
      have step := construct_eq ih spans (show stop - pos ≤ fuel by omega) transcript
      rw [found] at step
      simp only [List.head?_cons, ← step, Option.map_some, Option.bind_some]
      rw [guard_bind ⟨onward, rfl⟩, scan_of_read? transcript found]
      exact ih same.behind (by omega) _

/-- With enough fuel, a range is read exactly when it lies between two boundaries. -/
theorem isSome_range_iff (registry : Registry) {source : String} {cursor : Cursor} {fuel : Nat}
    (enough : cursor.stop - cursor.pos < fuel) :
    (range registry source fuel cursor).isSome ↔ cursor.InBounds source := by
  constructor
  · intro reads
    by_contra outside
    cases fuel with
    | zero => omega
    | succ fuel =>
      rw [range, guard, if_neg outside] at reads
      cases reads
  · intro inBounds
    obtain ⟨chars, spans⟩ := Spans.exists_of_isBoundary inBounds.pos inBounds.stop inBounds.le
    exact Option.isSome_of_eq_some (range_eq registry source fuel spans enough cursor.transcript)

/-- The second byte of a character is not where a range begins. -/
example : range Registry.starter "\u00e9" 2 ⟨1, 2, .empty⟩ = none := by decide +kernel

/-- Read the whole markup; the cursor has to arrive at the end. -/
def read? (registry : Registry) (markup : String) : Option Reading := do
  let last ← range registry markup (markup.utf8ByteSize + 1) ⟨0, markup.utf8ByteSize, .empty⟩
  guard (last.pos = markup.utf8ByteSize ∧ last.stop = markup.utf8ByteSize)
  let actions := last.transcript.actions.finish
  return ⟨actions,
    last.transcript.events.toList ++ [.parsed markup.utf8ByteSize actions.length]⟩

theorem read?_eq (registry : Registry) (markup : String) :
    read? registry markup = some (read registry markup) := by
  have whole := range_eq registry markup (markup.utf8ByteSize + 1) (Spans.whole markup)
    (Nat.lt_succ_self _) .empty
  rw [read?, whole]
  exact guard_bind ⟨rfl, rfl⟩ _

/-- No check fails, neither for a whole markup nor for a range between two of its boundaries. The
fuel that is needed is the length of the range. A range is read up to its end; behind an argument
the end is what it was before, and the cursor has not moved back or beyond it. -/
theorem never_fails (registry : Registry) (markup : String) :
    read? registry markup = some (read registry markup) ∧
      ∀ (cursor : Cursor) (fuel : Nat), cursor.InBounds markup →
        cursor.stop - cursor.pos < fuel →
          range registry markup fuel cursor =
              some ⟨cursor.stop, cursor.stop,
                scan registry markup cursor.pos cursor.stop cursor.transcript⟩ ∧
            ∃ next transcript,
              group markup (range registry markup fuel) cursor =
                some ⟨next, cursor.stop, transcript⟩ ∧
              cursor.pos ≤ next ∧ next ≤ cursor.stop := by
  refine ⟨read?_eq registry markup, fun cursor fuel inBounds enough => ?_⟩
  obtain ⟨chars, spans⟩ := Spans.exists_of_isBoundary inBounds.pos inBounds.stop inBounds.le
  refine ⟨range_eq registry markup fuel spans enough cursor.transcript, ?_⟩
  exact ⟨_, _, group_eq (range_eq registry markup fuel) spans (Nat.le_of_lt enough),
    Argument.le_next markup cursor.pos cursor.stop, spans.argument.1.start_le⟩

theorem never_fails_root :
    (⟨6, 8, .empty⟩ : Cursor).InBounds "\\sqrt\x7bé\x7d" ∧
      range .starter "\\sqrt\x7bé\x7d" 3 ⟨6, 8, .empty⟩ =
        some ⟨8, 8, scan .starter "\\sqrt\x7bé\x7d" 6 8 .empty⟩ := by
  have inBounds : (⟨6, 8, .empty⟩ : Cursor).InBounds "\\sqrt\x7bé\x7d" :=
    ⟨by decide, isBoundary_iff.mpr ⟨"\\sqrt\x7b".toList, "é\x7d".toList, by decide, by decide⟩,
      isBoundary_iff.mpr ⟨"\\sqrt\x7bé".toList, "\x7d".toList, by decide, by decide⟩⟩
  exact ⟨inBounds, ((never_fails .starter "\\sqrt\x7bé\x7d").2 _ 3 inBounds (by decide)).1⟩

end Checked

end FormulaKeys.Markup
