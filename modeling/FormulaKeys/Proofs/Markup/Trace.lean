import FormulaKeys.Proofs.Markup.Lookup
import FormulaKeys.Proofs.Markup.Slice
import FormulaKeys.Proofs.Markup.Unmatched
import Mathlib.Data.List.Pairwise

/-! Where the events say that something is.

The positions in the events are positions in the whole markup, also where a group is
read in a range of its own. They ascend, as the groups of a construct lie one behind
the other, and a group is reported in front of what is in it.
-/

set_option autoImplicit false

namespace FormulaKeys

open String (utf8Len)

namespace Event

/-- The place in the markup that the event speaks of. -/
def position? : Event → Option Nat
  | argumentAbsent pos => some pos
  | groupUnclosed start => some start
  | unknownCommand _ | parsed _ _ | generating _ _ | generated _ _ _ => none

def unclosedStart? : Event → Option Nat
  | groupUnclosed start => some start
  | argumentAbsent _ | unknownCommand _ | parsed _ _ | generating _ _ | generated _ _ _ => none

end Event

namespace Markup

variable {source : String} {low mid high pos stop : Nat} {chars rest : List Char}

/-- At the offset the markup ends, or a character stands there that neither opens a group nor is
blank. -/
def NoGroupAt (source : String) (pos : Nat) : Prop :=
  ∃ before behind, source.toList = before ++ behind ∧ pos = utf8Len before ∧
    ∀ c, behind.head? = some c → c ≠ '{' ∧ Text.isBlank c = false

/-- The brace in front of the offset opens a group, and nothing in the markup closes it. -/
def UnmatchedBefore (source : String) (start : Nat) : Prop :=
  ∃ before inside, source.toList = before ++ '{' :: inside ∧ start = utf8Len before + 1 ∧
    ¬Closes inside

theorem NoGroupAt.isBoundary (here : NoGroupAt source pos) : IsBoundary source pos := by
  obtain ⟨before, behind, text, start, _⟩ := here
  exact isBoundary_iff.mpr ⟨before, behind, text, start⟩

theorem UnmatchedBefore.isBoundary (here : UnmatchedBefore source pos) :
    IsBoundary source pos := by
  obtain ⟨before, inside, text, rfl, _⟩ := here
  exact isBoundary_iff.mpr ⟨before ++ ['{'], inside, by rw [text, List.append_cons],
    (String.utf8Len_append before ['{']).symm⟩

/-- What the events say is true, and it is said in the order of the markup, from one offset to
another. -/
inductive Traces (source : String) : Nat → List Event → Nat → Prop where
  | done {low high : Nat} (le : low ≤ high) : Traces source low [] high
  | unknown {low high : Nat} {events : List Event} {name : String}
      (behind : Traces source low events high) :
      Traces source low (.unknownCommand name :: events) high
  | absent {low pos high : Nat} {events : List Event} (le : low ≤ pos)
      (here : NoGroupAt source pos) (behind : Traces source pos events high) :
      Traces source low (.argumentAbsent pos :: events) high
  | unclosed {low start high : Nat} {events : List Event} (lt : low < start)
      (here : UnmatchedBefore source start) (behind : Traces source start events high) :
      Traces source low (.groupUnclosed start :: events) high

namespace Traces

variable {events more : List Event}

theorem widen (le : low ≤ mid) (traces : Traces source mid events high) :
    Traces source low events high := by
  induction traces with
  | done further => exact .done (Nat.le_trans le further)
  | unknown _ ih => exact .unknown (ih le)
  | absent further here behind => exact .absent (Nat.le_trans le further) here behind
  | unclosed further here behind => exact .unclosed (Nat.lt_of_le_of_lt le further) here behind

theorem append (traces : Traces source low events mid) (behind : Traces source mid more high) :
    Traces source low (events ++ more) high := by
  induction traces with
  | done le => exact behind.widen le
  | unknown _ ih => exact .unknown (ih behind)
  | absent le here _ ih => exact .absent le here (ih behind)
  | unclosed lt here _ ih => exact .unclosed lt here (ih behind)

/-- The positions ascend, beginning at `low` or behind it. -/
theorem positions (traces : Traces source low events high) :
    (low :: events.filterMap Event.position?).Pairwise (· ≤ ·) := by
  induction traces with
  | done => exact List.pairwise_singleton ..
  | unknown _ ih => exact ih
  | absent le _ _ ih => exact .cons_cons_of_trans le ih
  | unclosed lt _ _ ih => exact .cons_cons_of_trans (Nat.le_of_lt lt) ih

theorem unclosedStarts (traces : Traces source low events high) :
    (low :: events.filterMap Event.unclosedStart?).Pairwise (· < ·) := by
  induction traces with
  | done => exact List.pairwise_singleton ..
  | unknown _ ih => exact ih
  | absent le _ _ ih =>
    rw [List.pairwise_cons] at ih
    exact List.pairwise_cons.mpr
      ⟨fun start mem => Nat.lt_of_le_of_lt le (ih.1 start mem), ih.2⟩
  | unclosed lt _ _ ih => exact .cons_cons_of_trans lt ih

theorem noGroupAt (traces : Traces source low events high)
    (mem : .argumentAbsent pos ∈ events) : NoGroupAt source pos := by
  induction traces with
  | done => cases mem
  | unknown _ ih | unclosed _ _ _ ih => exact ih (by simpa using mem)
  | absent _ here _ ih =>
    rcases List.mem_cons.mp mem with same | mem
    · cases same
      exact here
    · exact ih mem

theorem unmatchedBefore {start : Nat} (traces : Traces source low events high)
    (mem : .groupUnclosed start ∈ events) : UnmatchedBefore source start := by
  induction traces with
  | done => cases mem
  | unknown _ ih | absent _ _ _ ih => exact ih (by simpa using mem)
  | unclosed _ here _ ih =>
    rcases List.mem_cons.mp mem with same | mem
    · cases same
      exact here
    · exact ih mem

theorem isBoundary (traces : Traces source low events high) {pos : Nat}
    (mem : pos ∈ events.filterMap Event.position?) : IsBoundary source pos := by
  obtain ⟨event, mem, at?⟩ := List.mem_filterMap.mp mem
  cases event with
  | argumentAbsent =>
    cases at?
    exact (traces.noGroupAt mem).isBoundary
  | groupUnclosed =>
    cases at?
    exact (traces.unmatchedBefore mem).isBoundary
  | unknownCommand | parsed | generating | generated => cases at?

theorem parsed_notMem (traces : Traces source low events high) (inputLength actions : Nat) :
    .parsed inputLength actions ∉ events := by
  induction traces with
  | done => exact List.not_mem_nil
  | unknown _ ih | absent _ _ _ ih | unclosed _ _ _ ih => simpa using ih

end Traces

/-- Where the range ends, the markup does, or else a brace closes the range and every brace in it
is closed. -/
structure Enclosed (source : String) (pos stop : Nat) (chars : List Char) : Prop where
  spans : Spans source pos stop chars
  ends : stop = source.utf8ByteSize ∨ Closed chars ∧
    ∃ before behind, source.toList = before ++ '}' :: behind ∧ stop = utf8Len before

namespace Enclosed

theorem whole (source : String) : Enclosed source 0 source.utf8ByteSize source.toList :=
  ⟨Spans.whole source, .inl rfl⟩

theorem suffix (enclosed : Enclosed source low stop chars) (spans : Spans source pos stop rest)
    (behind : rest <:+ chars) : Enclosed source pos stop rest :=
  ⟨spans, enclosed.ends.imp_right fun ⟨closed, brace⟩ => ⟨closed.of_suffix behind, brace⟩⟩

/-- What comes first behind the blanks opens no group. -/
theorem noGroupAt (enclosed : Enclosed source pos stop chars) (noBrace : chars.head? ≠ some '{')
    (noBlank : ∀ c, chars.head? = some c → Text.isBlank c = false) : NoGroupAt source pos := by
  obtain ⟨before, behind, text, start⟩ := enclosed.spans.toList_eq
  have length := enclosed.spans.stop_eq
  cases chars with
  | nil =>
    rw [String.utf8Len_nil, Nat.add_zero] at length
    subst length
    rcases enclosed.ends with whole | ⟨_, passed, rest, sameText, start⟩
    · exact ⟨source.toList, [], (List.append_nil _).symm,
        by rw [whole, String.utf8Len_toList], by simp⟩
    · refine ⟨passed, '}' :: rest, sameText, start, fun c first => ?_⟩
      cases first
      decide
  | cons c chars =>
    refine ⟨before, c :: chars ++ behind, by rw [text, List.append_assoc], start, fun d first => ?_⟩
    cases first
    exact ⟨fun opens => noBrace (congrArg some opens), noBlank c rfl⟩

/-- A group without an end reaches to the end of the markup, for elsewhere every group ends. -/
theorem unmatchedBefore (enclosed : Enclosed source pos stop ('{' :: chars))
    (unclosed : ¬Closes chars) : UnmatchedBefore source (pos + 1) := by
  obtain ⟨before, behind, text, start⟩ := enclosed.spans.toList_eq
  rcases enclosed.ends with whole | ⟨closed, _⟩
  · have nothing : behind = [] := by
      have length := enclosed.spans.stop_eq
      rw [whole, ← String.utf8Len_toList, text, String.utf8Len_append, String.utf8Len_append,
        start] at length
      exact String.utf8Len_eq_zero.mp (by omega)
    subst nothing
    exact ⟨before, chars, by rw [text, List.append_nil], congrArg (· + 1) start, unclosed⟩
  · exact (unclosed (closed [] chars rfl)).elim

end Enclosed

/-- Where the argument of a command is found. -/
inductive Finds (source : String) (pos stop : Nat) : Argument → Prop where
  | absent {opening : Nat} (le : pos ≤ opening) (here : NoGroupAt source opening) :
      Finds source pos stop (.absent opening)
  | closed {start close : Nat} {content : List Char} (lt : pos < start)
      (inside : Enclosed source start close content) : Finds source pos stop (.closed start close)
  | unclosed {start : Nat} {content : List Char} (lt : pos < start)
      (here : UnmatchedBefore source start) (inside : Enclosed source start stop content) :
      Finds source pos stop (.unclosed start stop)

theorem Enclosed.finds (enclosed : Enclosed source pos stop chars) :
    Finds source pos stop (Argument.read source pos stop) := by
  have opening := (enclosed.spans.skip Text.isBlank).2
  have further := le_skipWhile Text.isBlank source pos stop
  have trimmed := enclosed.suffix opening (List.dropWhile_suffix Text.isBlank)
  have seen := opening.peek?_eq
  unfold Argument.read
  dsimp only
  split
  next found =>
    obtain ⟨inside, same⟩ := List.head?_eq_some_iff.mp (seen.symm.trans found)
    rw [same] at trimmed
    have content : Spans source (skipWhile Text.isBlank source pos stop + 1) stop inside :=
      trimmed.spans.tail
    split
    next close brace =>
      obtain ⟨group, rest, cut, within, behind⟩ := content.of_closer? brace
      refine .closed (Nat.lt_succ_of_le further) ⟨within, .inr ⟨?_, ?_⟩⟩
      · exact (Plain.balanced_of_splitGroup? cut).closed
      · rw [Plain.splitGroup?_eq cut] at content
        obtain ⟨before, more, text, start⟩ := content.split.2.toList_eq
        exact ⟨before, rest ++ more, by simpa using text, within.stop_eq.trans start⟩
    next unclosed =>
      have unmatched : ¬Closes inside := by
        rwa [content.closer?_eq 0, Option.map_eq_none_iff,
          Plain.splitGroup?_eq_none_iff] at unclosed
      exact .unclosed (Nat.lt_succ_of_le further) (trimmed.unmatchedBefore unmatched)
        (trimmed.suffix content (List.suffix_cons ..))
  next noBrace =>
    refine .absent further (trimmed.noGroupAt (by rwa [← seen]) fun c first => ?_)
    have notBlank := List.head?_dropWhile_not Text.isBlank chars
    rwa [first] at notBlank

theorem Enclosed.behindArgument (enclosed : Enclosed source pos stop chars) :
    Enclosed source (Argument.read source pos stop).next stop (Plain.takeArgument chars).2 :=
  enclosed.suffix enclosed.spans.argument.1 (Plain.takeArgument_suffix rfl)

/-- What the reader adds to the events goes from one offset to another. -/
def Adds (source : String) (low high : Nat) (reader : Transcript → Transcript) : Prop :=
  ∃ events, Traces source low events high ∧ ∀ transcript,
    (reader transcript).events.toList = transcript.events.toList ++ events

namespace Adds

variable {first second : Transcript → Transcript}

theorem nothing (le : low ≤ high) (silent : ∀ transcript, (first transcript).events =
    transcript.events) : Adds source low high first :=
  ⟨[], .done le, fun transcript => by rw [silent, List.append_nil]⟩

theorem andThen (adds : Adds source low mid first) (behind : Adds source mid high second) :
    Adds source low high fun transcript => second (first transcript) := by
  obtain ⟨events, traces, same⟩ := adds
  obtain ⟨more, further, sameMore⟩ := behind
  exact ⟨events ++ more, traces.append further, fun transcript => by
    rw [sameMore, same, List.append_assoc]⟩

theorem widen (adds : Adds source mid high first) (le : low ≤ mid) :
    Adds source low high first := by
  obtain ⟨events, traces, same⟩ := adds
  exact ⟨events, traces.widen le, same⟩

theorem event {event : Event} (traces : Traces source low [event] high) :
    Adds source low high fun transcript => transcript.event event :=
  ⟨[event], traces, fun _ => Array.toList_push⟩

end Adds

/-- A piece that says nothing of any place. -/
def Piece.isSilent : Piece → Bool
  | .text _ | .char _ | .command _ | .nav _ | .event (.unknownCommand _) => true
  | .group _ _ | .event _ => false

theorem Adds.silent {piece : Piece} (silent : piece.isSilent = true)
    (content : Nat → Nat → Transcript → Transcript) (pos : Nat) :
    Adds source pos pos fun transcript => transcript.piece content piece := by
  cases piece with
  | text | char | command | nav => exact .nothing (Nat.le_refl _) fun _ => rfl
  | group => cases silent
  | event event =>
    cases event with
    | unknownCommand name => exact .event (.unknown (.done (Nat.le_refl _)))
    | argumentAbsent | groupUnclosed | parsed | generating | generated => cases silent

/-- The pieces that are not silent are those of arguments, which are read one behind the other. -/
inductive Along (source : String) (stop : Nat) : Nat → List Piece → Nat → Prop where
  | done {low high : Nat} (le : low ≤ high) : Along source stop low [] high
  | silent {low high : Nat} {piece : Piece} {pieces : List Piece}
      (silent : piece.isSilent = true) (behind : Along source stop low pieces high) :
      Along source stop low (piece :: pieces) high
  | argument {low pos high : Nat} {chars : List Char} {pieces : List Piece} (le : low ≤ pos)
      (enclosed : Enclosed source pos stop chars)
      (behind : Along source stop (Argument.read source pos stop).next pieces high) :
      Along source stop low ((Argument.read source pos stop).pieces ++ pieces) high

section
variable {pieces : List Piece} {content : Nat → Nat → Transcript → Transcript}

/-- An argument adds what is to be said of it, as soon as its content does. -/
theorem Finds.adds {argument : Argument} (finds : Finds source pos stop argument)
    (groups : ∀ start close chars, .group start close ∈ argument.pieces →
      Enclosed source start close chars → Adds source start close (content start close)) :
    Adds source pos argument.next fun transcript =>
      argument.pieces.foldl (Transcript.piece content) transcript := by
  cases finds with
  | absent le here => exact .event (.absent le here (.done (Nat.le_refl _)))
  | @closed start close chars lt inside =>
    have within := groups _ _ _ List.mem_cons_self inside
    have brace : Adds source close (close + 1) id := .nothing (Nat.le_succ close) fun _ => rfl
    exact (within.widen (Nat.le_of_lt lt)).andThen brace
  | @unclosed start chars lt here inside =>
    have within := groups start stop _ (by simp [Argument.pieces]) inside
    exact (Adds.event (.unclosed lt here (.done (Nat.le_refl _)))).andThen within

theorem Along.adds (along : Along source stop low pieces high)
    (groups : ∀ start close chars, .group start close ∈ pieces →
      Enclosed source start close chars → Adds source start close (content start close)) :
    Adds source low high fun transcript => pieces.foldl (Transcript.piece content) transcript := by
  induction along with
  | done le => exact .nothing le fun _ => rfl
  | silent silent _ ih =>
    exact (Adds.silent silent content _).andThen
      (ih fun start close chars mem => groups start close chars (List.mem_cons_of_mem _ mem))
  | argument le enclosed _ ih =>
    simp only [List.foldl_append]
    refine ((enclosed.finds.adds fun start close chars mem => ?_).widen le).andThen
      (ih fun start close chars mem => ?_)
    · exact groups start close chars (List.mem_append_left _ mem)
    · exact groups start close chars (List.mem_append_right _ mem)

end

namespace Enclosed

theorem along_ofMapping (mapping : Mapping) (name : String) (le : low ≤ pos)
    (enclosed : Enclosed source pos stop chars) :
    Along source stop low (Construct.ofMapping mapping name source pos stop).pieces
      (Construct.ofMapping mapping name source pos stop).next := by
  have stay (pos : Nat) : Along source stop pos [.nav mapping.exit] pos :=
    .silent rfl (.done (Nat.le_refl _))
  unfold Construct.ofMapping
  cases Command.Class.ofName name with
  | binary =>
    simp only [List.append_assoc, List.cons_append]
    exact .silent rfl (.argument le enclosed
      (.silent rfl (.argument (Nat.le_refl _) enclosed.behindArgument (stay _))))
  | unary => exact .silent rfl (.argument le enclosed (stay _))
  | wrapper | function | layout | symbol | unknown => exact .silent rfl (.done le)

theorem along_ofUnbound (name : String) {slash : Nat} (le : slash ≤ pos)
    (enclosed : Enclosed source pos stop chars) :
    Along source stop slash (Construct.ofUnbound name source slash pos stop).pieces
      (Construct.ofUnbound name source slash pos stop).next := by
  unfold Construct.ofUnbound
  cases Command.Class.ofName name with
  | wrapper =>
    have along : Along source stop slash ((Argument.read source pos stop).pieces ++ [])
      (Argument.read source pos stop).next := .argument le enclosed (.done (Nat.le_refl _))
    rwa [List.append_nil] at along
  | function => exact .silent rfl (.done le)
  | layout => exact .done le
  | symbol value =>
    refine .silent rfl (.done ?_)
    dsimp only
    split <;> omega
  | binary | unary | unknown =>
    exact .silent rfl (.silent rfl (.done (Nat.le_succ slash)))

theorem along_ofCommand (registry : Registry) {slash : Nat}
    (enclosed : Enclosed source slash stop ('\\' :: chars)) :
    Along source stop slash (Construct.ofCommand registry source slash stop).pieces
      (Construct.ofCommand registry source slash stop).next := by
  have letters : Spans source (slash + 1) stop chars := enclosed.spans.tail
  have behindName := enclosed.suffix (letters.skip Char.isAlpha).2
    ((List.dropWhile_suffix Char.isAlpha).trans (List.suffix_cons ..))
  have le : slash ≤ skipWhile Char.isAlpha source (slash + 1) stop :=
    Nat.le_of_lt (le_skipWhile ..)
  unfold Construct.ofCommand
  split
  · exact .silent rfl (.done (Nat.le_add_right slash 2))
  · dsimp only
    split
    · exact behindName.along_ofMapping _ _ le
    · exact behindName.along_ofUnbound _ le

theorem along_ofMarker (registry : Registry) {c : Char} (single : c.utf8Size = 1)
    (enclosed : Enclosed source pos stop (c :: chars)) :
    Along source stop pos (Construct.ofMarker registry c source pos stop).pieces
      (Construct.ofMarker registry c source pos stop).next := by
  have behind := enclosed.suffix (single ▸ enclosed.spans.tail) (List.suffix_cons c chars)
  have le := Nat.le_succ pos
  unfold Construct.ofMarker
  split
  next => exact .silent rfl (.done le)
  next mapping bound =>
    split
    next => exact .silent rfl (.argument le behind (.silent rfl (.done (Nat.le_refl _))))
    next =>
      exact .silent rfl (.silent rfl (.silent rfl (.done (Nat.le_trans le (Nat.le_add_right ..)))))
    next => exact .silent rfl (.silent rfl (.done le))

theorem along_read? {registry : Registry} {construct : Construct}
    (enclosed : Enclosed source pos stop chars)
    (found : Construct.read? registry source pos stop = some construct) :
    Along source stop pos construct.pieces construct.next := by
  have seen := enclosed.spans.peek?_eq
  unfold Construct.read? at found
  split at found <;> cases found
  next here =>
    obtain ⟨rest, rfl⟩ := List.head?_eq_some_iff.mp (seen.symm.trans here)
    exact enclosed.along_ofCommand registry
  next here =>
    obtain ⟨rest, rfl⟩ := List.head?_eq_some_iff.mp (seen.symm.trans here)
    exact enclosed.along_ofMarker registry rfl
  next here =>
    obtain ⟨rest, rfl⟩ := List.head?_eq_some_iff.mp (seen.symm.trans here)
    exact enclosed.along_ofMarker registry rfl
  next => exact .done (Nat.le_succ pos)
  next => exact .silent rfl (.done (Nat.le_add_right ..))

/-- What stands behind a construct is enclosed as the construct is. -/
theorem behindConstruct {registry : Registry} {construct : Construct}
    (enclosed : Enclosed source pos stop chars)
    (found : Construct.read? registry source pos stop = some construct) :
    ∃ rest, Enclosed source construct.next stop rest := by
  cases chars with
  | nil => cases (enclosed.spans.read?_nil registry).symm.trans found
  | cons c chars =>
    obtain ⟨same, foundSame, matched⟩ := enclosed.spans.read?_cons registry
    cases foundSame.symm.trans found
    exact ⟨_, enclosed.suffix matched.behind (Plain.construct_reads registry c chars).suffix⟩

end Enclosed

/-- Every range is scanned in the order of the markup. -/
theorem adds_scan (registry : Registry) (source : String) (pos stop : Nat) :
    ∀ chars, Enclosed source pos stop chars →
      Adds source pos stop (scan registry source pos stop) := by
  induction pos, stop using inductionOnRanges registry source with
  | none pos stop ends =>
    intro chars enclosed
    exact .nothing enclosed.spans.start_le fun transcript =>
      congrArg Transcript.events (scan_of_read?_none transcript ends)
  | some pos stop construct found groups behind =>
    intro chars enclosed
    obtain ⟨rest, enclosedRest⟩ := enclosed.behindConstruct found
    have here : Adds source pos construct.next fun transcript =>
        construct.pieces.foldl (Transcript.piece (scan registry source)) transcript :=
      (enclosed.along_read? found).adds fun start close chars mem => groups start close mem chars
    have scanned := here.andThen (behind rest enclosedRest)
    rwa [← funext fun transcript => scan_of_read? transcript found] at scanned

/-- The events that trace the reading of a markup speak of places in this markup, from left to
right, and what they say of them is true. The last event, and no other, sums up the reading. -/
theorem read_traces (registry : Registry) (markup : String) :
    ∃ trace, (read registry markup).events =
        trace ++ [.parsed markup.utf8ByteSize (parse registry markup).length] ∧
      (∀ inputLength actions, .parsed inputLength actions ∉ trace) ∧
      (∀ pos ∈ trace.filterMap Event.position?,
        IsBoundary markup pos ∧ pos ≤ markup.utf8ByteSize) ∧
      (trace.filterMap Event.position?).Pairwise (· ≤ ·) ∧
      (trace.filterMap Event.unclosedStart?).Pairwise (· < ·) ∧
      (∀ pos, .argumentAbsent pos ∈ trace → NoGroupAt markup pos) ∧
      (∀ start, .groupUnclosed start ∈ trace → UnmatchedBefore markup start) ∧
      (Closed markup.toList → ∀ start, .groupUnclosed start ∉ trace) := by
  obtain ⟨trace, traces, same⟩ :=
    adds_scan registry markup 0 markup.utf8ByteSize markup.toList (Enclosed.whole markup)
  refine ⟨trace, ?_, traces.parsed_notMem, fun pos mem => ?_, traces.positions.of_cons,
    traces.unclosedStarts.of_cons, fun pos => traces.noGroupAt, fun start => traces.unmatchedBefore,
    fun closed start mem => ?_⟩
  · have scanned := same .empty
    rw [read, scanned]
    rfl
  · have boundary := traces.isBoundary mem
    exact ⟨boundary, boundary.le⟩
  · obtain ⟨before, inside, text, _, unclosed⟩ := traces.unmatchedBefore mem
    exact unclosed (closed before inside text)

/-- Neither argument of the fraction is there, and the root takes the marker, which ends with it. -/
example : (read Registry.starter "\\frac \\sqrt\x7ba^").events =
    [.argumentAbsent 6, .argumentAbsent 6, .groupUnclosed 12, .parsed 14 8] := by
  decide +kernel

end Markup

end FormulaKeys
