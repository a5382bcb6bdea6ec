import FormulaKeys.Command.Class
import FormulaKeys.Event
import FormulaKeys.Markup.Cursor
import FormulaKeys.Registry

/-!
Constructs of the markup: a command with its arguments, a marker with its argument, a dollar sign or
an ordinary character. Reading a construct finds where its groups lie without reading what is in
them, so where the next construct begins is known before any content is.
-/

set_option autoImplicit false

namespace FormulaKeys.Markup

/-- Where the argument of a command is. -/
inductive Argument where
  /-- No brace opens behind the blanks, which end at `pos`. -/
  | absent (pos : Nat)
  | closed (start close : Nat)
  /-- The content reaches to the end of the range. -/
  | unclosed (start stop : Nat)
  deriving DecidableEq, Repr

/-- What a construct adds to the actions, in the order of its pieces. -/
inductive Piece where
  | text (content : String)
  | char (c : Char)
  | command (id : String)
  | nav (key : NavKey)
  /-- Whatever the markup from `start` to `close` adds when it is read by itself. -/
  | group (start close : Nat)
  | event (event : Event)
  deriving DecidableEq, Repr

structure Construct where
  pieces : List Piece
  /-- Where the construct ends. -/
  next : Nat
  deriving DecidableEq, Repr

namespace Argument

def read (source : String) (pos stop : Nat) : Argument :=
  let opening := skipWhile Text.isBlank source pos stop
  match peek? source opening stop with
  | some '{' =>
    match closer? source (opening + 1) stop 0 with
    | some close => .closed (opening + 1) close
    | none => .unclosed (opening + 1) stop
  | _ => .absent opening

def pieces : Argument → List Piece
  | absent pos => [.event (.argumentAbsent pos)]
  | closed start close => [.group start close]
  | unclosed start stop => [.event (.groupUnclosed start), .group start stop]

/-- Where reading goes on behind the argument. -/
def next : Argument → Nat
  | absent pos => pos
  | closed _ close => close + 1
  | unclosed _ stop => stop

theorem le_next (source : String) (pos stop : Nat) : pos ≤ (read source pos stop).next := by
  have opening := le_skipWhile Text.isBlank source pos stop
  unfold read
  dsimp only
  split
  · have := lt_of_peek? ‹_›
    split
    · have := closer?_bounds ‹_›
      simp only [next]
      omega
    · simp only [next]
      omega
  · exact opening

theorem group_mem {source : String} {pos stop start close : Nat}
    (mem : .group start close ∈ (read source pos stop).pieces) : pos < start ∧ close ≤ stop := by
  have opening := le_skipWhile Text.isBlank source pos stop
  unfold read at mem
  dsimp only at mem
  split at mem
  · split at mem
    · have := closer?_bounds ‹_›
      simp [pieces] at mem
      omega
    · simp [pieces] at mem
      omega
  · simp [pieces] at mem

end Argument

namespace Construct

/-- The command with the arguments that its name asks for. -/
def ofMapping (mapping : Mapping) (name source : String) (pos stop : Nat) : Construct :=
  match Command.Class.ofName name with
  | .binary =>
    let first := Argument.read source pos stop
    let second := Argument.read source first.next stop
    ⟨.command mapping.id :: first.pieces ++ .nav mapping.advance ::
      second.pieces ++ [.nav mapping.exit], second.next⟩
  | .unary =>
    let argument := Argument.read source pos stop
    ⟨.command mapping.id :: argument.pieces ++ [.nav mapping.exit], argument.next⟩
  | .wrapper | .function | .layout | .symbol _ | .unknown => ⟨[.command mapping.id], pos⟩

/-- The command `name`, to which no mapping is bound. Of a command that has no meaning of its own
only the backslash is taken, and its letters are read again as ordinary characters. -/
def ofUnbound (name source : String) (slash pos stop : Nat) : Construct :=
  match Command.Class.ofName name with
  | .wrapper =>
    let payload := Argument.read source pos stop
    ⟨payload.pieces, payload.next⟩
  | .function => ⟨[.text name], pos⟩
  | .layout => ⟨[], pos⟩
  | .symbol value => ⟨[.char value], if peek? source pos stop = some ' ' then pos + 1 else pos⟩
  | .binary | .unary | .unknown => ⟨[.event (.unknownCommand name), .char '\\'], slash + 1⟩

/-- The command whose backslash stands at `slash`. -/
def ofCommand (registry : Registry) (source : String) (slash stop : Nat) : Construct :=
  if peek? source (slash + 1) stop = some ',' then
    ⟨[.char ' '], slash + 2⟩
  else
    let nameEnd := skipWhile Char.isAlpha source (slash + 1) stop
    let name := slice source (slash + 1) nameEnd
    match registry.byTrigger? name with
    | some mapping => ofMapping mapping name source nameEnd stop
    | none => ofUnbound name source slash nameEnd stop

/-- The marker at `pos`; bound, it takes a group or else exactly one character. -/
def ofMarker (registry : Registry) (marker : Char) (source : String) (pos stop : Nat) :
    Construct :=
  match registry.byTrigger? (String.singleton marker) with
  | none => ⟨[.char marker], pos + 1⟩
  | some mapping =>
    match peek? source (pos + 1) stop with
    | some '{' =>
      let argument := Argument.read source (pos + 1) stop
      ⟨.command mapping.id :: argument.pieces ++ [.nav mapping.exit], argument.next⟩
    | some c => ⟨[.command mapping.id, .char c, .nav mapping.exit], pos + 1 + c.utf8Size⟩
    | none => ⟨[.command mapping.id, .nav mapping.exit], pos + 1⟩

/-- The construct that begins at `pos`, unless the range is empty. -/
def read? (registry : Registry) (source : String) (pos stop : Nat) : Option Construct :=
  match peek? source pos stop with
  | some '\\' => some (ofCommand registry source pos stop)
  | some '^' => some (ofMarker registry '^' source pos stop)
  | some '_' => some (ofMarker registry '_' source pos stop)
  | some '$' => some ⟨[], pos + 1⟩
  | some c => some ⟨[.char c], pos + c.utf8Size⟩
  | none => none

/-- The construct moves the reader on, and its groups lie behind its first byte and within the
range. -/
structure Within (construct : Construct) (pos stop : Nat) : Prop where
  lt_next : pos < construct.next
  groups : ∀ start close, .group start close ∈ construct.pieces → pos < start ∧ close ≤ stop

theorem within_ofMapping (mapping : Mapping) (name source : String) {slash pos : Nat} (stop : Nat)
    (behind : slash < pos) : (ofMapping mapping name source pos stop).Within slash stop := by
  have first := Argument.le_next source pos stop
  have second := Argument.le_next source (Argument.read source pos stop).next stop
  have inFirst := @Argument.group_mem source pos stop
  have inSecond := @Argument.group_mem source (Argument.read source pos stop).next stop
  constructor
  · unfold ofMapping
    split <;> (dsimp only; omega)
  · intro start close mem
    unfold ofMapping at mem
    split at mem <;> simp at mem
    · rcases mem with mem | mem
      · have := inFirst mem; omega
      · have := inSecond mem; omega
    · have := inFirst mem; omega

theorem within_ofUnbound (name source : String) {slash pos : Nat} (stop : Nat)
    (behind : slash < pos) : (ofUnbound name source slash pos stop).Within slash stop := by
  have payload := Argument.le_next source pos stop
  have inPayload := @Argument.group_mem source pos stop
  constructor
  · unfold ofUnbound
    split <;> dsimp only <;> (try split) <;> omega
  · intro start close mem
    unfold ofUnbound at mem
    split at mem <;> simp at mem
    have := inPayload mem
    omega

theorem within_ofCommand (registry : Registry) (source : String) (slash stop : Nat) :
    (ofCommand registry source slash stop).Within slash stop := by
  have behind : slash < skipWhile Char.isAlpha source (slash + 1) stop :=
    le_skipWhile Char.isAlpha source (slash + 1) stop
  unfold ofCommand
  split
  · exact ⟨by dsimp only; omega, by simp⟩
  · dsimp only
    split
    · exact within_ofMapping _ _ _ _ behind
    · exact within_ofUnbound _ _ _ behind

theorem within_ofMarker (registry : Registry) (marker : Char) (source : String) (pos stop : Nat) :
    (ofMarker registry marker source pos stop).Within pos stop := by
  have argument := Argument.le_next source (pos + 1) stop
  have inArgument := @Argument.group_mem source (pos + 1) stop
  unfold ofMarker
  split
  · exact ⟨by dsimp only; omega, by simp⟩
  · split
    · refine ⟨by dsimp only; omega, fun start close mem => ?_⟩
      simp at mem
      have := inArgument mem
      omega
    · exact ⟨by dsimp only; omega, by simp⟩
    · exact ⟨by dsimp only; omega, by simp⟩

theorem within_of_read? {registry : Registry} {source : String} {pos stop : Nat}
    {construct : Construct} (found : read? registry source pos stop = some construct) :
    construct.Within pos stop := by
  unfold read? at found
  split at found <;> cases found
  · exact within_ofCommand ..
  · exact within_ofMarker ..
  · exact within_ofMarker ..
  · exact ⟨by dsimp only; omega, by simp⟩
  · exact ⟨Nat.lt_add_of_pos_right (Char.utf8Size_pos _), by simp⟩

theorem lt_of_read? {registry : Registry} {source : String} {pos stop : Nat}
    {construct : Construct} (found : read? registry source pos stop = some construct) :
    pos < stop := by
  cases seen : peek? source pos stop with
  | none => simp [read?, seen] at found
  | some c => exact lt_of_peek? seen

end Construct

end FormulaKeys.Markup
