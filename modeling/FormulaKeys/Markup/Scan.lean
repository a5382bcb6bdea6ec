import FormulaKeys.Action.Builder
import FormulaKeys.Markup.Construct

/-!
Scanning: reading markup from left to right into actions. Scanning never fails. The content of a
group is scanned in place, by a narrower range of the same text.
-/

set_option autoImplicit false

namespace FormulaKeys.Markup

/-- What has been read so far. -/
structure Transcript where
  actions : Action.Builder
  events : Array Event
  deriving DecidableEq, Repr

namespace Transcript

def empty : Transcript := ⟨.empty, #[]⟩

def text (transcript : Transcript) (content : String) : Transcript :=
  { transcript with actions := transcript.actions.text content }

def char (transcript : Transcript) (c : Char) : Transcript :=
  { transcript with actions := transcript.actions.char c }

def command (transcript : Transcript) (id : String) : Transcript :=
  { transcript with actions := transcript.actions.command id }

def nav (transcript : Transcript) (key : NavKey) : Transcript :=
  { transcript with actions := transcript.actions.nav key }

def event (transcript : Transcript) (event : Event) : Transcript :=
  { transcript with events := transcript.events.push event }

end Transcript

/-- Read the markup from `pos` up to `stop`. -/
def scan (registry : Registry) (source : String) (pos stop : Nat) (transcript : Transcript) :
    Transcript :=
  match _found : Construct.read? registry source pos stop with
  | none => transcript
  | some construct =>
    let transcript := construct.pieces.attach.foldl (fun transcript ⟨piece, _mem⟩ =>
      match piece, _mem with
      | .text content, _ => transcript.text content
      | .char c, _ => transcript.char c
      | .command id, _ => transcript.command id
      | .nav key, _ => transcript.nav key
      | .event event, _ => transcript.event event
      | .group start close, _mem => scan registry source start close transcript) transcript
    scan registry source construct.next stop transcript
termination_by stop - pos
decreasing_by
  · have := Construct.lt_of_read? _found
    have := (Construct.within_of_read? _found).groups start close _mem
    omega
  · have := Construct.lt_of_read? _found
    have := (Construct.within_of_read? _found).lt_next
    omega

/-- The actions and the events of a whole markup. -/
structure Reading where
  actions : List Action
  events : List Event
  deriving DecidableEq, Repr

/-- Read the whole markup; its last event sums up the reading. -/
def read (registry : Registry) (markup : String) : Reading :=
  let transcript := scan registry markup 0 markup.utf8ByteSize .empty
  let actions := transcript.actions.finish
  ⟨actions, transcript.events.toList ++ [.parsed markup.utf8ByteSize actions.length]⟩

/-- The actions that reproduce the markup in the destination editor. -/
def parse (registry : Registry) (markup : String) : List Action :=
  (read registry markup).actions

end FormulaKeys.Markup
