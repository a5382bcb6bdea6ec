import FormulaKeys.Script.Options
import FormulaKeys.Script.Send
import FormulaKeys.Script.Step
import FormulaKeys.Text.Lines

/-!
Hotkey scripts: desktop macros in the language of AutoHotkey, version 1. The replay is bound to one
hotkey and types into whichever window has the focus. A step takes one line, and a second line for
the pause behind it unless it is plain text.
-/

set_option autoImplicit false

namespace FormulaKeys.Script.Hotkey

def header (options : Options) : List String :=
  ["; Press " ++ options.hotkey ++ " to start typing.",
    options.hotkey ++ "::",
    "SetKeyDelay, " ++ options.keyDelay.decimal ++ ", " ++ options.keyDelay.decimal]

def trailer : List String := ["Return"]

def send (argument : String) : String := "Send, " ++ argument

def sleep (time : Millis) : String := "Sleep, " ++ time.decimal

/-- The modifiers and the key. An upper-case letter would press Shift as well. -/
def chordKeys (chord : Chord) : String :=
  (if chord.ctrl then "^" else "") ++ (if chord.shift then "+" else "") ++
    (if chord.alt then "!" else "") ++ Send.escape (String.singleton chord.key.toLower)

/-- The lines of one step. -/
def group (options : Options) : Step → List String
  | .text content => [send (Send.escape content)]
  | .fire mapping =>
    let keys :=
      match mapping.effect with
      | .shortcut chord => chordKeys chord
      | .sequence text => Send.escape text
    [send keys, sleep (mapping.delayOr options.defaultDelay)]
  | .nav key => [send ("\x7b" ++ key.macroName ++ "\x7d"), sleep options.navPause]

def script (options : Options) (steps : List Step) : String :=
  Text.unlines (header options ++ steps.flatMap (group options) ++ trailer)

end FormulaKeys.Script.Hotkey
