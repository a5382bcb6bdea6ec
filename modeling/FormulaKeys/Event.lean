import FormulaKeys.Script.Target

/-!
Events: what a conversion reports about itself. Markup that is read in a degraded way is traced;
each finished stage leaves a summary. Positions and lengths count bytes of UTF-8.
-/

set_option autoImplicit false

namespace FormulaKeys

inductive Event where
  /-- The backslash of an unknown command is typed out; `name` holds the letters behind it. -/
  | unknownCommand (name : String)
  /-- No argument stands at `pos`, where the blanks behind a command end. -/
  | argumentAbsent (pos : Nat)
  /-- The group whose content begins at `start` has no closing brace. -/
  | groupUnclosed (start : Nat)
  | parsed (inputLength actions : Nat)
  | generating (target : Script.Target) (actions : Nat)
  | generated (target : Script.Target) (actions outputLength : Nat)
  deriving DecidableEq, Repr

namespace Event

inductive Level where
  | trace
  | debug
  deriving DecidableEq, Repr

def Level.name : Level → String
  | trace => "TRACE"
  | debug => "DEBUG"

def level : Event → Level
  | unknownCommand _ | argumentAbsent _ | groupUnclosed _ => .trace
  | parsed _ _ | generating _ _ | generated _ _ _ => .debug

def message : Event → String
  | unknownCommand _ => "unknown command typed out literally"
  | argumentAbsent _ => "argument group absent"
  | groupUnclosed _ => "unclosed group absorbs the rest of the input"
  | parsed _ _ => "parsed markup"
  | generating _ _ => "generating script"
  | generated target _ _ => "generated " ++ target.name ++ " script"

end Event

end FormulaKeys
