import FormulaKeys.Script.Target

/-!
What the command line asks for, once its arguments have been understood.
-/

set_option autoImplicit false

namespace FormulaKeys.Cli

/-- What is written to the standard output. -/
inductive Target where
  | script (target : Script.Target)
  /-- The actions, one per line. -/
  | actions
  deriving DecidableEq, Repr

structure Arguments where
  /-- The markup file, or `-` for the standard input. -/
  file : Option String := none
  /-- The markup itself. -/
  formula : Option String := none
  sample : Bool := false
  /-- The configuration file. -/
  config : Option String := none
  target : Target := .script .browser
  /-- The default configuration is printed, and nothing is converted. -/
  printConfig : Bool := false
  deriving DecidableEq, Repr

end FormulaKeys.Cli
