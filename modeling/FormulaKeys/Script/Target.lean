/-!
Script targets: the kinds of script that actions can be turned into.
-/

set_option autoImplicit false

namespace FormulaKeys.Script

inductive Target where
  /-- An asynchronous script for the developer console of a browser. -/
  | browser
  /-- A macro for the desktop, bound to a hotkey. -/
  | hotkey
  deriving DecidableEq, Repr

namespace Target

def all : List Target := [browser, hotkey]

def name : Target → String
  | browser => "browser"
  | hotkey => "hotkey"

def ofName? (name : String) : Option Target :=
  all.find? (·.name == name)

theorem ofName?_name (target : Target) : ofName? target.name = some target := by
  cases target <;> decide

end Target

end FormulaKeys.Script
