import FormulaKeys.Config

/-!
TOML as the program needs it: a way to read configurations, to write them, and to point at what is
wrong in a text.
-/

set_option autoImplicit false

namespace FormulaKeys.Cli

/-- Why a text gives no configuration. -/
structure TomlError where
  message : String
  /-- From which byte to which the text is wrong. -/
  span : Option (Nat × Nat)
  /-- The whole error in words. -/
  text : String
  deriving DecidableEq, Repr

structure Toml where
  read : String → Except TomlError Config
  /-- It is not certain that every configuration can be written. -/
  write : Config → Except String String
  /-- The report of a message about some bytes of a named text, if one can be given. -/
  report : (name text : String) → (span : Nat × Nat) → (message : String) → Option String

end FormulaKeys.Cli
