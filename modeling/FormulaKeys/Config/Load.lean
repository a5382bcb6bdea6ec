import FormulaKeys.Config.Decode
import FormulaKeys.Document.Toml

/-!
Configuration files, which are written in TOML.
-/

set_option autoImplicit false

namespace FormulaKeys.Config

def load? (text : String) : Option Config := do
  decode? .toml (← Document.Toml.read? text)

end FormulaKeys.Config
