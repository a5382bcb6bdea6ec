import FormulaKeys.Mapping
import FormulaKeys.Script.Options

/-!
Configurations: the mappings, in the order in which they are shown, and the script options.
-/

set_option autoImplicit false

namespace FormulaKeys

structure Config where
  mappings : List Mapping := Mapping.starter
  script : Script.Options := {}
  deriving DecidableEq, Repr

instance : Inhabited Config := ⟨{}⟩

end FormulaKeys
