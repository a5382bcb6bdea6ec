/-!
Lines: texts that each end in a line feed.
-/

set_option autoImplicit false

namespace FormulaKeys.Text

def unlines (lines : List String) : String :=
  String.join (lines.map fun line => line ++ "\n")

end FormulaKeys.Text
