import FormulaKeys.Action
import FormulaKeys.Text.Lines
import FormulaKeys.Text.Quoted

/-!
Listings: actions written one to a line, each as a keyword and what it acts on.
-/

set_option autoImplicit false

namespace FormulaKeys.Action

def line : Action → String
  | .text content => "text " ++ Text.Quoted.encode content
  | .command id => "command " ++ id
  | .nav key => "nav " ++ key.name

def listing (actions : List Action) : String :=
  Text.unlines (actions.map line)

end FormulaKeys.Action
