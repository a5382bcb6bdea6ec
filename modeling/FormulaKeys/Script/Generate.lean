import FormulaKeys.Event
import FormulaKeys.Script.Browser
import FormulaKeys.Script.Hotkey

/-!
Script generation: the script that replays a list of actions, for either target.
-/

set_option autoImplicit false

namespace FormulaKeys.Script

def ofSteps : Target → Options → List Step → String
  | .browser => Browser.script
  | .hotkey => Hotkey.script

/-- The whole script, or the first mapping that is missing. -/
def generate (target : Target) (options : Options) (registry : Registry) (actions : List Action) :
    Except UnknownMapping String :=
  (Step.ofActions registry actions).map (ofSteps target options)

/-- A script that was generated is reported, a failure is not. -/
def events (target : Target) (options : Options) (registry : Registry) (actions : List Action) :
    List Event :=
  .generating target actions.length ::
    match generate target options registry actions with
    | .ok script => [.generated target actions.length script.utf8ByteSize]
    | .error _ => []

end FormulaKeys.Script
