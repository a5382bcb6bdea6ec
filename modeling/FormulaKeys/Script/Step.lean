import FormulaKeys.Action
import FormulaKeys.Registry

/-!
Script steps: actions whose commands have been looked up. Every script is written from steps, so
whether a script exists depends on the actions and the registry alone.
-/

set_option autoImplicit false

namespace FormulaKeys.Script

inductive Step where
  | text (content : String)
  | fire (mapping : Mapping)
  | nav (key : NavKey)
  deriving DecidableEq, Repr

/-- An action names a mapping that the registry does not hold. -/
structure UnknownMapping where
  id : String
  deriving DecidableEq, Repr

def UnknownMapping.message (error : UnknownMapping) : String :=
  "Action refers to mapping \"" ++ error.id ++ "\", which is not in the registry."

namespace Step

def ofAction (registry : Registry) : Action → Except UnknownMapping Step
  | .text content => .ok (.text content)
  | .command id =>
    match registry.byId? id with
    | some mapping => .ok (.fire mapping)
    | none => .error ⟨id⟩
  | .nav key => .ok (.nav key)

/-- The steps of all actions, or the first mapping that is missing. -/
def ofActions (registry : Registry) : List Action → Except UnknownMapping (List Step)
  | [] => .ok []
  | action :: rest =>
    match ofAction registry action with
    | .error missing => .error missing
    | .ok step =>
      match ofActions registry rest with
      | .error missing => .error missing
      | .ok steps => .ok (step :: steps)

end Step

end FormulaKeys.Script
