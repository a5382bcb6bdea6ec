import FormulaKeys.NavKey

/-!
Actions: the steps of a replay, in the order in which they happen.
-/

set_option autoImplicit false

namespace FormulaKeys

inductive Action where
  /-- Insert the characters. -/
  | text (content : String)
  /-- Fire the mapping with this id. -/
  | command (id : String)
  /-- Press the key without modifiers. -/
  | nav (key : NavKey)
  deriving DecidableEq, Repr

end FormulaKeys
