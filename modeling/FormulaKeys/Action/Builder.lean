import FormulaKeys.Action

/-!
Builders of action lists. Text collects in an open buffer until an action of another kind comes, so
neighbouring texts become one action and empty ones none.
-/

set_option autoImplicit false

namespace FormulaKeys.Action

structure Builder where
  done : Array Action
  /-- The text that is still open at the end. -/
  pending : String
  deriving DecidableEq, Repr

namespace Builder

def empty : Builder := ⟨#[], ""⟩

def text (builder : Builder) (content : String) : Builder :=
  { builder with pending := builder.pending ++ content }

def char (builder : Builder) (c : Char) : Builder :=
  { builder with pending := builder.pending.push c }

/-- The actions so far, the open text included. -/
def closed (builder : Builder) : Array Action :=
  if builder.pending = "" then builder.done else builder.done.push (.text builder.pending)

def command (builder : Builder) (id : String) : Builder :=
  ⟨builder.closed.push (.command id), ""⟩

def nav (builder : Builder) (key : NavKey) : Builder :=
  ⟨builder.closed.push (.nav key), ""⟩

def finish (builder : Builder) : List Action :=
  builder.closed.toList

end Builder

end FormulaKeys.Action
