/-!
Navigation keys: the keys that move the caret of the destination editor. Each has the name that
browser keyboard events give it, a numeric code, and the name that the hotkey macro language knows.
-/

set_option autoImplicit false

namespace FormulaKeys

inductive NavKey where
  | arrowLeft
  | arrowRight
  | arrowUp
  | arrowDown
  | tab
  | enter
  deriving DecidableEq, Repr

namespace NavKey

/-- A construct that names no key of its own is left to the right. -/
instance : Inhabited NavKey := ⟨arrowRight⟩

def all : List NavKey := [arrowLeft, arrowRight, arrowUp, arrowDown, tab, enter]

theorem mem_all (key : NavKey) : key ∈ all := by
  cases key <;> decide

/-- The name of the key in browser keyboard events. -/
def name : NavKey → String
  | arrowLeft => "ArrowLeft"
  | arrowRight => "ArrowRight"
  | arrowUp => "ArrowUp"
  | arrowDown => "ArrowDown"
  | tab => "Tab"
  | enter => "Enter"

def ofName? (name : String) : Option NavKey :=
  all.find? (·.name == name)

theorem ofName?_name (key : NavKey) : ofName? key.name = some key := by
  cases key <;> decide

theorem name_of_ofName? {name : String} {key : NavKey} (found : ofName? name = some key) :
    key.name = name := by
  simpa using List.find?_some found

/-- The numeric key code of browser keyboard events. -/
def code : NavKey → Nat
  | arrowLeft => 37
  | arrowUp => 38
  | arrowRight => 39
  | arrowDown => 40
  | tab => 9
  | enter => 13

/-- The name of the key in the hotkey macro language. -/
def macroName : NavKey → String
  | arrowLeft => "Left"
  | arrowRight => "Right"
  | arrowUp => "Up"
  | arrowDown => "Down"
  | tab => "Tab"
  | enter => "Enter"

end NavKey

end FormulaKeys
