/-!
Documents: structured values as they are read from JSON or TOML. Numbers that are not integers, and
dates and times, keep the text they were written with, since no setting is one.
-/

set_option autoImplicit false

namespace FormulaKeys

inductive Document where
  | null
  | bool (value : Bool)
  | int (value : Int)
  | fraction (literal : String)
  | moment (literal : String)
  | str (value : String)
  | arr (items : List Document)
  | obj (fields : List (String × Document))
  deriving Repr, Inhabited

namespace Document

/-- The notations that configurations are written in. -/
inductive Format where
  | json
  | toml
  deriving DecidableEq, Repr

def str? : Document → Option String
  | str value => some value
  | _ => none

def bool? : Document → Option Bool
  | bool value => some value
  | _ => none

mutual

/-- Whether every integer in the document has at most 64 bits, with a sign or without. -/
def holdsWords : Document → Bool
  | int value => -(Nat.pow 2 63) ≤ value && value < Nat.pow 2 64
  | arr items => itemsHoldWords items
  | obj fields => fieldsHoldWords fields
  | null | bool _ | fraction _ | moment _ | str _ => true

def itemsHoldWords : List Document → Bool
  | [] => true
  | item :: rest => item.holdsWords && itemsHoldWords rest

def fieldsHoldWords : List (String × Document) → Bool
  | [] => true
  | (_, value) :: rest => value.holdsWords && fieldsHoldWords rest

end

/-- The value of a field, or `absent` for a field that is not there. -/
def field? {α : Type} (fields : List (String × Document)) (name : String)
    (read : Document → Option α) (absent : Option α) : Option α :=
  match fields.lookup name with
  | some value => read value
  | none => absent

end Document

end FormulaKeys
