/-!
Indexes: where the keys of a table stand. A key stands at one position at most; when it is put
somewhere else, the index tells where it has been.
-/

set_option autoImplicit false

namespace FormulaKeys.Registry

/-- Positions by key. Of several entries for one key the first is meant. -/
structure Index where
  entries : List (String × Nat) := []
  deriving DecidableEq, Repr

namespace Index

def get? (index : Index) (key : String) : Option Nat :=
  index.entries.lookup key

/-- Put a key at a position; the position that it had before is given back. -/
def insert (index : Index) (key : String) (position : Nat) : Option Nat × Index :=
  (index.get? key, ⟨(key, position) :: index.entries⟩)

theorem get?_empty (key : String) : ({} : Index).get? key = none := rfl

theorem get?_insert (index : Index) (key : String) (position : Nat) (other : String) :
    (index.insert key position).2.get? other =
      if other = key then some position else index.get? other := by
  rw [insert, get?, List.lookup_cons, get?]
  split
  next same => rw [if_pos (eq_of_beq same)]
  next apart => rw [if_neg (ne_of_beq_false apart)]

end Index

end FormulaKeys.Registry
