import FormulaKeys.Text.Blank

/-!
Reading markup at byte offsets. Every reader looks at the characters from `pos` up to `stop`, as if
the markup ended there, so the content of a group is read in place.
-/

set_option autoImplicit false

namespace FormulaKeys.Markup

/-- The character at `pos`, if the range holds one. -/
def peek? (source : String) (pos stop : Nat) : Option Char :=
  if pos < stop then some (String.Pos.Raw.get source ⟨pos⟩) else none

theorem lt_of_peek? {source : String} {pos stop : Nat} {c : Char}
    (found : peek? source pos stop = some c) : pos < stop := by
  unfold peek? at found
  split at found
  · assumption
  · cases found

def slice (source : String) (start stop : Nat) : String :=
  String.Pos.Raw.extract source ⟨start⟩ ⟨stop⟩

/-- The offset where the run of characters in the class ends. -/
def skipWhile (inClass : Char → Bool) (source : String) (pos stop : Nat) : Nat :=
  match _found : peek? source pos stop with
  | some c => if inClass c then skipWhile inClass source (pos + c.utf8Size) stop else pos
  | none => pos
termination_by stop - pos
decreasing_by
  have := lt_of_peek? _found
  have := c.utf8Size_pos
  omega

theorem le_skipWhile (inClass : Char → Bool) (source : String) (pos stop : Nat) :
    pos ≤ skipWhile inClass source pos stop := by
  fun_induction skipWhile inClass source pos stop with
  | case1 => omega
  | case2 => exact Nat.le_refl _
  | case3 => exact Nat.le_refl _

/-- The offset of the brace that closes a group, `inner` further groups being open at `pos`. -/
def closer? (source : String) (pos stop inner : Nat) : Option Nat :=
  match found : peek? source pos stop with
  | some '{' => closer? source (pos + 1) stop (inner + 1)
  | some '}' =>
    match inner with
    | 0 => some pos
    | inner + 1 => closer? source (pos + 1) stop inner
  | some c => closer? source (pos + c.utf8Size) stop inner
  | none => none
termination_by stop - pos
decreasing_by
  all_goals
    have := lt_of_peek? found
    try have := c.utf8Size_pos
    omega

theorem closer?_bounds {source : String} {pos stop inner close : Nat}
    (found : closer? source pos stop inner = some close) : pos ≤ close ∧ close < stop := by
  fun_induction closer? source pos stop inner with
  | case1 _ _ _ ih => have := ih found; omega
  | case2 _ here => cases found; exact ⟨Nat.le_refl _, lt_of_peek? here⟩
  | case3 _ _ _ ih => have := ih found; omega
  | case4 _ _ _ _ _ _ ih => have := ih found; omega
  | case5 => cases found

end FormulaKeys.Markup
