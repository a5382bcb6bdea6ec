/-!
Character classes given as ranges of code points, both ends included.
-/

set_option autoImplicit false

namespace FormulaKeys.Text

def inRanges (ranges : List (Nat × Nat)) (c : Char) : Bool :=
  ranges.any fun (first, last) => first ≤ c.toNat && c.toNat ≤ last

theorem inRanges_eq_true {ranges : List (Nat × Nat)} {c : Char} :
    inRanges ranges c = true ↔
      ∃ range ∈ ranges, range.1 ≤ c.toNat ∧ c.toNat ≤ range.2 := by
  simp [inRanges]

end FormulaKeys.Text
