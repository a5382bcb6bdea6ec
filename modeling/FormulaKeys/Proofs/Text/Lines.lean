import FormulaKeys.Text.Lines

/-! Splitting a text back into the lines it was joined from.

A text that is joined from lines without line breaks of their own gives back exactly these lines.
-/

set_option autoImplicit false

namespace FormulaKeys.Text

/-- Text without a line break of either kind. -/
structure OneLine (text : String) : Prop where
  feed : '\n' ∉ text.toList
  carriage : '\r' ∉ text.toList

theorem oneLine_ofList {chars : List Char} (unbroken : '\n' ∉ chars ∧ '\r' ∉ chars) :
    OneLine (String.ofList chars) := by
  constructor <;> rw [String.toList_ofList]
  · exact unbroken.1
  · exact unbroken.2

theorem oneLine_append {first second : String} :
    OneLine (first ++ second) ↔ OneLine first ∧ OneLine second := by
  constructor
  · intro whole
    have feed := whole.feed
    have carriage := whole.carriage
    rw [String.toList_append, List.mem_append, not_or] at feed carriage
    exact ⟨⟨feed.1, carriage.1⟩, feed.2, carriage.2⟩
  · rintro ⟨left, right⟩
    constructor <;> rw [String.toList_append, List.mem_append, not_or]
    · exact ⟨left.feed, right.feed⟩
    · exact ⟨left.carriage, right.carriage⟩

theorem oneLine_repr (value : Nat) : OneLine value.repr := by
  have digits {c : Char} (known : c ∈ value.repr.toList) : c.isDigit = true := by
    rw [Nat.toList_repr] at known
    exact Nat.isDigit_of_mem_toDigits (by decide) (by decide) known
  constructor <;>
  · intro known
    cases digits known

/-- The characters before each line feed. What stands behind the last one is no line. -/
def splitLines (chars : List Char) : List (List Char) :=
  match _rest : chars.dropWhile (· != '\n') with
  | [] => []
  | _ :: rest => chars.takeWhile (· != '\n') :: splitLines rest
termination_by chars.length
decreasing_by
  have := (List.dropWhile_suffix (· != '\n') (l := chars)).length_le
  rw [_rest, List.length_cons] at this
  omega

/-- In front of the first line feed there is none. -/
theorem count_dropWhile (chars : List Char) :
    (chars.dropWhile (· != '\n')).count '\n' = chars.count '\n' := by
  have before : (chars.takeWhile (· != '\n')).count '\n' = 0 := by
    rw [List.count_eq_zero]
    intro known
    exact absurd (List.all_eq_true.mp List.all_takeWhile _ known) (by decide)
  have cut := List.takeWhile_append_dropWhile (p := (· != '\n')) (l := chars)
  rw [← Nat.zero_add (List.count _ _), ← before, ← List.count_append, cut]

/-- Each line feed ends a line. -/
theorem length_splitLines (chars : List Char) :
    (splitLines chars).length = chars.count '\n' := by
  induction chars using splitLines.induct with
  | case1 chars last =>
    rw [← count_dropWhile, last, splitLines]
    split
    next => rfl
    next same => cases last.symm.trans same
  | case2 chars feed rest same ih =>
    have first := List.head?_dropWhile_not (· != '\n') chars
    rw [← count_dropWhile, same, splitLines]
    rw [same] at first
    obtain rfl : feed = '\n' := by simpa using first
    split
    next last => cases last.symm.trans same
    next again =>
      cases again.symm.trans same
      rw [List.length_cons, ih, List.count_cons_self]

def lines (text : String) : List String :=
  (splitLines text.toList).map String.ofList

theorem splitLines_line {chars : List Char} (rest : List Char) (unbroken : '\n' ∉ chars) :
    splitLines (chars ++ '\n' :: rest) = chars :: splitLines rest := by
  have before : ∀ c ∈ chars, (c != '\n') = true := by
    intro c known
    exact bne_iff_ne.mpr fun same => unbroken (same ▸ known)
  rw [splitLines]
  split
  -- The line feed is still there behind the line, so the list cannot end in it.
  next last =>
    rw [List.dropWhile_append_of_pos before] at last
    cases last
  next same =>
    rw [List.dropWhile_append_of_pos before] at same
    cases same
    rw [List.takeWhile_append_of_pos before]
    simp

theorem unlines_cons (line : String) (rest : List String) :
    unlines (line :: rest) = line ++ "\n" ++ unlines rest := by
  rw [unlines, List.map_cons, String.join_cons, ← unlines]

theorem unlines_append (first second : List String) :
    unlines (first ++ second) = unlines first ++ unlines second := by
  rw [unlines, List.map_append, String.join_append, ← unlines, ← unlines]

theorem splitLines_unlines {all : List String} (unbroken : ∀ line ∈ all, '\n' ∉ line.toList) :
    splitLines (unlines all).toList = all.map String.toList := by
  induction all with
  | nil => rw [splitLines]; rfl
  | cons line rest ih =>
    obtain ⟨first, others⟩ := List.forall_mem_cons.mp unbroken
    rw [unlines_cons, String.append_assoc, String.toList_append, String.toList_append]
    rw [List.map_cons, ← ih others]
    exact splitLines_line _ first

theorem lines_unlines_of_notMem {all : List String}
    (unbroken : ∀ line ∈ all, '\n' ∉ line.toList) : lines (unlines all) = all := by
  rw [lines, splitLines_unlines unbroken, List.map_map]
  simp [Function.comp_def]

theorem lines_unlines {all : List String} (unbroken : ∀ line ∈ all, OneLine line) :
    lines (unlines all) = all :=
  lines_unlines_of_notMem fun line known => (unbroken line known).feed

end FormulaKeys.Text
