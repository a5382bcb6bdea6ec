/-!
Space in TOML: blanks, line ends and comments. A carriage return counts only before a line feed, and
control characters have no place in a document.
-/

set_option autoImplicit false

namespace FormulaKeys.Document.Toml

def isBlank (c : Char) : Bool := c == ' ' || c == '\t'

/-- The characters that may stand in a comment or, its quotes apart, in a string of one line. -/
def isText (c : Char) : Bool :=
  c == '\t' || 0x20 ≤ c.toNat && c.toNat != 0x7f

def skipBlanks (chars : List Char) : List Char := chars.dropWhile isBlank

/-- What comes behind the line end that the characters begin with. -/
def lineEnd? : List Char → Option (List Char)
  | '\n' :: rest => some rest
  | '\r' :: '\n' :: rest => some rest
  | _ => none

theorem length_of_lineEnd? {chars rest : List Char} (found : lineEnd? chars = some rest) :
    rest.length < chars.length := by
  unfold lineEnd? at found
  split at found <;> cases found <;> simp only [List.length_cons] <;> omega

theorem length_dropWhile_le {α : Type} (inClass : α → Bool) (values : List α) :
    (values.dropWhile inClass).length ≤ values.length :=
  (List.dropWhile_suffix inClass).length_le

/-- Skip blanks and line ends. -/
def skipLines : List Char → List Char
  | ' ' :: rest => skipLines rest
  | '\t' :: rest => skipLines rest
  | '\n' :: rest => skipLines rest
  | '\r' :: '\n' :: rest => skipLines rest
  | chars => chars

theorem length_skipLines_le (chars : List Char) : (skipLines chars).length ≤ chars.length := by
  fun_induction skipLines chars with
  | case1 rest ih => exact Nat.le_succ_of_le ih
  | case2 rest ih => exact Nat.le_succ_of_le ih
  | case3 rest ih => exact Nat.le_succ_of_le ih
  | case4 rest ih => exact Nat.le_succ_of_le (Nat.le_succ_of_le ih)
  | case5 => exact Nat.le_refl _

/-- Skip blanks, line ends and comments. -/
def skipSpace (chars : List Char) : List Char :=
  match _behind : skipLines chars with
  | '#' :: rest => skipSpace (rest.dropWhile isText)
  | rest => rest
termination_by chars.length
decreasing_by
  have lines := length_skipLines_le chars
  have comment := length_dropWhile_le isText rest
  rw [_behind, List.length_cons] at lines
  omega

/-- Skip to the next line, over nothing but blanks and a comment. -/
def nextLine? (chars : List Char) : Option (List Char) :=
  let rest :=
    match skipBlanks chars with
    | '#' :: comment => comment.dropWhile isText
    | rest => rest
  if rest.isEmpty then some [] else lineEnd? rest

end FormulaKeys.Document.Toml
