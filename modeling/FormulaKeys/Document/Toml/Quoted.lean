import FormulaKeys.Document.Toml.Space

/-!
Strings in TOML. Basic strings stand in double quotes and know escapes, literal strings stand in
single quotes and know none; three quotes let either run over several lines. Each reader begins
behind the opening quotes and gives the content with what comes behind the closing ones.
-/

set_option autoImplicit false

namespace FormulaKeys.Document.Toml

def hexDigit? (c : Char) : Option Nat :=
  if '0' ≤ c ∧ c ≤ '9' then some (c.toNat - '0'.toNat)
  else if 'a' ≤ c ∧ c ≤ 'f' then some (c.toNat - 'a'.toNat + 10)
  else if 'A' ≤ c ∧ c ≤ 'F' then some (c.toNat - 'A'.toNat + 10)
  else none

/-- The character whose code point the digits give, which is no surrogate. -/
def codePoint? (digits : List Char) : Option Char := do
  let code ← digits.foldlM (fun code c => (hexDigit? c).map (16 * code + ·)) 0
  if code.isValidChar then return Char.ofNat code else none

def shortEscape? : Char → Option Char
  | 'b' => some '\x08'
  | 't' => some '\t'
  | 'n' => some '\n'
  | 'f' => some '\x0c'
  | 'r' => some '\r'
  | 'e' => some '\x1b'
  | '"' => some '"'
  | '\\' => some '\\'
  | _ => none

/-- The character that an escape stands for, read behind its backslash. -/
def escape? : List Char → Option (Char × List Char)
  | 'x' :: a :: b :: rest => (codePoint? [a, b]).map (·, rest)
  | 'u' :: a :: b :: c :: d :: rest => (codePoint? [a, b, c, d]).map (·, rest)
  | 'U' :: a :: b :: c :: d :: e :: f :: g :: h :: rest =>
    (codePoint? [a, b, c, d, e, f, g, h]).map (·, rest)
  | c :: rest => (shortEscape? c).map (·, rest)
  | [] => none

theorem length_of_escape? {chars rest : List Char} {c : Char}
    (found : escape? chars = some (c, rest)) : rest.length < chars.length := by
  unfold escape? at found
  split at found <;> simp only [Option.map_eq_some_iff, Prod.mk.injEq, reduceCtorEq] at found
  all_goals
    obtain ⟨_, _, _, rfl⟩ := found
    simp only [List.length_cons]
    omega

def basic? (chars : List Char) : Option (List Char × List Char) :=
  match chars with
  | '"' :: rest => some ([], rest)
  | '\\' :: escaped =>
    match _found : escape? escaped with
    | some (c, rest) => (basic? rest).map fun (content, rest) => (c :: content, rest)
    | none => none
  | c :: rest =>
    if isText c then (basic? rest).map fun (content, rest) => (c :: content, rest) else none
  | [] => none
termination_by chars.length
decreasing_by
  · have := length_of_escape? _found
    simp only [List.length_cons]
    omega
  · simp

def literal? (chars : List Char) : Option (List Char × List Char) :=
  let content := chars.takeWhile fun c => isText c && c != '\''
  match chars.dropWhile fun c => isText c && c != '\'' with
  | '\'' :: rest => some (content, rest)
  | _ => none

/-- The quotes that close a string of several lines. One or two more may precede them as content. -/
def closing? (quote : Char) (chars : List Char) : Option (List Char × List Char) :=
  let count := (chars.takeWhile (· == quote)).length
  if count < 3 then none
  else
    let content := min (count - 3) 2
    some (List.replicate content quote, chars.drop (content + 3))

/-- A line end directly behind the opening quotes is no content. -/
def skipFirstEnd (chars : List Char) : List Char :=
  (lineEnd? chars).getD chars

/-- Where a line goes on behind a backslash at its end. -/
def joined? (chars : List Char) : Option (List Char) :=
  (lineEnd? (skipBlanks chars)).map skipLines

theorem length_of_joined? {chars rest : List Char} (found : joined? chars = some rest) :
    rest.length < chars.length := by
  obtain ⟨behind, ended, rfl⟩ := Option.map_eq_some_iff.mp found
  have := length_of_lineEnd? ended
  have := length_dropWhile_le isBlank chars
  have := length_skipLines_le behind
  unfold skipBlanks at *
  omega

def basicLines? (chars : List Char) : Option (List Char × List Char) :=
  match closing? '"' chars with
  | some closed => some closed
  | none =>
    match chars with
    | '\\' :: escaped =>
      match _joined : joined? escaped with
      | some rest => basicLines? rest
      | none =>
        match _found : escape? escaped with
        | some (c, rest) => (basicLines? rest).map fun (content, rest) => (c :: content, rest)
        | none => none
    | '\r' :: '\n' :: rest =>
      (basicLines? rest).map fun (content, rest) => ('\r' :: '\n' :: content, rest)
    | c :: rest =>
      if isText c || c == '\n' then
        (basicLines? rest).map fun (content, rest) => (c :: content, rest)
      else none
    | [] => none
termination_by chars.length
decreasing_by
  · have := length_of_joined? _joined
    simp only [List.length_cons]
    omega
  · have := length_of_escape? _found
    simp only [List.length_cons]
    omega
  · simp only [List.length_cons]
    omega
  · simp

def literalLines? (chars : List Char) : Option (List Char × List Char) :=
  match closing? '\'' chars with
  | some closed => some closed
  | none =>
    match chars with
    | '\r' :: '\n' :: rest =>
      (literalLines? rest).map fun (content, rest) => ('\r' :: '\n' :: content, rest)
    | c :: rest =>
      if isText c || c == '\n' then
        (literalLines? rest).map fun (content, rest) => (c :: content, rest)
      else none
    | [] => none
termination_by chars.length
decreasing_by
  · simp only [List.length_cons]
    omega
  · simp

/-- A string of one line. -/
def line? : List Char → Option (List Char × List Char)
  | '"' :: rest => basic? rest
  | '\'' :: rest => literal? rest
  | _ => none

/-- A string of one line or several. -/
def string? : List Char → Option (List Char × List Char)
  | '"' :: '"' :: '"' :: rest => basicLines? (skipFirstEnd rest)
  | '\'' :: '\'' :: '\'' :: rest => literalLines? (skipFirstEnd rest)
  | chars => line? chars

end FormulaKeys.Document.Toml
