import FormulaKeys.Document.Toml.Quoted
import FormulaKeys.Proofs.Text.Lines
import FormulaKeys.Script.Literal

/-! Reading string literals in single quotes by the rules of ECMAScript 2019.

The reader knows every escape sequence of the language, of which scripts use four.
What is written for a text ends at its own closing quote and reads as that text.
-/

set_option autoImplicit false

namespace FormulaKeys.Script.Literal

open Document.Toml (hexDigit?)

def isLineEnd (c : Char) : Bool :=
  c == '\n' || c == '\r' || c == '\u2028' || c == '\u2029'

/-- The number that hexadecimal digits give. -/
def code? (digits : List Char) : Option Nat :=
  digits.foldlM (fun code c => (hexDigit? c).map (16 * code + ·)) 0

/-- A code point in four digits, or in any number of them between braces. -/
def codePoint? : List Char → Option (Nat × List Char)
  | '{' :: inside =>
    match inside.dropWhile (· != '}') with
    | [] => none
    | _ :: rest =>
      match inside.takeWhile (· != '}') with
      | [] => none
      | digits => ((code? digits).filter (· ≤ 0x10ffff)).map (·, rest)
  | a :: b :: c :: d :: rest => (code? [a, b, c, d]).map (·, rest)
  | _ => none

/-- The character that the escapes of one code point give, or those of a pair of surrogates. A
surrogate that stands alone belongs to no text. -/
def unicode? (chars : List Char) : Option (Char × List Char) :=
  match codePoint? chars with
  | none => none
  | some (first, rest) =>
    if first.isValidChar then some (Char.ofNat first, rest)
    else
      match rest with
      | '\\' :: 'u' :: rest =>
        match codePoint? rest with
        | none => none
        | some (second, rest) =>
          if first < 0xdc00 ∧ 0xdc00 ≤ second ∧ second < 0xe000 then
            some (Char.ofNat (0x10000 + (first - 0xd800) * 0x400 + (second - 0xdc00)), rest)
          else none
      | _ => none

/-- The characters with an escape of their own; any other character stands for itself. -/
def single : Char → Char
  | 'b' => '\x08'
  | 't' => '\t'
  | 'n' => '\n'
  | 'v' => '\x0b'
  | 'f' => '\x0c'
  | 'r' => '\r'
  | c => c

/-- A code point in two digits. -/
def byte? : List Char → Option (Nat × List Char)
  | a :: b :: rest => (code? [a, b]).map (·, rest)
  | _ => none

/-- What an escape sequence stands for, read behind its backslash. A line end there stands for
nothing, and a digit only for the null character. -/
def sequence? : List Char → Option (List Char × List Char)
  | [] => none
  | c :: rest =>
    if c = 'u' then (unicode? rest).map (Prod.map List.singleton id)
    else if c = 'x' then (byte? rest).map (Prod.map (fun code => [Char.ofNat code]) id)
    -- The null character is the one octal escape that is left in the language.
    else if c.isDigit then
      if c = '0' ∧ ¬rest.head?.any Char.isDigit then some (['\x00'], rest) else none
    else if c = '\r' then some ([], if rest.head? = some '\n' then rest.tail else rest)
    else if isLineEnd c then some ([], rest)
    else some ([single c], rest)

theorem length_of_codePoint? {chars rest : List Char} {code : Nat}
    (found : codePoint? chars = some (code, rest)) : rest.length < chars.length := by
  unfold codePoint? at found
  split at found
  next inside =>
    split at found
    next => cases found
    next last behind same =>
      have shorter := (List.dropWhile_suffix (· != '}') (l := inside)).length_le
      rw [same, List.length_cons] at shorter
      split at found
      next => cases found
      next =>
        obtain ⟨_, _, parts⟩ := Option.map_eq_some_iff.mp found
        cases parts
        rw [List.length_cons]
        omega
  next =>
    obtain ⟨_, _, parts⟩ := Option.map_eq_some_iff.mp found
    cases parts
    simp only [List.length_cons]
    omega
  next => cases found

theorem length_of_unicode? {chars rest : List Char} {c : Char}
    (found : unicode? chars = some (c, rest)) : rest.length < chars.length := by
  unfold unicode? at found
  split at found
  next => cases found
  next first behind one =>
    have shorter := length_of_codePoint? one
    split at found
    next => cases found; exact shorter
    next =>
      split at found
      next =>
        split at found
        next => cases found
        next second behind two =>
          have more := length_of_codePoint? two
          simp only [List.length_cons] at shorter
          split at found
          · rw [← (Prod.mk.inj (Option.some.inj found)).2]
            omega
          · cases found
      next => cases found

theorem length_of_byte? {chars rest : List Char} {code : Nat}
    (found : byte? chars = some (code, rest)) : rest.length < chars.length := by
  unfold byte? at found
  split at found
  next =>
    obtain ⟨_, _, parts⟩ := Option.map_eq_some_iff.mp found
    cases parts
    simp only [List.length_cons]
    omega
  next => cases found

theorem length_of_sequence? {chars value rest : List Char}
    (found : sequence? chars = some (value, rest)) : rest.length < chars.length := by
  cases chars with
  | nil => cases found
  | cons c behind =>
    rw [List.length_cons]
    simp only [sequence?] at found
    split at found
    next =>
      obtain ⟨_, escaped, parts⟩ := Option.map_eq_some_iff.mp found
      cases parts
      exact Nat.lt_succ_of_lt (length_of_unicode? escaped)
    next =>
      split at found
      next =>
        obtain ⟨_, escaped, parts⟩ := Option.map_eq_some_iff.mp found
        cases parts
        exact Nat.lt_succ_of_lt (length_of_byte? escaped)
      next =>
        have suffix : rest <:+ behind := by
          split at found
          · split at found <;> simp_all
          · split at found
            · split at found <;> cases found <;> simp [List.tail_suffix]
            · split at found <;> simp_all
        exact Nat.lt_succ_of_le suffix.length_le

/-- The text that a literal denotes and what stands behind its closing quote, read from behind the
opening one. -/
def read? (chars : List Char) : Option (List Char × List Char) :=
  match chars with
  | [] => none
  | '\'' :: rest => some ([], rest)
  | '\\' :: behind =>
    match _found : sequence? behind with
    | none => none
    | some (value, rest) => (read? rest).map (Prod.map (value ++ ·) id)
  -- The separators U+2028 and U+2029 may stand in a literal since 2019.
  | c :: rest =>
    if c = '\n' ∨ c = '\r' then none else (read? rest).map (Prod.map (c :: ·) id)
termination_by chars.length
decreasing_by
  · have := length_of_sequence? _found
    rw [List.length_cons]
    omega
  · simp

theorem length_of_read? {chars value rest : List Char} (found : read? chars = some (value, rest)) :
    rest.length < chars.length := by
  induction chars using read?.induct generalizing value with
  | case1 => rw [read?] at found; cases found
  | case2 => rw [read?] at found; cases found; simp
  | case3 behind refused =>
    rw [read?] at found
    split at found
    next => cases found
    next same => rw [refused] at same; cases same
  | case4 behind first next' known ih =>
    rw [read?] at found
    split at found
    next => cases found
    next same =>
      rw [known] at same
      cases same
      obtain ⟨_, inner, parts⟩ := Option.map_eq_some_iff.mp found
      cases parts
      have shorter := length_of_sequence? known
      have := ih inner
      rw [List.length_cons]
      exact Nat.lt_succ_of_lt (Nat.lt_trans this shorter)
  | case5 c behind quote backslash broken =>
    rw [read?, if_pos broken] at found
    · cases found
    · exact quote
    · exact backslash
  | case6 c behind quote backslash unbroken ih =>
    rw [read?, if_neg unbroken] at found
    · obtain ⟨_, inner, parts⟩ := Option.map_eq_some_iff.mp found
      cases parts
      exact Nat.lt_succ_of_lt (ih inner)
    · exact quote
    · exact backslash

/-! What is written for a text, read back. -/

theorem escapeChar_of_isPlain {c : Char} (plain : isPlain c = true) : escapeChar c = [c] := by
  fun_cases escapeChar c
  case case5 => rfl
  all_goals cases plain

theorem flatMap_escapeChar_of_all {chars : List Char} (plain : chars.all isPlain = true) :
    chars.flatMap escapeChar = chars := by
  induction chars with
  | nil => rfl
  | cons c rest ih =>
    rw [List.all_cons, Bool.and_eq_true] at plain
    rw [List.flatMap_cons, escapeChar_of_isPlain plain.1, ih plain.2]
    rfl

theorem escapeRuns_eq_flatMap (chars : List Char) :
    escapeRuns chars = chars.flatMap escapeChar := by
  induction chars using escapeRuns.induct with
  | case1 chars ih =>
    -- The list is a plain run and then, if it goes on, one escape and a shorter list.
    have run := flatMap_escapeChar_of_all (List.all_takeWhile (p := isPlain) (l := chars))
    rw [escapeRuns]
    conv => rhs; rw [← List.takeWhile_append_dropWhile (p := isPlain) (l := chars)]
    rw [List.flatMap_append, run]
    split
    next last => rw [last]; rfl
    next c rest same => rw [ih c rest same, same, List.flatMap_cons]

theorem read?_sequence {c : Char} {behind rest : List Char}
    (found : sequence? behind = some ([c], rest)) :
    read? ('\\' :: behind) = (read? rest).map (Prod.map (c :: ·) id) := by
  rw [read?]
  split
  next none => rw [none] at found; cases found
  next same =>
    rw [same] at found
    cases found
    rfl

theorem read?_escapeChar (c : Char) (rest : List Char) :
    read? (escapeChar c ++ rest) = (read? rest).map (Prod.map (c :: ·) id) := by
  fun_cases escapeChar c
  -- The last case is a character without an escape; the other four read one.
  case case5 backslash quote feed carriage =>
    rw [List.singleton_append, read?, if_neg (not_or.mpr ⟨feed, carriage⟩)]
    · exact quote
    · exact backslash
  all_goals
    apply read?_sequence
    rfl

/-- Whatever stands behind the closing quote is left alone. -/
theorem read?_escapeRuns (chars rest : List Char) :
    read? (escapeRuns chars ++ '\'' :: rest) = some (chars, rest) := by
  rw [escapeRuns_eq_flatMap]
  induction chars with
  | nil => rw [List.flatMap_nil, List.nil_append, read?]
  | cons c chars ih =>
    rw [List.flatMap_cons, List.append_assoc, read?_escapeChar, ih]
    rfl

theorem notMem_escapeChar {c lineBreak : Char} (known : lineBreak = '\n' ∨ lineBreak = '\r') :
    lineBreak ∉ escapeChar c := by
  fun_cases escapeChar c
  case case5 _ _ feed carriage =>
    intro found
    cases List.mem_singleton.mp found
    exact known.elim feed carriage
  all_goals rcases known with rfl | rfl <;> decide

theorem oneLine_escape (text : String) : Text.OneLine (escape text) := by
  have absent {lineBreak : Char} (known : lineBreak = '\n' ∨ lineBreak = '\r') :
      lineBreak ∉ (escape text).toList := by
    rw [escape, String.toList_ofList, escapeRuns_eq_flatMap, List.mem_flatMap]
    rintro ⟨c, _, found⟩
    exact notMem_escapeChar known found
  exact ⟨absent (.inl rfl), absent (.inr rfl)⟩

end FormulaKeys.Script.Literal
