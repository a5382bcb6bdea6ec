import FormulaKeys.Document.Toml.Quoted
import FormulaKeys.Proofs.Text.Lines
import FormulaKeys.Text.Quoted

/-! Quoted text read back.

The reader knows the letters that stand behind a backslash and the code points in braces. What is
written for a text keeps to one line and reads as that text, whichever characters are visible.
-/

set_option autoImplicit false

namespace FormulaKeys.Text.Quoted

open Document.Toml (hexDigit? codePoint?)

/-- The character that a letter behind a backslash stands for. -/
def ofLetter? : Char → Option Char
  | '0' => some '\x00'
  | 't' => some '\t'
  | 'r' => some '\r'
  | 'n' => some '\n'
  | '\\' => some '\\'
  | '"' => some '"'
  | _ => none

/-- The character whose code point ends at the closing brace. -/
def ofBraces? (chars : List Char) : Option (Char × List Char) :=
  match chars.dropWhile (· != '}') with
  | [] => none
  | _ :: rest => (codePoint? (chars.takeWhile (· != '}'))).map (·, rest)

/-- What an escape stands for, read behind its backslash. -/
def sequence? : List Char → Option (Char × List Char)
  | 'u' :: '{' :: inside => ofBraces? inside
  | letter :: rest => (ofLetter? letter).map (·, rest)
  | [] => none

theorem length_of_ofBraces? {chars rest : List Char} {c : Char}
    (found : ofBraces? chars = some (c, rest)) : rest.length < chars.length := by
  unfold ofBraces? at found
  split at found
  next => cases found
  next same =>
    obtain ⟨_, _, parts⟩ := Option.map_eq_some_iff.mp found
    cases parts
    have shorter := (List.dropWhile_suffix (· != '}') (l := chars)).length_le
    rw [same, List.length_cons] at shorter
    omega

theorem length_of_sequence? {chars rest : List Char} {c : Char}
    (found : sequence? chars = some (c, rest)) : rest.length < chars.length := by
  unfold sequence? at found
  split at found
  next inside =>
    have shorter := length_of_ofBraces? found
    simp only [List.length_cons]
    omega
  next =>
    obtain ⟨_, _, parts⟩ := Option.map_eq_some_iff.mp found
    cases parts
    simp
  next => cases found

/-- The characters up to the closing quote, with which the list must end. -/
def content? (chars : List Char) : Option (List Char) :=
  match chars with
  | [] => none
  | '"' :: rest => if rest = [] then some [] else none
  | '\\' :: behind =>
    match _found : sequence? behind with
    | none => none
    | some (c, rest) => (content? rest).map (c :: ·)
  | c :: rest => (content? rest).map (c :: ·)
termination_by chars.length
decreasing_by
  · have := length_of_sequence? _found
    rw [List.length_cons]
    omega
  · simp

def decode? (quoted : String) : Option String :=
  match quoted.toList with
  | '"' :: inside => (content? inside).map String.ofList
  | _ => none

/-! Code points in hexadecimal digits. -/

theorem hexDigit?_digitChar {digit : Nat} (small : digit < 16) :
    hexDigit? digit.digitChar = some digit := by
  decide +revert

theorem exists_hexDigit? {value : Nat} {c : Char} (mem : c ∈ Nat.toDigits 16 value) :
    ∃ digit, hexDigit? c = some digit := by
  induction value using Nat.strongRecOn with
  | ind value ih =>
    by_cases small : value < 16
    · rw [Nat.toDigits_of_lt_base small, List.mem_singleton] at mem
      exact ⟨value, mem ▸ hexDigit?_digitChar small⟩
    · rw [Nat.toDigits_of_base_le (by decide) (Nat.le_of_not_lt small), List.mem_append,
        List.mem_singleton] at mem
      rcases mem with front | last
      · exact ih (value / 16) (by omega) front
      · exact ⟨value % 16, last ▸ hexDigit?_digitChar (Nat.mod_lt _ (by decide))⟩

theorem notMem_toDigits {value : Nat} {c : Char} (noDigit : hexDigit? c = none) :
    c ∉ Nat.toDigits 16 value := by
  intro mem
  obtain ⟨digit, found⟩ := exists_hexDigit? mem
  cases noDigit.symm.trans found

/-- The digits give the code that they were written for. -/
theorem foldlM_hexDigit?_toDigits (value : Nat) :
    (Nat.toDigits 16 value).foldlM (fun code c => (hexDigit? c).map (16 * code + ·)) 0 =
      some value := by
  induction value using Nat.strongRecOn with
  | ind value ih =>
    by_cases small : value < 16
    · rw [Nat.toDigits_of_lt_base small]
      simp [hexDigit?_digitChar small]
    · rw [Nat.toDigits_of_base_le (by decide) (Nat.le_of_not_lt small), List.foldlM_append,
        ih (value / 16) (by omega)]
      have last := hexDigit?_digitChar (Nat.mod_lt value (y := 16) (by decide))
      simp [last, Nat.div_add_mod]

theorem codePoint?_toDigits (c : Char) : codePoint? (Nat.toDigits 16 c.toNat) = some c := by
  rw [codePoint?, foldlM_hexDigit?_toDigits]
  have valid : c.toNat.isValidChar := c.valid
  change (if c.toNat.isValidChar then some (Char.ofNat c.toNat) else none) = some c
  rw [if_pos valid, Char.ofNat_toNat]

theorem ofBraces?_toDigits (c : Char) (rest : List Char) :
    ofBraces? (Nat.toDigits 16 c.toNat ++ '}' :: rest) = some (c, rest) := by
  have inside : ∀ d ∈ Nat.toDigits 16 c.toNat, (d != '}') = true := by
    intro d mem
    rw [bne_iff_ne]
    rintro rfl
    exact notMem_toDigits (by decide) mem
  unfold ofBraces?
  rw [List.dropWhile_append_of_pos inside, List.takeWhile_append_of_pos inside,
    List.dropWhile_cons_of_neg (by decide), List.takeWhile_cons_of_neg (by decide),
    List.append_nil, codePoint?_toDigits]
  rfl

/-! Each character is read by itself. -/

theorem ofLetter?_of_shortEscape? {c letter : Char} (short : shortEscape? c = some letter) :
    ofLetter? letter = some c ∧ letter ≠ 'u' ∧ letter ≠ '\n' ∧ letter ≠ '\r' := by
  unfold shortEscape? at short
  split at short <;> cases short
  all_goals decide

theorem content?_sequence {c : Char} {behind rest : List Char}
    (found : sequence? behind = some (c, rest)) :
    content? ('\\' :: behind) = (content? rest).map (c :: ·) := by
  rw [content?]
  split
  next none => cases none.symm.trans found
  next same => cases same.symm.trans found; rfl

theorem content?_encodeChar (c : Char) (rest : List Char) :
    content? (encodeChar c ++ rest) = (content? rest).map (c :: ·) := by
  unfold encodeChar
  split
  next letter short =>
    obtain ⟨known, noCode, _⟩ := ofLetter?_of_shortEscape? short
    apply content?_sequence
    change sequence? (letter :: rest) = some (c, rest)
    rw [sequence?, known]
    · rfl
    · intro inside same
      exact (noCode same).elim
  next long =>
    split
    next =>
      have quote : c ≠ '"' := by rintro rfl; cases long
      have backslash : c ≠ '\\' := by rintro rfl; cases long
      rw [List.singleton_append, content?]
      · exact quote
      · exact backslash
    next =>
      have code := ofBraces?_toDigits c rest
      rw [codeEscape, List.append_assoc]
      exact content?_sequence code

theorem content?_encode (chars : List Char) :
    content? (chars.flatMap encodeChar ++ ['"']) = some chars := by
  induction chars with
  | nil =>
    rw [List.flatMap_nil, List.nil_append, content?]
    rfl
  | cons c chars ih =>
    rw [List.flatMap_cons, List.append_assoc, content?_encodeChar, ih]
    rfl

theorem decode?_encode (text : String) : decode? (encode text) = some text := by
  have whole : (encode text).toList = '"' :: (text.toList.flatMap encodeChar ++ ['"']) := by
    simp [encode]
  rw [decode?, whole]
  simp only [content?_encode, Option.map_some, String.ofList_toList]

/-! The line is not broken. -/

theorem lineBreak_notMem_encodeChar {c lineBreak : Char}
    (known : lineBreak = '\n' ∨ lineBreak = '\r') : lineBreak ∉ encodeChar c := by
  unfold encodeChar
  split
  next letter short =>
    obtain ⟨_, _, feed, carriage⟩ := ofLetter?_of_shortEscape? short
    rcases known with rfl | rfl <;> simp [feed.symm, carriage.symm]
  next long =>
    split
    next =>
      intro mem
      cases List.mem_singleton.mp mem
      rcases known with rfl | rfl <;> cases long
    next =>
      have noDigit : hexDigit? lineBreak = none := by rcases known with rfl | rfl <;> decide
      have apart : lineBreak ∉ Nat.toDigits 16 c.toNat := notMem_toDigits noDigit
      rcases known with rfl | rfl <;> simp [codeEscape, apart]

theorem oneLine_encode (text : String) : OneLine (encode text) := by
  have absent {lineBreak : Char} (known : lineBreak = '\n' ∨ lineBreak = '\r') :
      lineBreak ∉ (encode text).toList := by
    have noQuote : lineBreak ≠ '"' := by rcases known with rfl | rfl <;> decide
    simp [encode, noQuote, lineBreak_notMem_encodeChar known]
  exact ⟨absent (.inl rfl), absent (.inr rfl)⟩

end FormulaKeys.Text.Quoted
