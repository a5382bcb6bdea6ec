import FormulaKeys.Proofs.Script.Literal

/-! Reading statements that await a call, the only ones that replay a step.

A line is cut into tokens first, and the tokens are read as calls. Neither step depends on the
blanks that stand between two tokens.
-/

set_option autoImplicit false

namespace FormulaKeys.Script

inductive Token where
  | word (chars : List Char)
  | literal (content : List Char)
  | mark (c : Char)
  deriving DecidableEq, Repr

namespace Token

/-- The characters of names, keywords and numbers. -/
def isWordChar (c : Char) : Bool :=
  c.isAlphanum || c == '_' || c == '$'

def readAll? (chars : List Char) : Option (List Token) :=
  match chars with
  | [] => some []
  | c :: rest =>
    if c = ' ' then readAll? rest
    else if c = '\'' then
      match _found : Literal.read? rest with
      | none => none
      | some (content, behind) => (readAll? behind).map (literal content :: ·)
    else if isWordChar c then
      (readAll? (rest.dropWhile isWordChar)).map (word (c :: rest.takeWhile isWordChar) :: ·)
    else (readAll? rest).map (mark c :: ·)
termination_by chars.length
decreasing_by
  · simp
  · exact Nat.lt_succ_of_lt (Literal.length_of_read? _found)
  · exact Nat.lt_succ_of_le (List.dropWhile_suffix isWordChar).length_le
  · simp

/-- A text gives these tokens wherever it stands. -/
def Lexes (text : String) (tokens : List Token) : Prop :=
  ∀ rest, readAll? (text.toList ++ rest) = (readAll? rest).map (tokens ++ ·)

theorem Lexes.readAll? {text : String} {tokens : List Token} (lexes : Lexes text tokens) :
    readAll? text.toList = some tokens := by
  have whole := lexes []
  rw [List.append_nil, Token.readAll?] at whole
  rw [whole, Option.map_some, List.append_nil]

theorem Lexes.append {first second : String} {before behind : List Token}
    (left : Lexes first before) (right : Lexes second behind) :
    Lexes (first ++ second) (before ++ behind) := by
  intro rest
  rw [String.toList_append, List.append_assoc, left, right, Option.map_map]
  simp only [Function.comp_def, List.append_assoc]

theorem lexes_literal (text : String) :
    Lexes ("'" ++ Literal.escape text ++ "'") [.literal text.toList] := by
  intro rest
  have content := Literal.read?_escapeRuns text.toList rest
  simp only [String.toList_append, Literal.escape, String.toList_ofList, List.append_assoc]
  change Token.readAll? ('\'' :: (Literal.escapeRuns text.toList ++ '\'' :: rest)) = _
  rw [Token.readAll?, if_neg (by decide), if_pos rfl]
  split
  next refused => rw [content] at refused; cases refused
  next same =>
    rw [content] at same
    cases same
    rfl

theorem readAll?_word {c : Char} (rest : List Char) (known : isWordChar c = true) :
    readAll? (c :: rest) =
      (readAll? (rest.dropWhile isWordChar)).map (word (c :: rest.takeWhile isWordChar) :: ·) := by
  have blank : c ≠ ' ' := by rintro rfl; cases known
  have quote : c ≠ '\'' := by rintro rfl; cases known
  rw [readAll?, if_neg blank, if_neg quote, if_pos known]

/-- A word needs something behind it that ends it. -/
theorem lexes_word {word next : String} {tokens : List Token} (nonempty : word.toList ≠ [])
    (inside : ∀ c ∈ word.toList, isWordChar c = true)
    (ended : ∃ stop ∈ next.toList.head?, ¬isWordChar stop = true) (lexes : Lexes next tokens) :
    Lexes (word ++ next) (.word word.toList :: tokens) := by
  intro rest
  obtain ⟨c, chars, same⟩ := List.exists_cons_of_ne_nil nonempty
  obtain ⟨stop, first, outside⟩ := ended
  obtain ⟨others, first⟩ := List.head?_eq_some_iff.mp first
  rw [same, List.forall_mem_cons] at inside
  have behind := lexes rest
  rw [first, List.cons_append] at behind
  rw [String.toList_append, List.append_assoc, same, first, List.cons_append, List.cons_append,
    readAll?_word _ inside.1, List.dropWhile_append_of_pos inside.2,
    List.dropWhile_cons_of_neg outside, List.takeWhile_append_of_pos inside.2,
    List.takeWhile_cons_of_neg outside, List.append_nil, behind, Option.map_map]
  rfl

theorem lexes_number (value : Nat) {next : String} {tokens : List Token}
    (ended : ∃ stop ∈ next.toList.head?, ¬isWordChar stop = true) (lexes : Lexes next tokens) :
    Lexes (value.repr ++ next) (.word value.repr.toList :: tokens) := by
  apply lexes_word
  · rw [Nat.toList_repr]
    exact Nat.toDigits_ne_nil
  · intro c known
    rw [Nat.toList_repr] at known
    have digit := Nat.isDigit_of_mem_toDigits (by decide) (by decide) known
    simp [isWordChar, Char.isAlphanum, digit]
  · exact ended
  · exact lexes

end Token

/-- What a call can be given. -/
inductive Value where
  | text (content : String)
  | flag (value : Bool)
  | number (value : Nat)
  deriving DecidableEq, Repr

namespace Value

/-- Digits without a zero in front. -/
def isDecimal (chars : List Char) : Bool :=
  chars.all Char.isDigit && (chars.head? != some '0' || chars == ['0'])

def ofToken? : Token → Option Value
  | .literal content => some (text (String.ofList content))
  | .word chars =>
    if chars = "true".toList then some (flag true)
    else if chars = "false".toList then some (flag false)
    else if isDecimal chars then some (number (Nat.ofDigitChars 10 chars 0))
    else none
  | .mark _ => none

def token : Value → Token
  | text content => .literal content.toList
  | flag true => .word "true".toList
  | flag false => .word "false".toList
  | number value => .word value.repr.toList

theorem head?_toDigits_ne_zero {value : Nat} (positive : 0 < value) :
    (Nat.toDigits 10 value).head? ≠ some '0' := by
  induction value using Nat.strongRecOn with
  | ind value ih =>
    by_cases small : value < 10
    · rw [Nat.toDigits_of_lt_base small]
      simpa using Nat.ne_of_gt positive
    · have first := ih (value / 10) (by omega) (by omega)
      rw [Nat.toDigits_of_base_le (by decide) (Nat.le_of_not_lt small), List.head?_append]
      cases same : (Nat.toDigits 10 (value / 10)).head? with
      | none => exact absurd (List.head?_eq_none_iff.mp same) Nat.toDigits_ne_nil
      | some c => rwa [same] at first

theorem isDecimal_repr (value : Nat) : isDecimal value.repr.toList = true := by
  rw [isDecimal, Nat.toList_repr, Bool.and_eq_true]
  constructor
  · apply List.all_eq_true.mpr
    intro c known
    exact Nat.isDigit_of_mem_toDigits (by decide) (by decide) known
  · cases value with
    | zero => decide
    | succ value => simp [head?_toDigits_ne_zero (Nat.succ_pos value)]

theorem ofToken?_token (value : Value) : ofToken? value.token = some value := by
  cases value with
  | text content => rw [token, ofToken?, String.ofList_toList]
  | flag value => cases value <;> rfl
  | number value =>
    have decimal := isDecimal_repr value
    have other {keyword : List Char} (letters : isDecimal keyword = false) :
        value.repr.toList ≠ keyword := by
      rintro rfl
      cases decimal.symm.trans letters
    rw [token, ofToken?, if_neg (other rfl), if_neg (other rfl), if_pos decimal, Nat.toList_repr,
      Nat.ofDigitChars_ten_toDigits]

end Value

structure Call where
  callee : String
  arguments : List Value
  deriving DecidableEq, Repr

namespace Call

/-- The arguments up to the closing parenthesis. -/
def arguments? : List Token → Option (List Value × List Token)
  | [] => none
  | token :: rest =>
    match Value.ofToken? token with
    | none => if token = .mark ')' then some ([], rest) else none
    | some value =>
      match rest with
      | .mark ')' :: rest => some ([value], rest)
      | .mark ',' :: rest => (arguments? rest).map (Prod.map (value :: ·) id)
      | _ => none

def read? : List Token → Option (Call × List Token)
  | .word keyword :: .word callee :: .mark '(' :: inside =>
    match arguments? inside with
    | some (arguments, .mark ';' :: rest) =>
      if keyword = "await".toList then some (⟨String.ofList callee, arguments⟩, rest) else none
    | _ => none
  | _ => none

theorem length_of_arguments? {tokens rest : List Token} {arguments : List Value}
    (found : arguments? tokens = some (arguments, rest)) : rest.length < tokens.length := by
  induction tokens using arguments?.induct generalizing arguments with
  | case1 => cases found
  | case2 behind none =>
    rw [arguments?, none] at found
    cases found
    simp
  | case3 token behind none other =>
    simp only [arguments?, none, if_neg other] at found
    cases found
  | case4 token value known behind =>
    simp only [arguments?, known] at found
    cases found
    simp only [List.length_cons]
    omega
  | case5 token value known behind ih =>
    simp only [arguments?, known] at found
    obtain ⟨_, inner, parts⟩ := Option.map_eq_some_iff.mp found
    cases parts
    have := ih inner
    simp only [List.length_cons]
    omega
  | case6 token behind value known closed more =>
    simp only [arguments?, known] at found
    cases found

theorem length_of_read? {tokens rest : List Token} {call : Call}
    (found : read? tokens = some (call, rest)) : rest.length < tokens.length := by
  unfold read? at found
  split at found
  next =>
    split at found
    next inner =>
      have shorter := length_of_arguments? inner
      split at found
      · cases found
        simp only [List.length_cons] at shorter ⊢
        omega
      · cases found
    next => cases found
  next => cases found

def readTokens? : List Token → Option (List Call)
  | [] => some []
  | token :: behind =>
    match _found : read? (token :: behind) with
    | none => none
    | some (call, rest) => (readTokens? rest).map (call :: ·)
termination_by tokens => tokens.length
decreasing_by exact length_of_read? _found

/-- The calls of a line that holds nothing else. -/
def readAll? (line : String) : Option (List Call) :=
  (Token.readAll? line.toList).bind readTokens?

def argumentTokens : List Value → List Token
  | [] => [.mark ')']
  | [value] => [value.token, .mark ')']
  | value :: rest => value.token :: .mark ',' :: argumentTokens rest

def tokens (call : Call) : List Token :=
  .word "await".toList :: .word call.callee.toList :: .mark '(' ::
    (argumentTokens call.arguments ++ [.mark ';'])

theorem arguments?_argumentTokens (arguments : List Value) (rest : List Token) :
    arguments? (argumentTokens arguments ++ rest) = some (arguments, rest) := by
  induction arguments using argumentTokens.induct with
  | case1 => rfl
  | case2 value =>
    simp only [argumentTokens, List.cons_append, List.nil_append, arguments?, Value.ofToken?_token]
  | case3 value others nonempty ih =>
    rw [argumentTokens]
    · simp only [List.cons_append, arguments?, Value.ofToken?_token, ih]
      rfl
    · exact nonempty

theorem read?_tokens (call : Call) (rest : List Token) :
    read? (call.tokens ++ rest) = some (call, rest) := by
  simp only [tokens, List.cons_append, List.append_assoc, List.nil_append]
  simp [read?, arguments?_argumentTokens]

theorem readTokens?_of_read? {tokens rest : List Token} {call : Call}
    (found : read? tokens = some (call, rest)) :
    readTokens? tokens = (readTokens? rest).map (call :: ·) := by
  cases tokens with
  | nil => cases found
  | cons token behind =>
    rw [readTokens?]
    split
    next refused => rw [found] at refused; cases refused
    next same =>
      rw [found] at same
      cases same
      rfl

theorem readTokens?_tokens (calls : List Call) :
    readTokens? (calls.flatMap tokens) = some calls := by
  induction calls with
  | nil => rw [List.flatMap_nil, readTokens?]
  | cons call rest ih =>
    rw [List.flatMap_cons, readTokens?_of_read? (read?_tokens call _), ih]
    rfl

theorem readAll?_of_lexes {line : String} {calls : List Call}
    (lexes : Token.Lexes line (calls.flatMap tokens)) : readAll? line = some calls := by
  rw [readAll?, lexes.readAll?]
  exact readTokens?_tokens calls

end Call

end FormulaKeys.Script
