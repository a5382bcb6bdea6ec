import FormulaKeys.Proofs.Text.Lines
import FormulaKeys.Script.Send

/-! What escaped arguments cannot hold.

An escaped text is a row of keystrokes. None of them breaks the line, and a brace that opens one is
followed by what it types, never by the name of a key that moves the caret.
-/

set_option autoImplicit false

namespace FormulaKeys.Script.Send

/-- What is written for one character of a text. Nothing at all is written for a carriage return. -/
inductive Keystroke : List Char → Prop where
  | char (c : Char) : Keystroke (escapeChar c)
  | space : Keystroke spaceKey

theorem exists_keystrokes (text : String) :
    ∃ keystrokes : List (List Char), (escape text).toList = keystrokes.flatten ∧
      ∀ keystroke ∈ keystrokes, Keystroke keystroke := by
  have spaces (count : Nat) : ∀ keystroke ∈ List.replicate count spaceKey, Keystroke keystroke := by
    intro keystroke known
    rw [List.eq_of_mem_replicate known]
    exact .space
  have inner (chars : List Char) : ∀ keystroke ∈ chars.map escapeChar, Keystroke keystroke := by
    intro keystroke known
    obtain ⟨c, _, rfl⟩ := List.mem_map.mp known
    exact .char c
  rw [escape, String.toList_ofList, List.flatMap_def, ← List.flatten_append, ← List.flatten_append]
  refine ⟨_, rfl, ?_⟩
  rw [List.forall_mem_append, List.forall_mem_append]
  exact ⟨⟨spaces _, inner _⟩, spaces _⟩

theorem Keystroke.lineBreak_notMem {keystroke : List Char} (written : Keystroke keystroke)
    {lineBreak : Char} (known : lineBreak = '\n' ∨ lineBreak = '\r') : lineBreak ∉ keystroke := by
  cases written with
  | space => rcases known with rfl | rfl <;> decide
  | char c =>
    fun_cases escapeChar c
    case case13 feed carriage =>
      intro found
      cases List.mem_singleton.mp found
      exact known.elim feed carriage
    all_goals rcases known with rfl | rfl <;> decide

theorem oneLine_escape (text : String) : Text.OneLine (escape text) := by
  obtain ⟨keystrokes, whole, written⟩ := exists_keystrokes text
  have absent {lineBreak : Char} (known : lineBreak = '\n' ∨ lineBreak = '\r') :
      lineBreak ∉ (escape text).toList := by
    rw [whole, List.mem_flatten]
    rintro ⟨keystroke, mem, found⟩
    exact (written keystroke mem).lineBreak_notMem known found
  exact ⟨absent (.inl rfl), absent (.inr rfl)⟩

/-- What stands behind an opening brace: the first letter of the space, or the character that is
typed. -/
def braced : List Char := ['S', '\x7b', '\x7d', '^', '!', '+', '#']

/-- A list that begins with a brace goes on with one of the characters above. -/
def Opens (chars : List Char) : Prop :=
  ∀ rest, chars = '\x7b' :: rest → ∃ c ∈ braced, rest.head? = some c

theorem opens_cons {c : Char} (noBrace : c ≠ '\x7b') (chars : List Char) : Opens (c :: chars) := by
  intro rest same
  cases same
  exact (noBrace rfl).elim

theorem Keystroke.opens {keystroke chars : List Char} (written : Keystroke keystroke)
    (behind : Opens chars) : Opens (keystroke ++ chars) := by
  intro rest
  cases written with
  | space =>
    intro same
    cases same
    exact ⟨'S', by decide, rfl⟩
  | char c =>
    fun_cases escapeChar c
    case case1 | case2 | case3 | case4 | case5 | case6 =>
      intro same
      cases same
      exact ⟨_, by decide, rfl⟩
    -- Nothing is written for a carriage return, so the list begins with what is behind.
    case case12 => exact behind rest
    case case13 noBrace _ _ _ _ _ _ _ _ _ _ _ => exact opens_cons noBrace chars rest
    all_goals
      intro same
      cases same

theorem opens_escape (text : String) : Opens (escape text).toList := by
  obtain ⟨keystrokes, whole, written⟩ := exists_keystrokes text
  rw [whole]
  clear whole
  induction keystrokes with
  | nil =>
    intro rest same
    cases same
  | cons keystroke keystrokes ih =>
    obtain ⟨first, others⟩ := List.forall_mem_cons.mp written
    rw [List.flatten_cons]
    exact first.opens (ih others)

end FormulaKeys.Script.Send
