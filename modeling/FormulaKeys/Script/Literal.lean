/-!
String literals in single quotes, as browser scripts hold them. The quote, the backslash and both
line breaks are escaped, so a literal ends at its own closing quote and on its own line.
-/

set_option autoImplicit false

namespace FormulaKeys.Script.Literal

def isPlain (c : Char) : Bool :=
  c != '\\' && c != '\'' && c != '\n' && c != '\r'

def escapeChar : Char → List Char
  | '\\' => ['\\', '\\']
  | '\'' => ['\\', '\'']
  | '\n' => ['\\', 'n']
  | '\r' => ['\\', 'r']
  | c => [c]

/-- Runs of plain characters are copied whole. -/
def escapeRuns (chars : List Char) : List Char :=
  chars.takeWhile isPlain ++
    match _rest : chars.dropWhile isPlain with
    | [] => []
    | c :: rest => escapeChar c ++ escapeRuns rest
termination_by chars.length
decreasing_by
  have := (List.dropWhile_suffix isPlain (l := chars)).length_le
  rw [_rest, List.length_cons] at this
  omega

/-- The content of the literal that denotes `text`, without the quotes. -/
def escape (text : String) : String :=
  String.ofList (escapeRuns text.toList)

end FormulaKeys.Script.Literal
