/-!
Arguments of the macro command `Send`, written so that every character is typed and none is obeyed.
Carriage returns are left out, since the line feed beside them already breaks the line. The command
trims its argument, so spaces at the ends are written as keys.
-/

set_option autoImplicit false

namespace FormulaKeys.Script.Send

def escapeChar : Char → List Char
  | '\x7b' => ['\x7b', '\x7b', '\x7d']
  | '\x7d' => ['\x7b', '\x7d', '\x7d']
  | '^' => ['\x7b', '^', '\x7d']
  | '!' => ['\x7b', '!', '\x7d']
  | '+' => ['\x7b', '+', '\x7d']
  | '#' => ['\x7b', '#', '\x7d']
  | '\x60' => ['\x60', '\x60']
  | '%' => ['\x60', '%']
  | ';' => ['\x60', ';']
  | '\t' => ['\x60', 't']
  | '\n' => ['\x60', 'n']
  | '\r' => []
  | c => [c]

def spaceKey : List Char := ['\x7b', 'S', 'p', 'a', 'c', 'e', '\x7d']

/-- The characters between the spaces at both ends. -/
def body (chars : List Char) : List Char :=
  ((chars.dropWhile (· == ' ')).reverse.dropWhile (· == ' ')).reverse

def escape (text : String) : String :=
  let chars := text.toList
  let leading := (chars.takeWhile (· == ' ')).length
  let inner := body chars
  let trailing := chars.length - leading - inner.length
  String.ofList ((List.replicate leading spaceKey).flatten ++ inner.flatMap escapeChar ++
    (List.replicate trailing spaceKey).flatten)

end FormulaKeys.Script.Send
