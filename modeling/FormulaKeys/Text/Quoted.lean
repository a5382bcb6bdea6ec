import FormulaKeys.Text.Extending
import FormulaKeys.Text.Ignorable
import FormulaKeys.Text.Printable

/-!
Quoted text: text between double quotes on one line, in which every character is visible. Characters
that would not be are written by their code points.
-/

set_option autoImplicit false

namespace FormulaKeys.Text.Quoted

/-- The letter that stands behind a backslash for the character, if there is one. -/
def shortEscape? : Char → Option Char
  | '\x00' => some '0'
  | '\t' => some 't'
  | '\r' => some 'r'
  | '\n' => some 'n'
  | '\\' => some '\\'
  | '"' => some '"'
  | _ => none

/-- The code point between braces, in lower-case hexadecimal digits. -/
def codeEscape (c : Char) : List Char :=
  '\\' :: 'u' :: '\x7b' :: Nat.toDigits 16 c.toNat ++ ['\x7d']

/-- Whether the character is seen as it is, by itself. -/
def isVisible (c : Char) : Bool := isPrintable c && !isExtending c && !isIgnorable c

def encodeChar (c : Char) : List Char :=
  match shortEscape? c with
  | some letter => ['\\', letter]
  | none => if isVisible c then [c] else codeEscape c

def encode (text : String) : String :=
  String.ofList ('"' :: text.toList.flatMap encodeChar ++ ['"'])

end FormulaKeys.Text.Quoted
