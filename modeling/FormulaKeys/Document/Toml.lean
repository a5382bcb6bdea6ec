import FormulaKeys.Document.Toml.Moment
import FormulaKeys.Document.Toml.Number
import FormulaKeys.Document.Toml.Quoted
import FormulaKeys.Document.Toml.Table

/-!
Reading TOML, version 1.1. Every reader gives what it has read with the characters behind it; the
fuel of those that repeat themselves is a bound from the length of the text, since each round takes
a character at least.
-/

set_option autoImplicit false

namespace FormulaKeys.Document.Toml

def isBare (c : Char) : Bool := c.isAlphanum || c == '-' || c == '_'

/-- One part of a dotted key. -/
def key? (chars : List Char) : Option (String × List Char) :=
  match line? chars with
  | some (content, rest) => some (String.ofList content, rest)
  | none =>
    match chars.takeWhile isBare with
    | [] => none
    | bare => some (String.ofList bare, chars.dropWhile isBare)

/-- The number of parts that a dotted key may have. -/
def maxKeyParts : Nat := 80

/-- A dotted key of at most `parts` parts: those before the last, and the last. It stays on its
line, with blanks around the dots. -/
def keys? : (parts : Nat) → List Char → Option (List String × String × List Char)
  | 0, _ => none
  | parts + 1, chars => do
    let (key, rest) ← key? chars
    match skipBlanks rest with
    | '.' :: rest =>
      let (path, last, rest) ← keys? parts (skipBlanks rest)
      return (key :: path, last, rest)
    | _ => return ([], key, rest)

def isScalar (c : Char) : Bool := isBare c || c == '+' || c == '.' || c == ':'

/-- The characters of a scalar. A date may go on behind a space with a time. -/
def scalarText (chars : List Char) : List Char × List Char :=
  let text := chars.takeWhile isScalar
  match chars.dropWhile isScalar with
  | ' ' :: digit :: rest =>
    if digit.isDigit && date? text == some [] then
      let time := digit :: rest
      (text ++ ' ' :: time.takeWhile isScalar, time.dropWhile isScalar)
    else (text, ' ' :: digit :: rest)
  | rest => (text, rest)

def scalar? (chars : List Char) : Option (Document × List Char) :=
  let (text, rest) := scalarText chars
  let document? : Option Document :=
    match integer? text with
    | some value => some (.int value)
    | none =>
      let literal := String.ofList text
      if literal = "true" then some (.bool true)
      else if literal = "false" then some (.bool false)
      else if isFraction text then some (.fraction literal)
      else if isMoment text then some (.moment literal)
      else none
  document?.map (·, rest)

/-- The number of lists and inline tables that may stand within each other. -/
def maxDepth : Nat := 80

mutual

/-- A value, with `depth` further levels below it. -/
def value? : (fuel depth : Nat) → List Char → Option (Document × List Char)
  | 0, _, _ => none
  | fuel + 1, depth, chars =>
    match chars, depth with
    | '[' :: rest, depth + 1 => items? fuel depth [] (skipSpace rest)
    | '\x7b' :: rest, depth + 1 => entries? fuel depth [] (skipSpace rest)
    | chars, _ =>
      match string? chars with
      | some (content, rest) => some (.str (String.ofList content), rest)
      | none => scalar? chars

/-- The rest of a list whose items so far are `before`, the latest first. -/
def items? : (fuel depth : Nat) → List Document → List Char → Option (Document × List Char)
  | 0, _, _, _ => none
  | fuel + 1, depth, before, chars =>
    match chars with
    | ']' :: rest => some (.arr before.reverse, rest)
    | chars => do
      let (item, rest) ← value? fuel depth chars
      match skipSpace rest with
      | ',' :: rest => items? fuel depth (item :: before) (skipSpace rest)
      | ']' :: rest => some (.arr (item :: before).reverse, rest)
      | _ => none

/-- The rest of an inline table. Lines may end anywhere in it but within a key. -/
def entries? : (fuel depth : Nat) → Fields → List Char → Option (Document × List Char)
  | 0, _, _, _ => none
  | fuel + 1, depth, fields, chars =>
    match chars with
    | '\x7d' :: rest => some (.obj (documents fields), rest)
    | chars => do
      let (path, key, rest) ← keys? maxKeyParts chars
      let rest ← skip? '=' (skipSpace rest)
      let (document, rest) ← value? fuel depth (skipSpace rest)
      let fields ← fields.define path key document
      match skipSpace rest with
      | ',' :: rest => entries? fuel depth fields (skipSpace rest)
      | '\x7d' :: rest => some (.obj (documents fields), rest)
      | _ => none

end

/-- The document from a line on, under the header that was read last. -/
def lines? : (fuel : Nat) → (header : List String) → Fields → List Char → Option Fields
  | 0, _, _, _ => none
  | fuel + 1, header, fields, chars =>
    match skipSpace chars with
    | [] => some fields
    | '[' :: '[' :: rest => do
      let (path, key, rest) ← keys? maxKeyParts (skipBlanks rest)
      let rest ← skip? ']' (← skip? ']' (skipBlanks rest))
      lines? fuel (path ++ [key]) (← fields.openItem path key) (← nextLine? rest)
    | '[' :: rest => do
      let (path, key, rest) ← keys? maxKeyParts (skipBlanks rest)
      let rest ← skip? ']' (skipBlanks rest)
      lines? fuel (path ++ [key]) (← fields.openTable path key) (← nextLine? rest)
    | chars => do
      let (path, key, rest) ← keys? maxKeyParts chars
      let rest ← skip? '=' (skipBlanks rest)
      let (document, rest) ← value? (2 * rest.length + 2) maxDepth (skipBlanks rest)
      let fields ← fields.defineUnder header path key document
      lines? fuel header fields (← nextLine? rest)

/-- The document that the text holds; a byte order mark at its beginning is skipped. -/
def read? (text : String) : Option Document :=
  let chars :=
    match text.toList with
    | '\ufeff' :: rest => rest
    | chars => chars
  (lines? (chars.length + 1) [] [] chars).map fun fields => .obj (documents fields)

end FormulaKeys.Document.Toml
