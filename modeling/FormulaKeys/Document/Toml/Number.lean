/-!
Numbers in TOML. Single underscores may stand between digits, and a decimal number has no leading
zero. Integers have at most 128 bits; other numbers are those that a double can hold.
-/

set_option autoImplicit false

namespace FormulaKeys.Document.Toml

/-- The digits without the underscores, each of which stands between two digits. -/
def ungroup? (isDigit : Char → Bool) : List Char → Option (List Char)
  | [] => none
  | [c] => if isDigit c then some [c] else none
  | c :: '_' :: rest => if isDigit c then (ungroup? isDigit rest).map (c :: ·) else none
  | c :: rest => if isDigit c then (ungroup? isDigit rest).map (c :: ·) else none

def isHexDigit (c : Char) : Bool :=
  c.isDigit || 'a' ≤ c && c ≤ 'f' || 'A' ≤ c && c ≤ 'F'

def digitValue (c : Char) : Nat :=
  if c.isDigit then c.toNat - '0'.toNat
  else if c.isUpper then c.toNat - 'A'.toNat + 10
  else c.toNat - 'a'.toNat + 10

def ofDigits (base : Nat) (digits : List Char) : Nat :=
  digits.foldl (fun value c => base * value + digitValue c) 0

/-- Whether the number is negative, and what comes behind its sign. -/
def unsigned : List Char → Bool × List Char
  | '-' :: rest => (true, rest)
  | '+' :: rest => (false, rest)
  | chars => (false, chars)

/-- Decimal digits without a leading zero. -/
def decimal? (chars : List Char) : Option (List Char) := do
  match ← ungroup? Char.isDigit chars with
  | '0' :: _ :: _ => none
  | digits => return digits

def anyInteger? : List Char → Option Int
  | '0' :: 'x' :: digits => (ungroup? isHexDigit digits).map fun digits => ofDigits 16 digits
  | '0' :: 'o' :: digits =>
    (ungroup? (fun c => '0' ≤ c && c ≤ '7') digits).map fun digits => ofDigits 8 digits
  | '0' :: 'b' :: digits =>
    (ungroup? (fun c => c == '0' || c == '1') digits).map fun digits => ofDigits 2 digits
  | chars =>
    let (negative, chars) := unsigned chars
    (decimal? chars).map fun digits =>
      let value : Int := ofDigits 10 digits
      if negative then -value else value

def integer? (chars : List Char) : Option Int :=
  (anyInteger? chars).filter fun value => -(Nat.pow 2 127) ≤ value && value < Nat.pow 2 128

/-- The power of ten that is written at the end of a number. -/
def exponent? : List Char → Option Int
  | [] => some 0
  | c :: rest =>
    if c == 'e' || c == 'E' then
      let (negative, rest) := unsigned rest
      (ungroup? Char.isDigit rest).map fun digits =>
        let value : Int := ofDigits 10 digits
        if negative then -value else value
    else none

/-- Whether the digits, times a power of ten, round to a finite double: the least number that does
not is 2 ^ 1024 - 2 ^ 970, which has 309 digits. -/
def fitsDouble (digits : List Char) (power : Int) : Bool :=
  let digits := digits.dropWhile (· == '0')
  let length : Int := digits.length + power
  if digits.isEmpty || length < 309 then true
  else if 309 < length then false
  else
    ofDigits 10 digits * Nat.pow 10 power.toNat <
      (Nat.pow 2 1024 - Nat.pow 2 970) * Nat.pow 10 (-power).toNat

def isGrouped (c : Char) : Bool := c.isDigit || c == '_'

/-- Whether the text is a number with a point, an exponent or a name. -/
def isFraction (chars : List Char) : Bool :=
  let (_, chars) := unsigned chars
  if chars == ['i', 'n', 'f'] || chars == ['n', 'a', 'n'] then true
  else
    let checked : Option Bool := do
      let whole ← decimal? (chars.takeWhile isGrouped)
      match chars.dropWhile isGrouped with
      | [] => none
      | '.' :: tail =>
        let places ← ungroup? Char.isDigit (tail.takeWhile isGrouped)
        let exponent ← exponent? (tail.dropWhile isGrouped)
        return fitsDouble (whole ++ places) (exponent - places.length)
      | tail => return fitsDouble whole (← exponent? tail)
    checked.getD false

end FormulaKeys.Document.Toml
