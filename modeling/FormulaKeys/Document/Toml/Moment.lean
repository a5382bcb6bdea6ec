/-!
Dates and times in TOML: a date, a time, or both, and then perhaps an offset from universal time.
-/

set_option autoImplicit false

namespace FormulaKeys.Document.Toml

def pair? : List Char → Option (Nat × List Char)
  | a :: b :: rest =>
    if a.isDigit && b.isDigit then
      some (10 * (a.toNat - '0'.toNat) + (b.toNat - '0'.toNat), rest)
    else none
  | _ => none

def skip? (mark : Char) : List Char → Option (List Char)
  | c :: rest => if c == mark then some rest else none
  | [] => none

def isLeapYear (year : Nat) : Bool :=
  year % 4 == 0 && year % 100 != 0 || year % 400 == 0

def daysOfMonth (year month : Nat) : Nat :=
  if month == 2 then (if isLeapYear year then 29 else 28)
  else if [4, 6, 9, 11].contains month then 30
  else 31

/-- What comes behind the date that the characters begin with. -/
def date? (chars : List Char) : Option (List Char) := do
  let (century, rest) ← pair? chars
  let (yearOfCentury, rest) ← pair? rest
  let (month, rest) ← pair? (← skip? '-' rest)
  let (day, rest) ← pair? (← skip? '-' rest)
  let year := 100 * century + yearOfCentury
  if 1 ≤ month ∧ month ≤ 12 ∧ 1 ≤ day ∧ day ≤ daysOfMonth year month then return rest else none

def hourMinute? (chars : List Char) : Option (List Char) := do
  let (hour, rest) ← pair? chars
  let (minute, rest) ← pair? (← skip? ':' rest)
  if hour ≤ 23 ∧ minute ≤ 59 then return rest else none

/-- What comes behind the time; its seconds may be left out, and may be those of a leap second. -/
def time? (chars : List Char) : Option (List Char) := do
  let rest ← hourMinute? chars
  match rest with
  | ':' :: rest =>
    let (second, rest) ← pair? rest
    if 60 < second then none
    else
      match rest with
      | '.' :: rest =>
        if (rest.takeWhile Char.isDigit).isEmpty then none else return rest.dropWhile Char.isDigit
      | rest => return rest
  | rest => return rest

/-- Whether the characters, which come behind a date and a time, are an offset or nothing. -/
def isOffset : List Char → Bool
  | [] => true
  | ['Z'] => true
  | ['z'] => true
  | '+' :: rest => hourMinute? rest == some []
  | '-' :: rest => hourMinute? rest == some []
  | _ => false

def isMoment (chars : List Char) : Bool :=
  match date? chars with
  | some [] => true
  | some (mark :: rest) =>
    ['T', 't', ' '].contains mark && (time? rest).any isOffset
  | none => time? chars == some []

end FormulaKeys.Document.Toml
