import FormulaKeys.Command.Symbol

/-!
Command classes: how a backslash command is read, decided by its name alone. The name also decides
how many arguments a mapping bound to it takes.
-/

set_option autoImplicit false

namespace FormulaKeys.Command

inductive Class where
  /-- Takes two arguments, as a fraction does. -/
  | binary
  /-- Takes one argument, as a radical does. -/
  | unary
  /-- Its argument is read in place of the command. -/
  | wrapper
  /-- A function name, typed out in letters. -/
  | function
  /-- Sizes a delimiter and leaves nothing behind. -/
  | layout
  | symbol (value : Char)
  | unknown
  deriving DecidableEq, Repr

def fractions : List String := ["frac", "dfrac", "tfrac", "cfrac"]

def radicals : List String := ["sqrt"]

def wrappers : List String := ["text", "mathrm", "mbox"]

def functions : List String :=
  ["sin", "cos", "tan", "cot", "sec", "csc", "arcsin", "arccos", "arctan", "sinh", "cosh", "tanh",
    "ln", "log", "lg", "exp", "lim", "min", "max"]

def layouts : List String := ["left", "right"]

/-- The class of the command `name`, given without its backslash. -/
def Class.ofName (name : String) : Class :=
  if name ∈ fractions then .binary
  else if name ∈ radicals then .unary
  else if name ∈ wrappers then .wrapper
  else if name ∈ functions then .function
  else if name ∈ layouts then .layout
  else
    match Symbol.ofName? name with
    | some value => .symbol value
    | none => .unknown

end FormulaKeys.Command
