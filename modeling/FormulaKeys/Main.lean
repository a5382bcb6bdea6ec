import FormulaKeys.Cli.Run

/-!
The program: one run of the command line against the file system.
-/

set_option autoImplicit false

namespace FormulaKeys.Cli

def fileError : IO.Error → FileError
  | .noFileOrDirectory .. => .notFound
  | .inappropriateType _ 20 _ => .notDirectory
  | .inappropriateType _ 21 _ => .isDirectory
  | .invalidArgument _ 36 _ => .nameTooLong
  | error => .other (toString error)

def reading (action : IO ByteArray) : IO (Except FileError ByteArray) := do
  try
    return .ok (← action)
  catch error =>
    return .error (fileError error)

def system : World IO where
  file path := reading (IO.FS.readBinFile path)
  stdin := reading do (← IO.getStdin).readBinToEnd

end FormulaKeys.Cli

def main (arguments : List String) : IO UInt32 := do
  let outcome ← FormulaKeys.Cli.run FormulaKeys.Cli.system arguments
  IO.print outcome.stdout
  IO.eprint outcome.stderr
  return outcome.code.toUInt32
