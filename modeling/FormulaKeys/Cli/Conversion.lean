import FormulaKeys.Action.Listing
import FormulaKeys.Cli.Arguments
import FormulaKeys.Cli.Files
import FormulaKeys.Cli.Toml
import FormulaKeys.Converter

/-!
What the command line does with its arguments. It reads two files at most: first the configuration,
which has to be accepted before the markup is looked at, and then the markup. It prints the whole
result or nothing.
-/

set_option autoImplicit false

namespace FormulaKeys.Cli

/-- What is read from; reading happens in `m`. -/
structure World (m : Type → Type) where
  file : String → m (Except FileError ByteArray)
  stdin : m (Except FileError ByteArray)

inductive Failure where
  | configUnreadable (path : String) (error : FileError)
  | configMalformed (path text : String) (error : TomlError)
  /-- The default configuration is in no file. -/
  | configRefused (path : Option String) (error : Registry.Error)
  | configUnwritable (reason : String)
  | markupUnreadable (error : FileError)
  | generation (error : Script.UnknownMapping)
  deriving DecidableEq, Repr

namespace Failure

def code : Failure → Nat
  | markupUnreadable _ => 1
  | configUnreadable _ _ | configMalformed _ _ _ | configRefused _ _ | configUnwritable _
  | generation _ => 2

def inFile : Option String → String
  | none => ""
  | some path => " in '" ++ path ++ "'"

def config (path : Option String) (reason : String) : String :=
  "Configuration error" ++ inFile path ++ ": " ++ reason ++ "\n"

/-- A report, where the error says at which bytes it is. -/
def malformed (toml : Toml) (path text : String) (error : TomlError) : String :=
  (error.span.bind fun span => toml.report path text span error.message).getD
    (config (some path) ("TOML parsing error: " ++ error.text))

/-- What is written to the standard error. -/
def stderr (toml : Toml) : Failure → String
  | configUnreadable path error => config (some path) ("I/O error: " ++ error.message)
  | configMalformed path text error => malformed toml path text error
  | configRefused path error => config path error.message
  | configUnwritable reason => config none reason
  | markupUnreadable error => "IO Error: " ++ error.message ++ "\n"
  | generation error => "Generation error: " ++ error.message ++ "\n"

end Failure

/-- How the program ends. -/
structure Outcome where
  code : Nat
  stdout : String
  stderr : String
  deriving DecidableEq, Repr

namespace Outcome

def printed (text : String) : Outcome := ⟨0, text, ""⟩

def failed (toml : Toml) (failure : Failure) : Outcome := ⟨failure.code, "", failure.stderr toml⟩

def ofExcept (toml : Toml) : Except Failure String → Outcome
  | .ok text => printed text
  | .error failure => failed toml failure

end Outcome

/-- The bytes as a text. -/
def text? (bytes : Except FileError ByteArray) : Except FileError String :=
  match bytes with
  | .error error => .error error
  | .ok bytes =>
    match String.fromUTF8? bytes with
    | some text => .ok text
    | none => .error .notText

/-- The configuration in a file with this content. -/
def configOfBytes (toml : Toml) (path : String) (bytes : Except FileError ByteArray) :
    Except Failure Config :=
  ((text? bytes).mapError (.configUnreadable path)).bind fun text =>
    (toml.read text).mapError (.configMalformed path text)

/-- The markup of a file or of the standard input. -/
def markupOfBytes (bytes : Except FileError ByteArray) : Except Failure String :=
  (text? bytes).mapError .markupUnreadable

/-- Paths are compared name by name, so `-` may have slashes and single dots behind it. -/
def isStdin (path : String) : Bool :=
  match Files.names path with
  | first :: rest => first == "-" && rest.all fun name => name == "" || name == "."
  | [] => false

def output (converter : Converter) (target : Target) (markup : String) : Except Failure String :=
  match target with
  | .actions => .ok (Action.listing (converter.parse markup))
  | .script target => (converter.convert target markup).mapError .generation

variable {m : Type → Type} [Monad m]

def config (toml : Toml) (world : World m) : Option String → m (Except Failure Config)
  | none => return .ok {}
  | some path => return configOfBytes toml path (← world.file path)

def converter (toml : Toml) (world : World m) (path : Option String) :
    m (Except Failure Converter) :=
  return (← config toml world path).bind fun config =>
    (Converter.ofConfig config).mapError (.configRefused path)

/-- The markup of the first source that is given, which is the standard input if none is. -/
def markup (world : World m) (arguments : Arguments) : m (Except Failure String) := do
  match arguments.file, arguments.formula, arguments.sample with
  | some path, _, _ =>
    return markupOfBytes (← if isStdin path then world.stdin else world.file path)
  | none, some formula, _ => return .ok formula
  | none, none, true => return .ok sampleMarkup
  | none, none, false => return markupOfBytes (← world.stdin)

def convert (toml : Toml) (world : World m) (arguments : Arguments) :
    m (Except Failure String) := do
  match ← converter toml world arguments.config with
  | .error failure => return .error failure
  | .ok converter =>
    match ← markup world arguments with
    | .error failure => return .error failure
    | .ok markup => return output converter arguments.target markup

def result (toml : Toml) (world : World m) (arguments : Arguments) : m (Except Failure String) :=
  if arguments.printConfig then return (toml.write {}).mapError .configUnwritable
  else convert toml world arguments

def outcome (toml : Toml) (world : World m) (arguments : Arguments) : m Outcome :=
  return .ofExcept toml (← result toml world arguments)

end FormulaKeys.Cli
