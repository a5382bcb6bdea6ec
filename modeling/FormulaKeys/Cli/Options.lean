import FormulaKeys.Cli.Arguments

/-!
Options of the command line. The words are read from left to right, and the first one that cannot
be understood, or that asks for help or for the version, ends the reading. Which options exclude
each other is asked at the end.
-/

set_option autoImplicit false

namespace FormulaKeys.Cli

def Target.name : Target → String
  | script target => target.name
  | actions => "actions"

def Target.ofName? (name : String) : Option Target :=
  [script .browser, script .hotkey, actions].find? (·.name == name)

/-- Why words give no arguments. -/
inductive Stop where
  | help
  | version
  | usage
  deriving DecidableEq, Repr

/-- Options that take a value. -/
inductive Setting where
  | formula
  | config
  | target
  deriving DecidableEq, Repr

/-- Options that take none. -/
inductive Switch where
  | sample
  | printConfig
  | help
  | version
  deriving DecidableEq, Repr

inductive Word where
  /-- `--`, behind which every word is a plain one. -/
  | separator
  | switch (switch : Switch)
  /-- The value is in the same word, or else in the next. -/
  | setting (setting : Setting) (attached : Option String)
  | plain (text : String)
  | unknown
  deriving DecidableEq, Repr

namespace Word

/-- An option by its long name; only a setting may have a value attached. -/
def ofLong (name : String) (attached : Option String) : Word :=
  match name, attached with
  | "formula", _ => setting .formula attached
  | "config", _ => setting .config attached
  | "target", _ => setting .target attached
  | "sample", none => switch .sample
  | "print-config", none => switch .printConfig
  | "help", none => switch .help
  | "version", none => switch .version
  | _, _ => unknown

/-- What is attached to a short option; an equals sign in front of it is left out. -/
def attachedTo : List Char → Option String
  | [] => none
  | '=' :: value => some (String.ofList value)
  | value => some (String.ofList value)

def ofShort : List Char → Word
  | 'f' :: tail => setting .formula (attachedTo tail)
  | 'c' :: tail => setting .config (attachedTo tail)
  | 't' :: tail => setting .target (attachedTo tail)
  | 'h' :: _ => switch .help
  | 'V' :: _ => switch .version
  | _ => unknown

def ofString (word : String) : Word :=
  match word.toList with
  | ['-', '-'] => separator
  | '-' :: '-' :: long =>
    let name := String.ofList (long.takeWhile (· != '='))
    match long.dropWhile (· != '=') with
    | [] => ofLong name none
    | _ :: value => ofLong name (some (String.ofList value))
  | ['-'] => plain word
  | '-' :: short => ofShort short
  | _ => plain word

end Word

/-- The options that have been given so far. -/
structure Given where
  file : Option String := none
  formula : Option String := none
  config : Option String := none
  target : Option Target := none
  sample : Bool := false
  printConfig : Bool := false
  deriving DecidableEq, Repr

namespace Given

/-- No option is given twice, and paths are not empty. -/
def set (given : Given) (setting : Setting) (value : String) : Except Stop Given :=
  match setting with
  | .formula =>
    if given.formula.isSome then .error .usage else .ok { given with formula := some value }
  | .config =>
    if given.config.isSome || value.isEmpty then .error .usage
    else .ok { given with config := some value }
  | .target =>
    match Target.ofName? value with
    | some target =>
      if given.target.isSome then .error .usage else .ok { given with target := some target }
    | none => .error .usage

/-- There is one plain word at most. -/
def setFile (given : Given) (path : String) : Except Stop Given :=
  if given.file.isSome || path.isEmpty then .error .usage else .ok { given with file := some path }

def setFiles (given : Given) (paths : List String) : Except Stop Given :=
  paths.foldlM setFile given

def sources (given : Given) : Nat :=
  given.file.isSome.toNat + given.formula.isSome.toNat + given.sample.toNat

/-- The configuration is printed alone, and the markup has one source. -/
def arguments (given : Given) : Except Stop Arguments :=
  if given.printConfig then
    if given = { printConfig := true } then .ok { printConfig := true } else .error .usage
  else if given.sources ≤ 1 then
    .ok
      { file := given.file
        formula := given.formula
        sample := given.sample
        config := given.config
        target := given.target.getD (.script .browser) }
  else .error .usage

/-- Read the words behind those that gave `given`. -/
def read (given : Given) : List String → Except Stop Arguments
  | [] => given.arguments
  | word :: rest =>
    match Word.ofString word with
    | .separator => do (← given.setFiles rest).arguments
    | .plain path => do (← given.setFile path).read rest
    | .switch .sample =>
      if given.sample then .error .usage else { given with sample := true }.read rest
    | .switch .printConfig =>
      if given.printConfig then .error .usage else { given with printConfig := true }.read rest
    | .switch .help => .error .help
    | .switch .version => .error .version
    | .setting setting (some value) => do (← given.set setting value).read rest
    | .setting setting none =>
      match rest with
      | [] => .error .usage
      | value :: rest =>
        match Word.ofString value with
        | .plain value => do (← given.set setting value).read rest
        | _ => .error .usage
    | .unknown => .error .usage

end Given

def Arguments.read (words : List String) : Except Stop Arguments :=
  Given.read {} words

end FormulaKeys.Cli
