import FormulaKeys.Config
import FormulaKeys.Text.Lines

/-!
Writing configurations as TOML: a table for every mapping and one for the options.
-/

set_option autoImplicit false

namespace FormulaKeys.Config

def isControl (c : Char) : Bool := c.toNat < 0x20 || c.toNat == 0x7f

/-- A control character as four hexadecimal digits, a quote and a backslash behind a backslash. -/
def escapeChar (c : Char) : List Char :=
  if c == '"' || c == '\\' then ['\\', c]
  else if isControl c then
    let digits := Nat.toDigits 16 c.toNat
    '\\' :: 'u' :: List.replicate (4 - digits.length) '0' ++ digits
  else [c]

/-- A string in double quotes, in single ones where that saves escapes. -/
def quote (text : String) : String :=
  let special := fun c => c == '"' || c == '\\'
  let chars := text.toList
  if chars.any special && !chars.any fun c => c == '\'' || isControl c then "'" ++ text ++ "'"
  else "\"" ++ String.ofList (chars.flatMap escapeChar) ++ "\""

def printText (name text : String) : String := name ++ " = " ++ quote text

def printFlag (name : String) (flag : Bool) : String :=
  name ++ (if flag then " = true" else " = false")

def printMillis (name : String) (time : Millis) : String := name ++ " = " ++ time.decimal

def printEffect : Effect → List String
  | .shortcut chord =>
    [printText "kind" "shortcut", printText "key" (String.singleton chord.key),
      printFlag "ctrl" chord.ctrl, printFlag "shift" chord.shift, printFlag "alt" chord.alt]
  | .sequence text => [printText "kind" "sequence", printText "text" text]

def printMapping (mapping : Mapping) : List String :=
  ["[[mappings]]", printText "id" mapping.id, printText "name" mapping.name,
      printText "trigger" mapping.trigger] ++
    printEffect mapping.effect ++
    (mapping.delay.map (printMillis "delay")).toList ++
    (mapping.advanceKey.map fun key => printText "advance-key" key.name).toList ++
    (mapping.exitKey.map fun key => printText "exit-key" key.name).toList ++
    [""]

def printOptions (options : Script.Options) : List String :=
  ["[script]",
    printMillis "default-delay-ms" options.defaultDelay,
    printMillis "focus-wait-ms" options.focusWait,
    printMillis "key-hold-ms" options.keyHold,
    printMillis "nav-delay-ms" options.navDelay,
    printText "hotkey" options.hotkey,
    printMillis "key-delay-ms" options.keyDelay,
    printMillis "nav-pause-ms" options.navPause]

/-- Without mappings the empty list is written out, since to leave it out means the default. -/
def print (config : Config) : String :=
  let mappings :=
    if config.mappings.isEmpty then ["mappings = []", ""]
    else config.mappings.flatMap printMapping
  Text.unlines (mappings ++ printOptions config.script)

end FormulaKeys.Config
