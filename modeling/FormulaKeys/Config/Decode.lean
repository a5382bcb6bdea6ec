import FormulaKeys.Config
import FormulaKeys.Document

/-!
Reading configurations from documents. Fields that are left out take their defaults, fields that a
record does not know are passed over, and a field of the wrong type makes the whole document
unreadable. The two notations differ only in which unusual spellings they admit.
-/

set_option autoImplicit false

namespace FormulaKeys.Config

open Document

def millis? : Document → Option Millis
  | .int value =>
    if 0 ≤ value ∧ value.toNat < UInt32.size then some (.ofNat value.toNat) else none
  | _ => none

/-- A text of exactly one character. -/
def char? : Document → Option Char
  | .str value =>
    match value.toList with
    | [c] => some c
    | _ => none
  | _ => none

/-- What stands for no value at all beside the name of a key. -/
def isUnit : Format → Document → Bool
  | .json, .null => true
  | .toml, .arr [] => true
  | .toml, .obj [] => true
  | _, _ => false

/-- A key by its name; the name may also be the only field of a table without a value. -/
def navKey? (format : Format) : Document → Option NavKey
  | .str name => NavKey.ofName? name
  | .obj [(name, payload)] => if isUnit format payload then NavKey.ofName? name else none
  | _ => none

/-- An optional value; null leaves it unset. -/
def unlessNull {α : Type} (read : Document → Option α) : Document → Option (Option α)
  | .null => some none
  | value => (read value).map some

/-- The fields of a record whose known fields are `names`. A list gives the values of the first of
them in order; TOML has no use for further values, and reads a date as a record of unknown
fields. -/
def fields? (format : Format) (names : List String) :
    Document → Option (List (String × Document))
  | .obj fields => some fields
  | .arr items =>
    if format = .toml ∨ items.length ≤ names.length then some (names.zip items) else none
  | .moment _ => if format = .toml then some [] else none
  | _ => none

inductive Kind where
  | shortcut
  | sequence
  deriving DecidableEq, Repr

/-- A kind by its name; JSON also admits its position. -/
def Kind.decode? : Format → Document → Option Kind
  | _, .str "shortcut" => some .shortcut
  | _, .str "sequence" => some .sequence
  | .json, .int 0 => some .shortcut
  | .json, .int 1 => some .sequence
  | _, _ => none

def chord? (fields : List (String × Document)) : Option Chord := do
  let key ← field? fields "key" char? none
  let ctrl ← field? fields "ctrl" bool? (some false)
  let shift ← field? fields "shift" bool? (some false)
  let alt ← field? fields "alt" bool? (some false)
  return { key, ctrl, shift, alt }

/-- The effect takes the fields of its own kind only. -/
def effect? (format : Format) (fields : List (String × Document)) : Option Effect := do
  match ← field? fields "kind" (Kind.decode? format) none with
  | .shortcut => return .shortcut (← chord? fields)
  | .sequence => return .sequence (← field? fields "text" str? none)

/-- A mapping. In TOML no field of it, known or not, may hold an integer of more than 64 bits. -/
def mapping? (format : Format) : Document → Option Mapping
  | .obj fields => do
    guard (format = .json ∨ fieldsHoldWords fields)
    let id ← field? fields "id" str? none
    let name ← field? fields "name" str? (some "")
    let trigger ← field? fields "trigger" str? none
    let effect ← effect? format fields
    let delay ← field? fields "delay" (unlessNull millis?) (some none)
    let advanceKey ← field? fields "advance-key" (unlessNull (navKey? format)) (some none)
    let exitKey ← field? fields "exit-key" (unlessNull (navKey? format)) (some none)
    return { id, name, trigger, effect, delay, advanceKey, exitKey }
  | _ => none

def mappings? (format : Format) : Document → Option (List Mapping)
  | .arr items => items.mapM (mapping? format)
  | _ => none

def optionNames : List String :=
  ["default-delay-ms", "focus-wait-ms", "key-hold-ms", "nav-delay-ms", "hotkey", "key-delay-ms",
    "nav-pause-ms"]

def options? (format : Format) (document : Document) : Option Script.Options := do
  let standard : Script.Options := {}
  let fields ← fields? format optionNames document
  let defaultDelay ← field? fields "default-delay-ms" millis? (some standard.defaultDelay)
  let focusWait ← field? fields "focus-wait-ms" millis? (some standard.focusWait)
  let keyHold ← field? fields "key-hold-ms" millis? (some standard.keyHold)
  let navDelay ← field? fields "nav-delay-ms" millis? (some standard.navDelay)
  let hotkey ← field? fields "hotkey" str? (some standard.hotkey)
  let keyDelay ← field? fields "key-delay-ms" millis? (some standard.keyDelay)
  let navPause ← field? fields "nav-pause-ms" millis? (some standard.navPause)
  return { defaultDelay, focusWait, keyHold, navDelay, hotkey, keyDelay, navPause }

def decode? (format : Format) (document : Document) : Option Config := do
  let fields ← fields? format ["mappings", "script"] document
  let mappings ← field? fields "mappings" (mappings? format) (some Mapping.starter)
  let script ← field? fields "script" (options? format) (some {})
  return { mappings, script }

end FormulaKeys.Config
