import FormulaKeys.Config
import FormulaKeys.Document

/-!
Writing configurations as documents. Every field is written but the optional ones of a mapping,
which are left out where they are unset.
-/

set_option autoImplicit false

namespace FormulaKeys.Config

def encodeMillis (time : Millis) : Document := .int time.toNat

def encodeKey (key : NavKey) : Document := .str key.name

def encodeEffect : Effect → List (String × Document)
  | .shortcut chord =>
    [("kind", .str "shortcut"), ("key", .str (String.singleton chord.key)),
      ("ctrl", .bool chord.ctrl), ("shift", .bool chord.shift), ("alt", .bool chord.alt)]
  | .sequence text => [("kind", .str "sequence"), ("text", .str text)]

def encodeOptional {α : Type} (name : String) (write : α → Document) :
    Option α → List (String × Document)
  | some value => [(name, write value)]
  | none => []

def mappingFields (mapping : Mapping) : List (String × Document) :=
  [("id", .str mapping.id), ("name", .str mapping.name), ("trigger", .str mapping.trigger)] ++
    encodeEffect mapping.effect ++ encodeOptional "delay" encodeMillis mapping.delay ++
    encodeOptional "advance-key" encodeKey mapping.advanceKey ++
    encodeOptional "exit-key" encodeKey mapping.exitKey

def encodeMapping (mapping : Mapping) : Document := .obj (mappingFields mapping)

def optionFields (options : Script.Options) : List (String × Document) :=
  [("default-delay-ms", encodeMillis options.defaultDelay),
    ("focus-wait-ms", encodeMillis options.focusWait),
    ("key-hold-ms", encodeMillis options.keyHold),
    ("nav-delay-ms", encodeMillis options.navDelay),
    ("hotkey", .str options.hotkey),
    ("key-delay-ms", encodeMillis options.keyDelay),
    ("nav-pause-ms", encodeMillis options.navPause)]

def encodeOptions (options : Script.Options) : Document := .obj (optionFields options)

def encode (config : Config) : Document :=
  .obj [("mappings", .arr (config.mappings.map encodeMapping)),
    ("script", encodeOptions config.script)]

end FormulaKeys.Config
