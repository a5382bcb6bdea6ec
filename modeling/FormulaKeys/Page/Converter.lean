import FormulaKeys.Converter
import FormulaKeys.Page.Draft

/-!
Converters for a web page, built from drafts. All drafts are turned into mappings before the
registry looks at any of them. What goes wrong reaches the page as a message.
-/

set_option autoImplicit false

namespace FormulaKeys.Page

inductive Fault where
  | draft (fault : DraftFault)
  | registry (fault : Registry.Fault)
  deriving DecidableEq, Repr

def Fault.message : Fault → String
  | draft fault => fault.message
  | registry fault => fault.message

/-- A fault and the position of the mapping that has it. -/
structure Error where
  index : Nat
  fault : Fault
  deriving DecidableEq, Repr

def Error.message (error : Error) : String := error.fault.message

/-- The mappings of drafts of which the first has the position `index`. -/
def mappings? (index : Nat) : List MappingDraft → Except Error (List Mapping)
  | [] => .ok []
  | draft :: rest =>
    match draft.mapping? with
    | .error fault => .error ⟨index, .draft fault⟩
    | .ok mapping => (mappings? (index + 1) rest).map (mapping :: ·)

/-- The configuration of a page; without drafts it is the default one. -/
def config? (mappings : Option (List MappingDraft)) (options : Option OptionsDraft) :
    Except Error Config := do
  let mappings ←
    match mappings with
    | some drafts => mappings? 0 drafts
    | none => .ok Mapping.starter
  return { mappings, script := (options.getD {}).options }

def converter? (mappings : Option (List MappingDraft)) (options : Option OptionsDraft) :
    Except Error Converter :=
  match config? mappings options with
  | .error error => .error error
  | .ok config =>
    match Converter.ofConfig config with
    | .ok converter => .ok converter
    | .error error => .error ⟨error.index, .registry error.fault⟩

def script (converter : Converter) (markup : String) (target : Script.Target) :
    Except String String :=
  match converter.convert target markup with
  | .ok script => .ok script
  | .error missing => .error missing.message

def browserScript (converter : Converter) (markup : String) : Except String String :=
  script converter markup .browser

def hotkeyScript (converter : Converter) (markup : String) : Except String String :=
  script converter markup .hotkey

/-- The number of actions, modulo 2 ^ 32. -/
def actionCount (converter : Converter) (markup : String) : UInt32 :=
  .ofNat (converter.parse markup).length

end FormulaKeys.Page
