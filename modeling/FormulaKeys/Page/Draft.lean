import FormulaKeys.Mapping
import FormulaKeys.Script.Options

/-!
Drafts: mappings and options as a web page hands them over, with any property left out. A draft
becomes a mapping if its kind, its key and its navigation keys can be understood; whether the
mapping fits into a registry is not asked here.
-/

set_option autoImplicit false

namespace FormulaKeys.Page

structure MappingDraft where
  id : Option String := none
  name : Option String := none
  trigger : Option String := none
  kind : Option String := none
  key : Option String := none
  ctrl : Option Bool := none
  shift : Option Bool := none
  alt : Option Bool := none
  text : Option String := none
  delay : Option Millis := none
  advanceKey : Option String := none
  exitKey : Option String := none
  deriving DecidableEq, Repr

structure OptionsDraft where
  defaultDelay : Option Millis := none
  focusWait : Option Millis := none
  keyHold : Option Millis := none
  navDelay : Option Millis := none
  hotkey : Option String := none
  keyDelay : Option Millis := none
  navPause : Option Millis := none
  deriving DecidableEq, Repr

/-- What keeps a draft from becoming a mapping. -/
inductive DraftFault where
  | invalidKind
  | missingKey
  | keyLength
  | invalidNavKey (property name : String)
  deriving DecidableEq, Repr

def DraftFault.message : DraftFault → String
  | invalidKind => "Invalid value for kind, expected \"shortcut\" or \"sequence\""
  | missingKey => "A shortcut needs a key"
  | keyLength => "The key must be a single character"
  | invalidNavKey property name =>
    "Invalid value for " ++ property ++ ": \"" ++ name ++ "\""

namespace MappingDraft

def key? (draft : MappingDraft) : Except DraftFault Char :=
  match draft.key with
  | none => .error .missingKey
  | some key =>
    match key.toList with
    | [c] => .ok c
    | _ => .error .keyLength

def effect? (draft : MappingDraft) : Except DraftFault Effect :=
  match draft.kind with
  | some "shortcut" =>
    match draft.key? with
    | .ok key =>
      .ok (.shortcut
        ⟨key, draft.ctrl.getD false, draft.shift.getD false, draft.alt.getD false⟩)
    | .error fault => .error fault
  | some "sequence" => .ok (.sequence (draft.text.getD ""))
  | _ => .error .invalidKind

def navKey? (property : String) : Option String → Except DraftFault (Option NavKey)
  | none => .ok none
  | some name =>
    match NavKey.ofName? name with
    | some key => .ok (some key)
    | none => .error (.invalidNavKey property name)

/-- The mapping of the draft; texts that were left out are empty. -/
def mapping? (draft : MappingDraft) : Except DraftFault Mapping := do
  let effect ← draft.effect?
  let advanceKey ← navKey? "advanceKey" draft.advanceKey
  let exitKey ← navKey? "exitKey" draft.exitKey
  return {
    id := draft.id.getD ""
    name := draft.name.getD ""
    trigger := draft.trigger.getD ""
    effect
    delay := draft.delay
    advanceKey
    exitKey }

end MappingDraft

/-- Options that were left out take their defaults. -/
def OptionsDraft.options (draft : OptionsDraft) : Script.Options :=
  let standard : Script.Options := {}
  { defaultDelay := draft.defaultDelay.getD standard.defaultDelay
    focusWait := draft.focusWait.getD standard.focusWait
    keyHold := draft.keyHold.getD standard.keyHold
    navDelay := draft.navDelay.getD standard.navDelay
    hotkey := draft.hotkey.getD standard.hotkey
    keyDelay := draft.keyDelay.getD standard.keyDelay
    navPause := draft.navPause.getD standard.navPause }

end FormulaKeys.Page
