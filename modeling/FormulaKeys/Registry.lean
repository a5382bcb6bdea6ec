import FormulaKeys.Mapping
import FormulaKeys.Registry.Index

/-!
Registries: tables of mappings with an index of their ids and one of their triggers. The indexes are
filled mapping by mapping. A mapping that is unfit, or whose id or trigger already stands somewhere,
ends this, and then there is no registry.
-/

set_option autoImplicit false

namespace FormulaKeys

/-- The text that a marker or a command name can be: `^`, `_`, or ASCII letters. -/
def IsTrigger (trigger : String) : Prop :=
  trigger = "^" ∨ trigger = "_" ∨ trigger ≠ "" ∧ ∀ c ∈ trigger.toList, c.isAlpha = true

/-- The characters of the trigger are tested, and not every character there is. -/
instance (trigger : String) : Decidable (IsTrigger trigger) :=
  haveI : Decidable (∀ c ∈ trigger.toList, c.isAlpha = true) := List.decidableBAll _ _
  inferInstanceAs (Decidable (_ ∨ _ ∨ _ ∧ _))

namespace Registry

/-- What makes a mapping unfit for a registry. -/
inductive Fault where
  | emptyId
  | emptyTrigger
  | invalidTrigger (trigger : String)
  | duplicateId (id : String)
  | duplicateTrigger (trigger : String)
  deriving DecidableEq, Repr

def Fault.message : Fault → String
  | emptyId => "Mapping id must not be empty."
  | emptyTrigger => "Mapping trigger must not be empty."
  | invalidTrigger trigger =>
    "Invalid trigger \"" ++ trigger ++
      "\": must be \"^\", \"_\" or consist of ASCII letters only."
  | duplicateId id => "Duplicate mapping id \"" ++ id ++ "\"."
  | duplicateTrigger trigger => "Duplicate trigger \"" ++ trigger ++ "\"."

/-- A fault and the position of the mapping that has it. -/
structure Error where
  index : Nat
  fault : Fault
  deriving DecidableEq, Repr

def Error.message (error : Error) : String :=
  "mapping #" ++ toString error.index ++ ": " ++ error.fault.message

/-- Where the mapping with an id stands, and where the one with a trigger. -/
structure Indexes where
  ids : Index := {}
  triggers : Index := {}
  deriving DecidableEq, Repr

namespace Indexes

/-- Enter the mapping at this position, unless it is unfit; of several faults the first of these
tests is reported. -/
def add (indexes : Indexes) (position : Nat) (mapping : Mapping) : Except Fault Indexes :=
  if mapping.id = "" then .error .emptyId
  else if mapping.trigger = "" then .error .emptyTrigger
  else if ¬IsTrigger mapping.trigger then .error (.invalidTrigger mapping.trigger)
  else
    match indexes.ids.insert mapping.id position with
    | (some _, _) => .error (.duplicateId mapping.id)
    | (none, ids) =>
      match indexes.triggers.insert mapping.trigger position with
      | (some _, _) => .error (.duplicateTrigger mapping.trigger)
      | (none, triggers) => .ok ⟨ids, triggers⟩

/-- Enter mappings of which the first has this position, until one is unfit. -/
def addAll (indexes : Indexes) (position : Nat) : List Mapping → Except Error Indexes
  | [] => .ok indexes
  | mapping :: rest =>
    match indexes.add position mapping with
    | .ok larger => larger.addAll (position + 1) rest
    | .error fault => .error ⟨position, fault⟩

end Indexes

end Registry

structure Registry where
  mappings : List Mapping
  indexes : Registry.Indexes
  /-- All mappings have been entered, and nothing else. -/
  indexed : Registry.Indexes.addAll {} 0 mappings = .ok indexes

namespace Registry

def empty : Registry := ⟨[], {}, rfl⟩

/-- The registry that holds these mappings in this order. -/
def ofList (mappings : List Mapping) : Except Error Registry :=
  match indexed : Indexes.addAll {} 0 mappings with
  | .ok indexes => .ok ⟨mappings, indexes, indexed⟩
  | .error error => .error error

/-- The mappings determine the indexes. -/
@[ext]
theorem ext {first second : Registry} (same : first.mappings = second.mappings) :
    first = second := by
  obtain ⟨mappings, indexes, indexed⟩ := first
  obtain ⟨_, others, indexed'⟩ := second
  cases same
  cases indexed.symm.trans indexed'
  rfl

theorem ofList_eq_ok_iff {mappings : List Mapping} {registry : Registry} :
    ofList mappings = .ok registry ↔ registry.mappings = mappings := by
  unfold ofList
  split
  next indexes indexed =>
    rw [Except.ok.injEq]
    exact ⟨fun same => same ▸ rfl, fun same => Registry.ext same.symm⟩
  next error refused =>
    constructor
    · intro same
      cases same
    · rintro rfl
      cases refused.symm.trans registry.indexed

theorem ofList_eq_error_iff {mappings : List Mapping} {error : Error} :
    ofList mappings = .error error ↔ Indexes.addAll {} 0 mappings = .error error := by
  unfold ofList
  split
  next indexes indexed => simp [indexed]
  next other refused => simp [refused]

/-- A registry is the one that its mappings make. -/
theorem ofList_mappings (registry : Registry) : ofList registry.mappings = .ok registry :=
  ofList_eq_ok_iff.mpr rfl

/-- The registry of the starter mappings. -/
def starter : Registry where
  mappings := Mapping.starter
  indexes := (Indexes.addAll {} 0 Mapping.starter).toOption.get (by decide)
  indexed := by rfl

def byTrigger? (registry : Registry) (trigger : String) : Option Mapping := do
  let position ← registry.indexes.triggers.get? trigger
  registry.mappings[position]?

def byId? (registry : Registry) (id : String) : Option Mapping := do
  let position ← registry.indexes.ids.get? id
  registry.mappings[position]?

def isEmpty (registry : Registry) : Bool :=
  registry.mappings.isEmpty

end Registry

end FormulaKeys
