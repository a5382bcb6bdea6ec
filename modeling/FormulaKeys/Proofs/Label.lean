import FormulaKeys.Proofs.Converter
import FormulaKeys.Proofs.Markup.Binding
import Mathlib.Data.List.Nodup

/-! Labels: what mappings are called, and the order in which they are listed.

Actions name mappings by their ids, and scripts are written from the mappings themselves. So a new
choice of ids reappears in the actions, and nothing of it in the scripts.
-/

set_option autoImplicit false

namespace FormulaKeys

/-- The same mapping under another id and another name. -/
def Mapping.relabel (newId : String → String) (newName : Mapping → String) (mapping : Mapping) :
    Mapping :=
  { mapping with id := newId mapping.id, name := newName mapping }

variable {newId : String → String} {newName : Mapping → String}

namespace Registry

theorem exists_relabelled {registry : Registry} {others : List Mapping}
    (nonempty : ∀ mapping ∈ registry.mappings, newId mapping.id ≠ "")
    (injective : ∀ one ∈ registry.mappings, ∀ other ∈ registry.mappings,
      newId one.id = newId other.id → one.id = other.id)
    (relabelled : others.Perm (registry.mappings.map (Mapping.relabel newId newName))) :
    ∃ changed, ofList others = .ok changed ∧ changed.mappings = others := by
  apply exists_ofList
  · intro mapping mem
    obtain ⟨old, known, rfl⟩ := List.mem_map.mp (relabelled.mem_iff.mp mem)
    exact nonempty old known
  · intro mapping mem
    obtain ⟨old, known, rfl⟩ := List.mem_map.mp (relabelled.mem_iff.mp mem)
    exact registry.isTrigger old known
  · rw [(relabelled.map Mapping.id).nodup_iff, List.map_map]
    have renamed : Mapping.id ∘ Mapping.relabel newId newName = newId ∘ Mapping.id := rfl
    rw [renamed, ← List.map_map]
    apply List.Nodup.map_on _ registry.ids_nodup
    simpa only [List.forall_mem_map] using injective
  · rw [(relabelled.map Mapping.trigger).nodup_iff, List.map_map]
    exact registry.triggers_nodup

end Registry

namespace Script

/-- The step as it is taken under the new labels. -/
def Step.relabel (newId : String → String) (newName : Mapping → String) : Step → Step
  | .text content => .text content
  | .fire mapping => .fire (mapping.relabel newId newName)
  | .nav key => .nav key

theorem Step.ofAction_relabel {registry changed : Registry}
    (relabelled : changed.mappings.Perm (registry.mappings.map (Mapping.relabel newId newName)))
    {action : Action} {step : Step} (known : ofAction registry action = .ok step) :
    ofAction changed (action.rename newId) = .ok (step.relabel newId newName) := by
  cases action with
  | text | nav =>
    cases known
    rfl
  | command id =>
    rw [ofAction] at known
    split at known
    next mapping found =>
      cases known
      rw [Action.rename, ofAction, Registry.byId?_of_perm (fun _ => rfl) relabelled found]
      rfl
    next => cases known

theorem Step.ofActions_relabel {registry changed : Registry}
    (relabelled : changed.mappings.Perm (registry.mappings.map (Mapping.relabel newId newName)))
    {actions : List Action} {steps : List Step} (known : ofActions registry actions = .ok steps) :
    ofActions changed (actions.map (Action.rename newId)) =
      .ok (steps.map (Step.relabel newId newName)) := by
  rw [ofActions_eq_ok_iff, List.forall₂_map_left_iff, List.forall₂_map_right_iff]
  exact (ofActions_eq_ok_iff.mp known).imp fun _ _ => ofAction_relabel relabelled

/-- Neither script holds a label. -/
theorem ofSteps_relabel (target : Target) (options : Options) (steps : List Step) :
    ofSteps target options (steps.map (Step.relabel newId newName)) =
      ofSteps target options steps := by
  cases target with
  | browser =>
    have same (step : Step) :
        Browser.statement options (step.relabel newId newName) =
          Browser.statement options step := by
      cases step <;> rfl
    simp only [ofSteps, Browser.script, List.map_map, Function.comp_def, same]
  | hotkey =>
    have same (step : Step) :
        Hotkey.group options (step.relabel newId newName) = Hotkey.group options step := by
      cases step <;> rfl
    simp only [ofSteps, Hotkey.script, List.flatMap_map, same]

end Script

namespace Converter

/-- The labels of an accepted table can be chosen anew, and its mappings put in another order. The
actions then name the mappings by the new ids, and all scripts stay as they are. -/
theorem convert_relabelled {mappings others : List Mapping} {registry : Registry}
    (accepted : Registry.ofList mappings = .ok registry)
    (nonempty : ∀ mapping ∈ mappings, newId mapping.id ≠ "")
    (injective : ∀ one ∈ mappings, ∀ other ∈ mappings,
      newId one.id = newId other.id → one.id = other.id)
    (relabelled : others.Perm (mappings.map (Mapping.relabel newId newName))) :
    ∃ changed, Registry.ofList others = .ok changed ∧
      ∀ markup,
        Markup.parse changed markup =
          (Markup.parse registry markup).map (Action.rename newId) ∧
        ∀ options target, ∃ script,
          convert ⟨registry, options⟩ target markup = .ok script ∧
          convert ⟨changed, options⟩ target markup = .ok script := by
  obtain rfl := Registry.ofList_eq_ok_iff.mp accepted
  obtain ⟨changed, made, same⟩ := Registry.exists_relabelled nonempty injective relabelled
  rw [← same] at relabelled
  refine ⟨changed, made, fun markup => ?_⟩
  have actions : Markup.parse changed markup =
      (Markup.parse registry markup).map (Action.rename newId) := by
    apply Markup.parse_renamed
    intro trigger _
    apply Registry.BindAlike.of_perm _ _ relabelled
    · intro mapping
      rfl
    · intro mapping
      exact ⟨rfl, rfl, rfl⟩
  refine ⟨actions, fun options target => ?_⟩
  obtain ⟨steps, known⟩ : ∃ steps,
      Script.Step.ofActions registry (Markup.parse registry markup) = .ok steps :=
    exists_ofActions_parse ⟨registry, options⟩ markup
  refine ⟨Script.ofSteps target options steps, ?_, ?_⟩
  · rw [convert, generate, parse, Script.generate, known]
    rfl
  · rw [convert, generate, parse, actions, Script.generate,
      Script.Step.ofActions_relabel relabelled known, ← Script.ofSteps_relabel]
    rfl

/-- Two mappings exchange their ids. -/
def exchange (id : String) : String :=
  if id = "fraction" then "sqrt" else if id = "sqrt" then "fraction" else id

theorem convert_relabelled_exchange :
    ∃ changed,
      Registry.ofList (Mapping.starter.map (Mapping.relabel exchange Mapping.trigger)).reverse =
        .ok changed ∧
      ∀ markup,
        Markup.parse changed markup =
          (Markup.parse Registry.starter markup).map (Action.rename exchange) ∧
        ∀ options target, ∃ script,
          convert ⟨Registry.starter, options⟩ target markup = .ok script ∧
          convert ⟨changed, options⟩ target markup = .ok script := by
  apply convert_relabelled (Registry.ofList_mappings Registry.starter)
  · decide
  · decide
  · exact List.reverse_perm _

end Converter

end FormulaKeys
