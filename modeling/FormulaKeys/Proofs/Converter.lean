import FormulaKeys.Converter
import FormulaKeys.Proofs.Markup.Lookup
import FormulaKeys.Proofs.Script.Fire

/-! Conversion cannot fail.

A converter generates from the actions that it has read itself, so every command that
is looked up by its id is one that was found by its trigger. Ids and triggers lead to the
same mapping, and this mapping is the one that fires in the script.
-/

set_option autoImplicit false

namespace FormulaKeys

namespace Script.Step

variable {registry : Registry}

theorem map_byId?_ids {actions : List Action} {steps : List Step}
    (each : List.Forall₂ (fun action step => ofAction registry action = .ok step) actions steps) :
    (Action.ids actions).map registry.byId? = (fired steps).map some := by
  induction each with
  | nil => rfl
  | @cons action step actions steps known _ ih =>
    cases action with
    | text | nav =>
      cases known
      exact ih
    | command id =>
      rw [ofAction] at known
      split at known
      next mapping resolved =>
        cases known
        exact congrArg₂ List.cons resolved ih
      next => cases known

/-- A mapping is found again by its id, so what is looked up in a list of commands is known from
the mappings that the commands were made of. -/
theorem fired_eq {actions : List Action} {steps : List Step} {mappings : List Mapping}
    (each : List.Forall₂ (fun action step => ofAction registry action = .ok step) actions steps)
    (ids : Action.ids actions = mappings.map Mapping.id)
    (known : ∀ mapping ∈ mappings, mapping ∈ registry.mappings) : fired steps = mappings := by
  have resolved : (mappings.map Mapping.id).map registry.byId? = mappings.map some := by
    rw [List.map_map]
    apply List.map_congr_left
    intro mapping mem
    exact Registry.byId?_eq_some_iff.mpr ⟨known mapping mem, rfl⟩
  have same : (fired steps).map some = mappings.map some := by
    rw [← map_byId?_ids each, ids, resolved]
  exact List.map_injective_iff.mpr (fun _ _ => Option.some.inj) same

end Script.Step

namespace Markup

variable {registry : Registry}

/-- The triggers of mappings that scanning the markup meets, from left to right. -/
def triggers (registry : Registry) (markup : String) : List String :=
  (lookups registry markup 0 markup.utf8ByteSize).filter
    (registry.mappings.map Mapping.trigger).contains

theorem forall₂_byTrigger? (registry : Registry) (texts : List String) :
    List.Forall₂ (fun mapping trigger => mapping ∈ registry.mappings ∧ mapping.trigger = trigger)
      (texts.filterMap registry.byTrigger?)
      (texts.filter (registry.mappings.map Mapping.trigger).contains) := by
  induction texts with
  | nil => exact .nil
  | cons text texts ih =>
    cases bound : registry.byTrigger? text with
    | none =>
      have missing := Registry.byTrigger?_eq_none_iff.mp bound
      rw [List.filterMap_cons_none bound, List.filter_cons_of_neg (by simpa using missing)]
      exact ih
    | some mapping =>
      have known := Registry.byTrigger?_eq_some_iff.mp bound
      have present : text ∈ registry.mappings.map Mapping.trigger :=
        known.2 ▸ List.mem_map_of_mem known.1
      rw [List.filterMap_cons_some bound, List.filter_cons_of_pos (by simpa using present)]
      exact .cons known ih

end Markup

namespace Converter

theorem of_ofConfig {config : Config} {converter : Converter}
    (accepted : ofConfig config = .ok converter) :
    converter.registry.mappings = config.mappings ∧ converter.options = config.script := by
  unfold ofConfig at accepted
  split at accepted
  next registry made =>
    cases accepted
    exact ⟨Registry.ofList_eq_ok_iff.mp made, rfl⟩
  next => cases accepted

theorem exists_ofActions_parse (converter : Converter) (markup : String) :
    ∃ steps, Script.Step.ofActions converter.registry (converter.parse markup) = .ok steps :=
  Script.Step.exists_ofActions fun _ => Markup.isSome_byId?_of_mem_parse

theorem exists_convert (converter : Converter) (target : Script.Target) (markup : String) :
    ∃ script, converter.convert target markup = .ok script := by
  obtain ⟨steps, known⟩ := converter.exists_ofActions_parse markup
  refine ⟨Script.ofSteps target converter.options steps, ?_⟩
  rw [convert, generate, Script.generate, known]
  rfl

/-- Markup is always converted. The commands that it is read as lead by their ids to the mappings
whose triggers were met, one for one, and these are the mappings that fire in the script. -/
theorem convert_fires_triggers {config : Config} {converter : Converter}
    (accepted : ofConfig config = .ok converter) (target : Script.Target) (markup : String) :
    ∃ script mappings,
      converter.convert target markup = .ok script ∧
      (Action.ids (converter.parse markup)).map converter.registry.byId? = mappings.map some ∧
      List.Forall₂ (fun mapping trigger => mapping ∈ config.mappings ∧ mapping.trigger = trigger)
        mappings (Markup.triggers converter.registry markup) ∧
      Script.Fires config.script converter.registry (converter.parse markup) mappings target
        script := by
  obtain ⟨mappings, options⟩ := of_ofConfig accepted
  have met := Markup.forall₂_byTrigger? converter.registry
    (Markup.lookups converter.registry markup 0 markup.utf8ByteSize)
  have ids := Markup.ids_parse converter.registry markup
  obtain ⟨steps, generated⟩ := converter.exists_ofActions_parse markup
  have each := Script.Step.ofActions_eq_ok_iff.mp generated
  have known : Script.Step.fired steps =
      Markup.matched converter.registry markup 0 markup.utf8ByteSize :=
    Script.Step.fired_eq each ids fun _ => Markup.mem_mappings_of_matched
  refine ⟨Script.ofSteps target config.script steps, Script.Step.fired steps, ?_, ?_, ?_, ?_⟩
  · rw [convert, generate, Script.generate, generated, options]
    rfl
  · exact Script.Step.map_byId?_ids each
  · rw [← mappings, known]
    exact met
  · exact Script.fires_ofSteps target config.script each

/-- A group that is not closed and a marker without an argument do not stand in the way. -/
theorem convert_fires_triggers_standard :
    Converter.ofConfig {} = .ok standard ∧
      ∃ script mappings,
        standard.convert .hotkey "\\frac\x7ba^2 _" = .ok script ∧
        (Action.ids (standard.parse "\\frac\x7ba^2 _")).map standard.registry.byId? =
          mappings.map some ∧
        List.Forall₂ (fun mapping trigger =>
            mapping ∈ ({} : Config).mappings ∧ mapping.trigger = trigger)
          mappings (Markup.triggers standard.registry "\\frac\x7ba^2 _") ∧
        Script.Fires ({} : Config).script standard.registry (standard.parse "\\frac\x7ba^2 _")
          mappings .hotkey script :=
  ⟨ofConfig_default, convert_fires_triggers ofConfig_default .hotkey "\\frac\x7ba^2 _"⟩

end Converter

end FormulaKeys
