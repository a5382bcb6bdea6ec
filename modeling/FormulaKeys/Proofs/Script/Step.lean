import FormulaKeys.Script.Step
import Mathlib.Data.List.Forall2

/-! Looking up the commands of a list of actions: one step to an action, in their order. -/

set_option autoImplicit false

namespace FormulaKeys.Script.Step

variable {registry : Registry}

theorem ofActions_eq_ok_iff {actions : List Action} {steps : List Step} :
    ofActions registry actions = .ok steps ↔
      List.Forall₂ (fun action step => ofAction registry action = .ok step) actions steps := by
  induction actions generalizing steps with
  | nil =>
    rw [ofActions, List.forall₂_nil_left_iff]
    constructor
    · intro same
      cases same
      rfl
    · rintro rfl
      rfl
  | cons action rest ih =>
    rw [ofActions, List.forall₂_cons_left_iff]
    constructor
    · intro known
      split at known
      next => cases known
      next step first =>
        split at known
        next => cases known
        next others more =>
          cases known
          exact ⟨step, others, first, ih.mp more, rfl⟩
    · rintro ⟨step, others, first, more, rfl⟩
      simp only [first, ih.mpr more]

theorem exists_ofAction (action : Action)
    (resolved : ∀ id, action = .command id → (registry.byId? id).isSome) :
    ∃ step, ofAction registry action = .ok step := by
  cases action with
  | text content => exact ⟨.text content, rfl⟩
  | command id =>
    obtain ⟨mapping, found⟩ := Option.isSome_iff_exists.mp (resolved id rfl)
    refine ⟨.fire mapping, ?_⟩
    rw [ofAction, found]
  | nav key => exact ⟨.nav key, rfl⟩

theorem exists_ofActions {actions : List Action}
    (resolved : ∀ id, Action.command id ∈ actions → (registry.byId? id).isSome) :
    ∃ steps, ofActions registry actions = .ok steps := by
  induction actions with
  | nil => exact ⟨[], rfl⟩
  | cons action rest ih =>
    obtain ⟨step, first⟩ := exists_ofAction action fun id same =>
      resolved id (same ▸ List.mem_cons_self)
    obtain ⟨steps, more⟩ := ih fun id known => resolved id (List.mem_cons_of_mem action known)
    refine ⟨step :: steps, ?_⟩
    rw [ofActions, first, more]

/-- The step of an action stands where the action does. -/
theorem getElem?_ofActions {actions : List Action} {steps : List Step} {index : Nat}
    {action : Action} (known : ofActions registry actions = .ok steps)
    (stands : actions[index]? = some action) :
    ∃ step, steps[index]? = some step ∧ ofAction registry action = .ok step := by
  have each := ofActions_eq_ok_iff.mp known
  obtain ⟨inside, same⟩ := List.getElem?_eq_some_iff.mp stands
  have insideSteps : index < steps.length := each.length_eq ▸ inside
  refine ⟨steps[index], List.getElem?_eq_getElem insideSteps, ?_⟩
  rw [← same]
  exact each.get inside insideSteps

end FormulaKeys.Script.Step
