import FormulaKeys.Converter
import FormulaKeys.Proofs.Script.Pass

/-! Missing mappings.

Actions may come from anywhere, also from a registry that is no longer in use. There is no script
for them exactly if one of their commands is not in the registry. The first of these is told,
whatever the target and the options are.
-/

set_option autoImplicit false

namespace FormulaKeys.Script

/-- A command that is not in the registry, while all commands in front of it are. -/
def FirstMissing (registry : Registry) (actions : List Action) (id : String) : Prop :=
  ∃ before behind, actions = before ++ .command id :: behind ∧ registry.byId? id = none ∧
    ∀ other, .command other ∈ before → (registry.byId? other).isSome

variable {registry : Registry} {actions rest : List Action} {action : Action} {id : String}

theorem firstMissing_cons :
    FirstMissing registry (action :: rest) id ↔
      action = .command id ∧ registry.byId? id = none ∨
      (∀ other, action = .command other → (registry.byId? other).isSome) ∧
        FirstMissing registry rest id := by
  constructor
  · rintro ⟨before, behind, parts, missing, known⟩
    cases before with
    | nil =>
      cases parts
      exact .inl ⟨rfl, missing⟩
    | cons head before =>
      cases parts
      refine .inr ⟨fun other same => known other (same ▸ List.mem_cons_self), ?_⟩
      exact ⟨before, behind, rfl, missing,
        fun other mem => known other (List.mem_cons_of_mem _ mem)⟩
  · rintro (⟨rfl, missing⟩ | ⟨first, before, behind, rfl, missing, known⟩)
    · exact ⟨[], rest, rfl, missing, fun other mem => nomatch mem⟩
    · refine ⟨action :: before, behind, rfl, missing, fun other mem => ?_⟩
      rcases List.mem_cons.mp mem with same | mem
      · exact first other same.symm
      · exact known other mem

theorem exists_firstMissing (mem : .command id ∈ actions) (missing : registry.byId? id = none) :
    ∃ first, FirstMissing registry actions first := by
  induction actions with
  | nil => cases mem
  | cons action rest ih =>
    by_cases known : ∀ other, action = .command other → (registry.byId? other).isSome
    · have behind : .command id ∈ rest := by
        refine (List.mem_cons.mp mem).resolve_left fun same => ?_
        have found := known id same.symm
        rw [missing] at found
        cases found
      obtain ⟨first, found⟩ := ih behind
      exact ⟨first, firstMissing_cons.mpr (.inr ⟨known, found⟩)⟩
    · simp only [not_forall, Option.not_isSome_iff_eq_none] at known
      obtain ⟨first, here, unknown⟩ := known
      exact ⟨first, firstMissing_cons.mpr (.inl ⟨here, unknown⟩)⟩

/-- One action cannot be looked up exactly if it is a command whose mapping is missing. -/
theorem ofAction_eq_error_iff {error : UnknownMapping} :
    Step.ofAction registry action = .error error ↔
      action = .command error.id ∧ registry.byId? error.id = none := by
  cases action with
  | text | nav => simp [Step.ofAction]
  | command id =>
    rw [ofAction_command, lookup]
    constructor
    · intro failed
      split at failed
      next => cases failed
      next missing =>
        cases failed
        exact ⟨rfl, missing⟩
    · rintro ⟨same, missing⟩
      cases same
      rw [missing]
      rfl

theorem isSome_of_ofAction {step : Step} (known : Step.ofAction registry action = .ok step)
    (same : action = .command id) : (registry.byId? id).isSome := by
  rw [same, ofAction_command, lookup] at known
  split at known
  next found => rw [found]; rfl
  next => cases known

theorem ofActions_eq_error_iff {error : UnknownMapping} :
    Step.ofActions registry actions = .error error ↔ FirstMissing registry actions error.id := by
  induction actions with
  | nil =>
    rw [Step.ofActions]
    constructor
    · intro failed
      cases failed
    · rintro ⟨before, behind, parts, _⟩
      simp at parts
  | cons action rest ih =>
    rw [firstMissing_cons, ← ih, ← ofAction_eq_error_iff, Step.ofActions]
    cases first : Step.ofAction registry action with
    | error missing =>
      -- Nothing behind a command that is missing is looked at.
      obtain ⟨same, unknown⟩ := ofAction_eq_error_iff.mp first
      simp only [Except.error.injEq]
      refine Iff.symm (or_iff_left ?_)
      rintro ⟨known, _⟩
      have found := known missing.id same
      rw [unknown] at found
      cases found
    | ok step =>
      have known : ∀ other, action = .command other → (registry.byId? other).isSome :=
        fun other => isSome_of_ofAction first
      rw [and_iff_right known]
      cases Step.ofActions registry rest <;> simp

theorem generate_eq_error_iff {target : Target} {options : Options} {error : UnknownMapping} :
    generate target options registry actions = .error error ↔
      FirstMissing registry actions error.id := by
  rw [generate, ← ofActions_eq_error_iff]
  cases Step.ofActions registry actions <;> simp [Except.map]

theorem exists_generated_iff {target : Target} {options : Options} :
    (∃ other count size, .generated other count size ∈ events target options registry actions) ↔
      ∃ script, generate target options registry actions = .ok script := by
  unfold events
  cases generate target options registry actions <;> simp

/-- Both targets refuse the same actions, and for the same command, under all options. Nothing is
left of a script that was begun, and none is reported as generated. -/
theorem generate_fails_alike (registry : Registry) (actions : List Action) :
    (∀ target options, ((Pass.run target options registry actions).run.run []).run =
      (generate target options registry actions, events target options registry actions)) ∧
    (∀ target options, (∃ error, generate target options registry actions = .error error) ↔
      ∃ id, .command id ∈ actions ∧ registry.byId? id = none) ∧
    (∀ target options error, generate target options registry actions = .error error ↔
      FirstMissing registry actions error.id) ∧
    (∀ target options,
      (∃ other count size, .generated other count size ∈ events target options registry actions) ↔
        ∃ script, generate target options registry actions = .ok script) ∧
    (∀ options error, generate .browser options registry actions = .error error ↔
      generate .hotkey options registry actions = .error error) ∧
    ∀ target other first second,
      (Converter.generate ⟨registry, first⟩ target actions).isOk =
        (Converter.generate ⟨registry, second⟩ other actions).isOk := by
  refine ⟨fun target options => Pass.run_eq target options registry actions,
    fun target options => ?_,
    fun target options error => generate_eq_error_iff, fun target options => exists_generated_iff,
    fun options error => generate_eq_error_iff.trans generate_eq_error_iff.symm,
    fun target other first second => ?_⟩
  · constructor
    · rintro ⟨error, failed⟩
      obtain ⟨before, behind, rfl, missing, _⟩ := generate_eq_error_iff.mp failed
      exact ⟨error.id, by simp, missing⟩
    · rintro ⟨id, mem, missing⟩
      obtain ⟨first, found⟩ := exists_firstMissing mem missing
      exact ⟨⟨first⟩, generate_eq_error_iff.mpr found⟩
  · unfold Converter.generate generate
    cases Step.ofActions registry actions <;> rfl

end FormulaKeys.Script
