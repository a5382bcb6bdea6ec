import FormulaKeys.Proofs.Converter
import FormulaKeys.Proofs.Script.Missing
import FormulaKeys.Session

/-! Scripts that a session can give.

The stored actions outlive the converter that they were read with. There are scripts for them as
long as the ids of their commands resolve, and this lasts over every run that brings in neither
unknown commands nor a registry without the known ones.
-/

set_option autoImplicit false

namespace FormulaKeys

/-- Every command is in the registry. -/
def Registry.Resolves (registry : Registry) (actions : List Action) : Prop :=
  ∀ id, .command id ∈ actions → (registry.byId? id).isSome

namespace Registry

variable {registry : Registry} {first second : List Action}

theorem Resolves.append (one : registry.Resolves first) (other : registry.Resolves second) :
    registry.Resolves (first ++ second) := by
  intro id mem
  rcases List.mem_append.mp mem with mem | mem
  · exact one id mem
  · exact other id mem

theorem resolves_parse (converter : Converter) (markup : String) :
    converter.registry.Resolves (converter.parse markup) :=
  fun _ => Markup.isSome_byId?_of_mem_parse

/-- It is for commands alone that there can be no script. -/
theorem resolves_iff {target : Script.Target} {options : Script.Options} :
    registry.Resolves first ↔
      ∃ script, Script.generate target options registry first = .ok script := by
  constructor
  · intro resolves
    obtain ⟨steps, known⟩ := Script.Step.exists_ofActions resolves
    exact ⟨Script.ofSteps target options steps, by rw [Script.generate, known]; rfl⟩
  · rintro ⟨script, generated⟩ id mem
    by_contra missing
    rw [Option.not_isSome_iff_eq_none] at missing
    obtain ⟨first, found⟩ := Script.exists_firstMissing mem missing
    have failed : Script.generate target options registry _ = .error ⟨first⟩ :=
      Script.generate_eq_error_iff.mpr found
    cases generated.symm.trans failed

end Registry

namespace Session

variable {session : Session} {request : Request} {requests : List Request}

def Resolves (session : Session) : Prop :=
  session.converter.registry.Resolves session.actions

/-- Neither unknown commands come in, nor a registry that the stored ones are missing from. -/
inductive Keeps (session : Session) : Request → Prop where
  | load {config : Config}
      (known : ∀ converter, Converter.ofConfig config = .ok converter →
        converter.registry.Resolves session.actions) : Keeps session (.load config)
  | parse (append : Bool) (markup : String) : Keeps session (.parse append markup)
  | store {actions : List Action} (known : session.converter.registry.Resolves actions) :
      Keeps session (.store actions)

/-- Each request is judged by the session that it comes to. -/
inductive KeepsAll : Session → List Request → Prop where
  | nil {session : Session} : KeepsAll session []
  | cons {session : Session} {request : Request} {rest : List Request}
      (first : Keeps session request) (behind : KeepsAll (session.after request) rest) :
      KeepsAll session (request :: rest)

theorem after_load (session : Session) (config : Config) :
    session.after (.load config) =
      { session with
        converter := (Converter.ofConfig config).toOption.getD session.converter } := by
  rw [after, step, load]
  cases Converter.ofConfig config <;> rfl

theorem Resolves.after (resolves : session.Resolves) (keeps : Keeps session request) :
    (session.after request).Resolves := by
  cases keeps with
  | @load config known =>
    rw [after_load]
    cases accepted : Converter.ofConfig config with
    | ok converter => exact known converter accepted
    | error => exact resolves
  | parse append markup =>
    have read := Registry.resolves_parse session.converter markup
    cases append with
    | true => exact Registry.Resolves.append resolves read
    | false => exact read
  | store known => exact known

theorem Resolves.run (resolves : session.Resolves) (keeps : KeepsAll session requests) :
    (session.run requests).Resolves := by
  induction keeps with
  | nil => exact resolves
  | cons first _ ih => exact ih (resolves.after first)

theorem resolves_start : start.Resolves :=
  fun _ mem => nomatch mem

/-- After such a run there is a script for either target, under the options of the session and
under the default ones. -/
theorem exists_generate_run (keeps : KeepsAll start requests) (target : Script.Target) :
    (∃ script, (start.run requests).generate target = .ok script) ∧
      ∃ script, (start.run requests).generateDefault target = .ok script := by
  have resolves := resolves_start.run keeps
  exact ⟨Registry.resolves_iff.mp resolves, Registry.resolves_iff.mp resolves⟩

/-- The configuration that is asked for. -/
def Request.config? : Request → Option Config
  | load config => some config
  | parse _ _ | store _ => none

/-- The converter is the one of the last configuration that was accepted, whatever has been parsed
or stored since. -/
theorem converter_run (session : Session) (requests : List Request) :
    (session.run requests).converter =
      (requests.filterMap Request.config?).foldl
        (fun converter config => (Converter.ofConfig config).toOption.getD converter)
        session.converter := by
  induction requests generalizing session with
  | nil => rfl
  | cons request rest ih =>
    rw [run, List.foldl_cons, ← run, ih]
    cases request with
    | load config =>
      rw [after_load]
      rfl
    | parse append markup => rfl
    | store actions => rfl

end Session

end FormulaKeys
