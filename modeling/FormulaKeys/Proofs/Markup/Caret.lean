import FormulaKeys.Proofs.Markup.Refinement
import FormulaKeys.Proofs.Registry

/-! Caret discipline.

A command that opens a construct puts the caret into it. The actions of any markup
lead the caret out again: constructs nest as brackets do, each is left once, and the
keys pressed in it are those of the mapping that opened it.
-/

set_option autoImplicit false

namespace FormulaKeys

/-- How many slots the construct has that a mapping opens. -/
inductive Form where
  | bare
  | unary
  | binary
  deriving DecidableEq, Repr

namespace Mapping

/-- The form is decided by the trigger alone. -/
def form (mapping : Mapping) : Form :=
  match Command.Class.ofName mapping.trigger with
  | .binary => .binary
  | .unary => .unary
  | .wrapper | .function | .layout | .symbol _ | .unknown =>
    if mapping.trigger = "^" ∨ mapping.trigger = "_" then .unary else .bare

/-- The keys that lead from slot to slot and out of the construct. -/
def keys (mapping : Mapping) : List NavKey :=
  match mapping.form with
  | .bare => []
  | .unary => [mapping.exit]
  | .binary => [mapping.advance, mapping.exit]

theorem form_of_binary {mapping : Mapping}
    (takes : Command.Class.ofName mapping.trigger = .binary) : mapping.form = .binary := by
  simp only [form, takes]

theorem form_of_unary {mapping : Mapping}
    (takes : Command.Class.ofName mapping.trigger = .unary) : mapping.form = .unary := by
  simp only [form, takes]

theorem form_of_other {mapping : Mapping}
    (notBinary : Command.Class.ofName mapping.trigger ≠ .binary)
    (notUnary : Command.Class.ofName mapping.trigger ≠ .unary)
    (noMarker : ¬(mapping.trigger = "^" ∨ mapping.trigger = "_")) : mapping.form = .bare := by
  unfold form
  split
  next takes => exact (notBinary takes).elim
  next takes => exact (notUnary takes).elim
  all_goals exact if_neg noMarker

theorem form_of_marker {mapping : Mapping}
    (marker : mapping.trigger = "^" ∨ mapping.trigger = "_") : mapping.form = .unary := by
  have unknown : Command.Class.ofName mapping.trigger = .unknown := by
    rcases marker with same | same <;> rw [same] <;> decide
  simp only [form, unknown, if_pos marker]

end Mapping

namespace Action

/-- Sequences of actions in which every construct is left as it was opened. -/
inductive Nested (registry : Registry) : List Action → Prop where
  | nil : Nested registry []
  | text (content : String) {rest : List Action} :
      Nested registry rest → Nested registry (.text content :: rest)
  | bare {mapping : Mapping} {rest : List Action} (mem : mapping ∈ registry.mappings)
      (form : mapping.form = .bare) :
      Nested registry rest → Nested registry (.command mapping.id :: rest)
  | unary {mapping : Mapping} {argument rest : List Action} (mem : mapping ∈ registry.mappings)
      (form : mapping.form = .unary) :
      Nested registry argument → Nested registry rest →
      Nested registry (.command mapping.id :: (argument ++ .nav mapping.exit :: rest))
  | binary {mapping : Mapping} {first second rest : List Action}
      (mem : mapping ∈ registry.mappings) (form : mapping.form = .binary) :
      Nested registry first → Nested registry second → Nested registry rest →
      Nested registry (.command mapping.id ::
        (first ++ .nav mapping.advance :: (second ++ .nav mapping.exit :: rest)))

/-- Play the actions against the keys that are still due, the next one in front. Nothing comes of
it when another key is pressed or an unknown mapping fires. -/
def settle (registry : Registry) : List NavKey → List Action → Option (List NavKey)
  | due, [] => some due
  | due, .text _ :: rest => settle registry due rest
  | due, .command id :: rest =>
    match registry.byId? id with
    | some mapping => settle registry (mapping.keys ++ due) rest
    | none => none
  | [], .nav _ :: _ => none
  | key :: due, .nav pressed :: rest =>
    if pressed = key then settle registry due rest else none

namespace Nested

variable {registry : Registry} {first rest : List Action}

theorem append (nested : Nested registry first) (behind : Nested registry rest) :
    Nested registry (first ++ rest) := by
  induction nested with
  | nil => exact behind
  | text content _ ih => exact .text content ih
  | bare mem form _ ih => exact .bare mem form ih
  | unary mem form argument _ _ ih =>
    simp only [List.cons_append, List.append_assoc]
    exact .unary mem form argument ih
  | binary mem form one two _ _ _ ih =>
    simp only [List.cons_append, List.append_assoc]
    exact .binary mem form one two ih

/-- Joining texts leaves every construct where it is, since its keys part the texts. -/
theorem coalesce {actions : List Action} (nested : Nested registry actions) :
    Nested registry (coalesce actions) := by
  induction nested with
  | nil => exact .nil
  | text content _ ih =>
    unfold Action.coalesce
    split
    next more others same =>
      rw [same] at ih
      cases ih with
      | text _ behind => exact .text _ behind
    next =>
      split
      · exact ih
      · exact .text content ih
  | bare mem form _ ih => exact .bare mem form ih
  | unary mem form _ _ argument ih =>
    rw [Action.coalesce, coalesce_append_nav]
    exact .unary mem form argument ih
  | binary mem form _ _ _ one two ih =>
    rw [Action.coalesce, coalesce_append_nav, coalesce_append_nav]
    exact .binary mem form one two ih

/-- Whatever was due before is due afterwards, and nothing else. -/
theorem settle_append {actions : List Action} (nested : Nested registry actions)
    (due : List NavKey) (rest : List Action) :
    settle registry due (actions ++ rest) = settle registry due rest := by
  -- A construct puts its own keys in front of those that are due, and its slots leave them there.
  induction nested generalizing due rest with
  | nil => rfl
  | text content _ ih => exact ih due rest
  | @bare mapping behind mem form _ ih =>
    have found := Registry.byId?_eq_some_iff.mpr ⟨mem, rfl⟩
    simp only [List.cons_append, settle, found, Mapping.keys, form]
    exact ih due rest
  | @unary mapping argument behind mem form _ _ one ih =>
    have found := Registry.byId?_eq_some_iff.mpr ⟨mem, rfl⟩
    simp only [List.cons_append, List.append_assoc, settle, found, Mapping.keys, form, one,
      List.nil_append, if_true]
    exact ih due rest
  | @binary mapping first second behind mem form _ _ _ one two ih =>
    have found := Registry.byId?_eq_some_iff.mpr ⟨mem, rfl⟩
    simp only [List.cons_append, List.append_assoc, settle, found, Mapping.keys, form, one, two,
      List.nil_append, if_true]
    exact ih due rest

end Nested

end Action

namespace Markup

variable {registry : Registry}

/-- A name is made of letters, so it is no marker. -/
theorem Plain.name_ne_marker (chars : List Char) :
    ¬(Plain.name chars = "^" ∨ Plain.name chars = "_") := by
  have letter {c : Char} (same : Plain.name chars = String.ofList [c]) : c.isAlpha = true := by
    have mem : c ∈ chars.takeWhile Char.isAlpha := by
      rw [String.ofList_injective same]
      exact List.mem_singleton_self c
    exact List.mem_takeWhile_imp mem
  rintro (same | same)
  · exact absurd (letter (c := '^') same) (by decide)
  · exact absurd (letter (c := '_') same) (by decide)

/-- The parts of a construct nest, as soon as its groups do. -/
theorem Plain.Reads.nested {chars rest : List Char} {parts : List Plain.Part}
    (reads : Plain.Reads registry chars parts rest) {plain : List Char → List Action}
    (groups : ∀ argument, .argument argument ∈ parts →
      Action.Nested registry (plain argument.content)) :
    Action.Nested registry (parts.flatMap (Plain.Part.actions plain)) := by
  -- A mapping that was found by a trigger has the form that the trigger decides.
  have found {trigger : String} {mapping : Mapping}
      (bound : registry.byTrigger? trigger = some mapping) :
      mapping ∈ registry.mappings ∧ mapping.trigger = trigger :=
    Registry.byTrigger?_eq_some_iff.mp bound
  have scripted {c : Char} {mapping : Mapping} (isMarker : c = '^' ∨ c = '_')
      (bound : registry.byTrigger? (String.singleton c) = some mapping) :
      mapping ∈ registry.mappings ∧ mapping.form = .unary := by
    refine ⟨(found bound).1, Mapping.form_of_marker ?_⟩
    rw [(found bound).2]
    rcases isMarker with rfl | rfl
    · exact .inl rfl
    · exact .inr rfl
  cases reads with
  | binary bound takes one two =>
    obtain ⟨mem, same⟩ := found bound
    have form := Mapping.form_of_binary (same ▸ takes)
    simp only [List.flatMap_cons, List.flatMap_nil, Plain.Part.actions, List.cons_append,
      List.nil_append]
    exact .binary mem form (groups _ (by simp)) (groups _ (by simp)) .nil
  | unary bound takes one =>
    obtain ⟨mem, same⟩ := found bound
    have form := Mapping.form_of_unary (same ▸ takes)
    simp only [List.flatMap_cons, List.flatMap_nil, Plain.Part.actions, List.cons_append,
      List.nil_append]
    exact .unary mem form (groups _ (by simp)) .nil
  | @bare chars mapping bound notBinary notUnary =>
    obtain ⟨mem, same⟩ := found bound
    have form : mapping.form = .bare := by
      apply Mapping.form_of_other
      · rwa [same]
      · rwa [same]
      · rw [same]
        exact Plain.name_ne_marker chars
    exact .bare mem form .nil
  | script isMarker bound one =>
    obtain ⟨mem, form⟩ := scripted isMarker bound
    simp only [List.flatMap_cons, List.flatMap_nil, Plain.Part.actions, List.cons_append,
      List.nil_append]
    exact .unary mem form (groups _ (by simp)) .nil
  | scriptChar isMarker bound single =>
    obtain ⟨mem, form⟩ := scripted isMarker bound
    exact .unary mem form (.text _ .nil) .nil
  | scriptEnd isMarker bound =>
    obtain ⟨mem, form⟩ := scripted isMarker bound
    exact .unary mem form .nil .nil
  | wrapper free takes one =>
    simp only [List.flatMap_cons, List.flatMap_nil, Plain.Part.actions, List.append_nil]
    exact groups _ (by simp)
  | layout | dollar => exact .nil
  | space | function | symbol | unknown | freeMarker | char => exact .text _ .nil

theorem nested_flat (registry : Registry) (chars : List Char) :
    Action.Nested registry (Plain.flat registry chars) := by
  induction chars using Plain.inductionOnConstructs registry with
  | nil =>
    rw [Plain.flat]
    exact .nil
  | cons c chars groups behind =>
    rw [Plain.flat_cons]
    exact ((Plain.construct_reads registry c chars).nested groups).append behind

/-- The actions of any markup nest, and no key is due at their end. -/
theorem parse_nested (registry : Registry) (markup : String) :
    Action.Nested registry (parse registry markup) ∧
      Action.settle registry [] (parse registry markup) = some [] := by
  have nested : Action.Nested registry (parse registry markup) := by
    rw [parse_eq_finish, Action.Builder.finish_foldl_add_empty]
    exact (nested_flat registry markup.toList).coalesce
  refine ⟨nested, ?_⟩
  have settled := nested.settle_append [] []
  rwa [List.append_nil] at settled

end Markup

end FormulaKeys
