import FormulaKeys.Proofs.Markup.Command
import FormulaKeys.Proofs.Markup.Refinement
import FormulaKeys.Proofs.Registry

/-! Which mappings the reading of markup depends on.

Of a mapping, only its id and its two keys are read, and these only if its trigger stands in the
markup. Two registries that agree so far are read in step, construct by construct, and so are two
that differ in what the ids are called.
-/

set_option autoImplicit false

namespace FormulaKeys

namespace Action

def rename (newId : String → String) : Action → Action
  | .text content => .text content
  | .command id => .command (newId id)
  | .nav key => .nav key

theorem rename_id : rename id = id := by
  funext action
  cases action <;> rfl

theorem coalesce_map_rename (newId : String → String) (actions : List Action) :
    coalesce (actions.map (rename newId)) = (coalesce actions).map (rename newId) := by
  induction actions with
  | nil => rfl
  | cons head rest ih =>
    cases head with
    | text content =>
      simp only [List.map_cons, rename, coalesce, ih]
      cases coalesce rest with
      | nil => by_cases none : content = "" <;> simp [none, rename]
      | cons next others =>
        cases next with
        | text more => simp [rename]
        | command | nav => by_cases none : content = "" <;> simp [none, rename]
    | command | nav => simp only [List.map_cons, rename, coalesce, ih]

end Action

namespace Registry

/-- Both registries leave the trigger unbound, or they bind it to mappings that press the same keys
and whose ids correspond. -/
def BindAlike (newId : String → String) (first second : Registry) (trigger : String) : Prop :=
  Option.Rel (fun one other =>
      other.id = newId one.id ∧ other.advance = one.advance ∧ other.exit = one.exit)
    (first.byTrigger? trigger) (second.byTrigger? trigger)

theorem byTrigger?_empty (registry : Registry) : registry.byTrigger? "" = none := by
  cases found : registry.byTrigger? "" with
  | none => rfl
  | some mapping =>
    obtain ⟨mem, same⟩ := byTrigger?_eq_some_iff.mp found
    have usable := registry.isTrigger mapping mem
    rw [same] at usable
    simp [IsTrigger] at usable

theorem BindAlike.of_perm {newId : String → String} {first second : Registry}
    {change : Mapping → Mapping} (triggers : ∀ mapping, (change mapping).trigger = mapping.trigger)
    (same : ∀ mapping, (change mapping).id = newId mapping.id ∧
      (change mapping).advance = mapping.advance ∧ (change mapping).exit = mapping.exit)
    (changed : second.mappings.Perm (first.mappings.map change)) (trigger : String) :
    BindAlike newId first second trigger := by
  rw [BindAlike, byTrigger?_of_perm triggers changed]
  cases first.byTrigger? trigger with
  | none => exact .none
  | some mapping => exact .some (same mapping)

end Registry

namespace Markup

open Registry (BindAlike)

/-- The trigger stands in the markup, as a marker or as all the letters behind a backslash. -/
inductive Occurs : String → List Char → Prop where
  | marker {c : Char} {chars : List Char} (isMarker : c = '^' ∨ c = '_') (mem : c ∈ chars) :
      Occurs (String.singleton c) chars
  | command {name : String} {before behind : List Char} (isName : Command.IsName name)
      (ends : Plain.EndsName behind) : Occurs name (before ++ '\\' :: (name.toList ++ behind))

namespace Occurs

variable {trigger : String} {chars rest : List Char}

theorem append_left (occurs : Occurs trigger chars) (before : List Char) :
    Occurs trigger (before ++ chars) := by
  cases occurs with
  | marker isMarker mem => exact .marker isMarker (List.mem_append_right before mem)
  | command isName ends =>
    rw [← List.append_assoc]
    exact .command isName ends

theorem of_suffix (occurs : Occurs trigger rest) (suffix : rest <:+ chars) :
    Occurs trigger chars := by
  obtain ⟨before, rfl⟩ := suffix
  exact occurs.append_left before

/-- The letters behind the last backslash are still all of them. -/
theorem append_right (occurs : Occurs trigger chars) (ends : Plain.EndsName rest) :
    Occurs trigger (chars ++ rest) := by
  cases occurs with
  | marker isMarker mem => exact .marker isMarker (List.mem_append_left rest mem)
  | @command _ before behind isName ended =>
    rw [List.append_assoc, List.cons_append, List.append_assoc]
    refine .command isName ?_
    cases behind with
    | nil => exact ends
    | cons c behind => exact ended

theorem name_of_ne_empty (notEmpty : Plain.name chars ≠ "") :
    Occurs (Plain.name chars) ('\\' :: chars) := by
  have occurs : Occurs (Plain.name chars)
      ([] ++ '\\' :: ((Plain.name chars).toList ++ Plain.behindName chars)) :=
    .command ⟨notEmpty, Plain.letters_name chars⟩ (Plain.endsName_behindName chars)
  rwa [Plain.name_append_behindName] at occurs

/-- Nothing occurs without a backslash and without a marker. -/
theorem special (occurs : Occurs trigger chars) : '\\' ∈ chars ∨ '^' ∈ chars ∨ '_' ∈ chars := by
  cases occurs with
  | marker isMarker mem =>
    rcases isMarker with rfl | rfl
    · exact .inr (.inl mem)
    · exact .inr (.inr mem)
  | command => exact .inl (List.mem_append_right _ List.mem_cons_self)

/-- What occurs in a markup occurs at its first character or behind it. -/
theorem cons_iff {c : Char} :
    Occurs trigger (c :: chars) ↔
      (c = '^' ∨ c = '_') ∧ trigger = String.singleton c ∨
      c = '\\' ∧ trigger = Plain.name chars ∧ trigger ≠ "" ∨ Occurs trigger chars := by
  constructor
  · generalize whole : c :: chars = all
    intro occurs
    cases occurs with
    | marker isMarker mem =>
      rw [← whole] at mem
      rcases List.mem_cons.mp mem with rfl | mem
      · exact .inl ⟨isMarker, rfl⟩
      · exact .inr (.inr (.marker isMarker mem))
    | @command _ before behind isName ends =>
      cases before with
      | nil =>
        cases whole
        exact .inr (.inl ⟨rfl, (Plain.name_written isName ends).symm, isName.1⟩)
      | cons d before =>
        cases whole
        exact .inr (.inr (.command isName ends))
  · rintro (⟨isMarker, rfl⟩ | ⟨rfl, rfl, notEmpty⟩ | occurs)
    · exact .marker isMarker List.mem_cons_self
    · exact name_of_ne_empty notEmpty
    · exact occurs.append_left [c]

end Occurs

namespace Plain

variable {newId : String → String} {first second : Registry} {trigger : String}

/-! What occurs in a group occurs in the whole markup. -/

theorem occurs_takeArgument {chars rest : List Char} {argument : Argument}
    (taken : takeArgument chars = (argument, rest)) (occurs : Occurs trigger argument.content) :
    Occurs trigger chars := by
  apply Occurs.of_suffix _ (List.dropWhile_suffix Text.isBlank)
  have takes := takeArgument_takes taken
  generalize chars.dropWhile Text.isBlank = chars at takes
  cases takes with
  | absent => exact absurd occurs.special (by decide)
  | closed =>
    -- The brace that closes the group is no letter, so a name at the end of the group ends there.
    have closing : EndsName ('}' :: rest) := by
      intro c found
      cases found
      rfl
    exact (occurs.append_right closing).append_left ['{']
  | unclosed => exact occurs.append_left ['{']

theorem Reads.occurs {registry : Registry} {chars rest : List Char} {parts : List Part}
    {argument : Argument} (reads : Reads registry chars parts rest)
    (mem : .argument argument ∈ parts) (occurs : Occurs trigger argument.content) :
    Occurs trigger chars := by
  have named {chars : List Char} (behind : Occurs trigger (behindName chars)) :
      Occurs trigger ('\\' :: chars) :=
    (behind.of_suffix (List.dropWhile_suffix Char.isAlpha)).append_left ['\\']
  cases reads with
  | binary _ _ one two =>
    simp only [List.mem_cons, reduceCtorEq, Part.argument.injEq, List.not_mem_nil, or_false,
      false_or] at mem
    rcases mem with rfl | rfl
    · exact named (occurs_takeArgument one occurs)
    · exact named ((occurs_takeArgument two occurs).of_suffix (takeArgument_suffix one))
  | unary _ _ one =>
    simp only [List.mem_cons, reduceCtorEq, Part.argument.injEq, List.not_mem_nil, or_false,
      false_or] at mem
    subst mem
    exact named (occurs_takeArgument one occurs)
  | wrapper _ _ one =>
    cases List.mem_singleton.mp mem
    exact named (occurs_takeArgument one occurs)
  | script _ _ one =>
    simp only [List.mem_cons, reduceCtorEq, Part.argument.injEq, List.not_mem_nil, or_false,
      false_or] at mem
    subst mem
    exact (occurs_takeArgument one occurs).append_left [_]
  | space | bare | function | layout | symbol | unknown | freeMarker | scriptChar | scriptEnd |
    dollar | char => simp at mem

/-! Constructs that are looked up alike are read alike. -/

def Part.rename (newId : String → String) : Part → Part
  | .command id => .command (newId id)
  | .text content => .text content
  | .nav key => .nav key
  | .argument group => .argument group
  | .unknown name => .unknown name

/-- What is read is the same, its commands renamed, and the same stands behind it. -/
def renamed (newId : String → String) (read : List Part × List Char) : List Part × List Char :=
  (read.1.map (Part.rename newId), read.2)

theorem bound_renamed {one other : Mapping} (ids : other.id = newId one.id)
    (advance : other.advance = one.advance) (exit : other.exit = one.exit) (name : String)
    (chars : List Char) : bound other name chars = renamed newId (bound one name chars) := by
  unfold bound
  rw [ids, advance, exit]
  cases Command.Class.ofName name <;> rfl

/-- Without a mapping there is nothing to rename. -/
theorem unbound_renamed (newId : String → String) (chars : List Char) :
    unbound chars = renamed newId (unbound chars) := by
  unfold unbound
  cases Command.Class.ofName (name chars) <;> rfl

theorem command_renamed {chars : List Char}
    (alike : name chars ≠ "" → BindAlike newId first second (name chars)) :
    command second chars = renamed newId (command first chars) := by
  have alike : BindAlike newId first second (name chars) := by
    by_cases empty : name chars = ""
    · -- No registry binds the name of a backslash that stands alone.
      rw [empty, BindAlike, Registry.byTrigger?_empty, Registry.byTrigger?_empty]
      exact .none
    · exact alike empty
  unfold BindAlike at alike
  unfold command
  split
  next => rfl
  next =>
    generalize first.byTrigger? (name chars) = one, second.byTrigger? (name chars) = other at alike
    cases alike with
    | none => exact unbound_renamed newId chars
    | some same => exact bound_renamed same.1 same.2.1 same.2.2 _ _

theorem marker_renamed {c : Char} (alike : BindAlike newId first second (String.singleton c))
    (chars : List Char) : marker second c chars = renamed newId (marker first c chars) := by
  unfold BindAlike at alike
  unfold marker
  generalize first.byTrigger? (String.singleton c) = one,
    second.byTrigger? (String.singleton c) = other at alike
  cases alike with
  | none => rfl
  | some same =>
    obtain ⟨ids, -, exit⟩ := same
    dsimp only
    rw [ids, exit]
    split <;> rfl

theorem construct_renamed {c : Char} {chars : List Char}
    (alike : ∀ trigger, Occurs trigger (c :: chars) → BindAlike newId first second trigger) :
    construct second c chars = renamed newId (construct first c chars) := by
  unfold construct
  split
  · exact command_renamed fun notEmpty => alike _ (Occurs.name_of_ne_empty notEmpty)
  · exact marker_renamed (alike _ (.marker (.inl rfl) List.mem_cons_self)) chars
  · exact marker_renamed (alike _ (.marker (.inr rfl) List.mem_cons_self)) chars
  · rfl
  · rfl

theorem flat_renamed {chars : List Char}
    (alike : ∀ trigger, Occurs trigger chars → BindAlike newId first second trigger) :
    flat second chars = (flat first chars).map (Action.rename newId) := by
  induction chars using inductionOnConstructs first with
  | nil => rw [flat_nil, flat_nil, List.map_nil]
  | cons c chars groups behind =>
    have reads := construct_reads first c chars
    -- What occurs in a group of the construct, or behind it, occurs here.
    have inside : ∀ argument, .argument argument ∈ (construct first c chars).1 →
        flat second argument.content = (flat first argument.content).map (Action.rename newId) :=
      fun argument mem => groups argument mem fun trigger occurs =>
        alike trigger (reads.occurs mem occurs)
    have rest := behind fun trigger occurs => alike trigger (occurs.of_suffix reads.suffix)
    rw [flat_cons, flat_cons, construct_renamed alike, renamed, rest, List.map_append,
      List.flatMap_map, List.map_flatMap]
    congr 1
    apply List.flatMap_congr
    intro part mem
    cases part with
    | argument argument => exact inside argument mem
    | text | command | nav | unknown => rfl

end Plain

open Registry (BindAlike)

/-- Registries that bind the triggers of the markup alike read it alike. -/
theorem parse_renamed {newId : String → String} {first second : Registry} {markup : String}
    (alike : ∀ trigger, Occurs trigger markup.toList → BindAlike newId first second trigger) :
    parse second markup = (parse first markup).map (Action.rename newId) := by
  simp only [parse_eq_finish, Action.Builder.finish_foldl_add_empty]
  rw [Plain.flat_renamed alike, Action.coalesce_map_rename]

/-- Markup is read alike if the triggers that stand in it are bound alike: mappings that are added
or left out do not matter as long as their triggers do not stand there, and effects, delays and
names do not matter at all. -/
theorem parse_frame (first second : Registry) (markup : String) :
    ((∀ trigger, Occurs trigger markup.toList → BindAlike id first second trigger) →
      parse first markup = parse second markup) ∧
    ((∀ mapping, Occurs mapping.trigger markup.toList →
        (mapping ∈ first.mappings ↔ mapping ∈ second.mappings)) →
      parse first markup = parse second markup) ∧
    ∀ (name : Mapping → String) (effect : Mapping → Effect) (delay : Mapping → Option Millis),
      second.mappings = first.mappings.map (fun mapping =>
        { mapping with name := name mapping, effect := effect mapping, delay := delay mapping }) →
      parse first markup = parse second markup := by
  have alike (bound : ∀ trigger, Occurs trigger markup.toList → BindAlike id first second trigger) :
      parse first markup = parse second markup := by
    rw [parse_renamed bound, Action.rename_id, List.map_id]
  refine ⟨alike, fun kept => alike ?_, fun name effect delay changed => alike ?_⟩
  · intro trigger occurs
    have same : second.byTrigger? trigger = first.byTrigger? trigger := by
      ext mapping
      rw [Registry.byTrigger?_eq_some_iff, Registry.byTrigger?_eq_some_iff]
      refine and_congr_left fun known => (kept mapping ?_).symm
      rwa [known]
    rw [BindAlike, same]
    cases first.byTrigger? trigger with
    | none => exact .none
    | some mapping => exact .some ⟨rfl, rfl, rfl⟩
  · intro trigger _
    apply BindAlike.of_perm _ _ (.of_eq changed)
    · intro mapping
      rfl
    · intro mapping
      exact ⟨rfl, rfl, rfl⟩

/-- A name that begins with a trigger is not this trigger. -/
theorem parse_frame_fraction :
    (∀ trigger, Occurs trigger "\\fraction\x7b1\x7d".toList →
      BindAlike id Registry.starter Registry.empty trigger) ∧
    parse Registry.starter "\\fraction\x7b1\x7d" = parse Registry.empty "\\fraction\x7b1\x7d" := by
  have alike : ∀ trigger, Occurs trigger "\\fraction\x7b1\x7d".toList →
      BindAlike id Registry.starter Registry.empty trigger := by
    intro trigger occurs
    rcases Occurs.cons_iff.mp occurs with ⟨isMarker, _⟩ | ⟨_, named, _⟩ | behind
    · exact absurd isMarker (by decide)
    · subst named
      exact Option.Rel.none
    · exact absurd behind.special (by decide)
  exact ⟨alike, (parse_frame Registry.starter Registry.empty _).1 alike⟩

end Markup

end FormulaKeys
