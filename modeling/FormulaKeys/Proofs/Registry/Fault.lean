import FormulaKeys.Proofs.Registry

/-! What a registry refuses, and where.

A list of mappings is refused for its first mapping that is unfit where it stands, and
for the first thing that is wrong with this mapping. All other lists become registries,
in which every id and every trigger finds its own mapping.
-/

set_option autoImplicit false

namespace FormulaKeys.Registry

/-- What can be wrong with a mapping when these are in front of it. -/
inductive Fault.Of (earlier : List Mapping) (mapping : Mapping) : Fault → Prop where
  | emptyId (missing : mapping.id = "") : Of earlier mapping .emptyId
  | emptyTrigger (missing : mapping.trigger = "") : Of earlier mapping .emptyTrigger
  | invalidTrigger (unusable : ¬IsTrigger mapping.trigger) :
      Of earlier mapping (.invalidTrigger mapping.trigger)
  | duplicateId (taken : ∃ other ∈ earlier, other.id = mapping.id) :
      Of earlier mapping (.duplicateId mapping.id)
  | duplicateTrigger (taken : ∃ other ∈ earlier, other.trigger = mapping.trigger) :
      Of earlier mapping (.duplicateTrigger mapping.trigger)

/-- The words for what is wrong with a mapping. -/
inductive Fault.Words : Fault → String → Prop where
  | emptyId : Words .emptyId "Mapping id must not be empty."
  | emptyTrigger : Words .emptyTrigger "Mapping trigger must not be empty."
  | invalidTrigger (trigger : String) :
      Words (.invalidTrigger trigger)
        ("Invalid trigger \"" ++ trigger ++
          "\": must be \"^\", \"_\" or consist of ASCII letters only.")
  | duplicateId (id : String) :
      Words (.duplicateId id) ("Duplicate mapping id \"" ++ id ++ "\".")
  | duplicateTrigger (trigger : String) :
      Words (.duplicateTrigger trigger) ("Duplicate trigger \"" ++ trigger ++ "\".")

theorem Fault.words (fault : Fault) : fault.Words fault.message := by
  cases fault with
  | emptyId => exact .emptyId
  | emptyTrigger => exact .emptyTrigger
  | invalidTrigger trigger => exact .invalidTrigger trigger
  | duplicateId id => exact .duplicateId id
  | duplicateTrigger trigger => exact .duplicateTrigger trigger

/-- The place of a fault in the order in which faults are looked for. -/
def Fault.rank : Fault → Nat
  | emptyId => 0
  | emptyTrigger => 1
  | invalidTrigger _ => 2
  | duplicateId _ => 3
  | duplicateTrigger _ => 4

/-- The mapping has this fault and none that is looked for before. -/
structure Fault.IsFirst (earlier : List Mapping) (mapping : Mapping) (fault : Fault) : Prop where
  has : fault.Of earlier mapping
  least : ∀ other, Of earlier mapping other → fault.rank ≤ other.rank

/-- The mapping at this position of the list is unfit. -/
def Unfit (mappings : List Mapping) (index : Nat) : Prop :=
  ∃ mapping fault, mappings[index]? = some mapping ∧ Fault.Of (mappings.take index) mapping fault

/-- The error of a list: where its first unfit mapping is, and the first fault of that mapping. -/
structure Error.IsFirst (mappings : List Mapping) (error : Error) : Prop where
  first : ∃ mapping, mappings[error.index]? = some mapping ∧
    error.fault.IsFirst (mappings.take error.index) mapping
  least : ∀ index, Unfit mappings index → error.index ≤ index

variable {indexes : Indexes} {registry : Registry} {mapping : Mapping}
  {mappings before rest : List Mapping} {fault : Fault} {error : Error}

theorem Fault.IsFirst.unique {earlier : List Mapping} {other : Fault}
    (first : IsFirst earlier mapping fault) (second : IsFirst earlier mapping other) :
    fault = other := by
  have same : fault.rank = other.rank :=
    Nat.le_antisymm (first.least other second.has) (second.least fault first.has)
  -- What a fault says of a mapping is given by its rank.
  cases first.has <;> cases second.has <;> first | rfl | cases same

theorem Error.IsFirst.unique {other : Error} (first : IsFirst mappings error)
    (second : IsFirst mappings other) : error = other := by
  obtain ⟨mapping, found, fault⟩ := first.first
  obtain ⟨otherMapping, otherFound, otherFault⟩ := second.first
  have index : error.index = other.index := Nat.le_antisymm
    (first.least _ ⟨otherMapping, _, otherFound, otherFault.has⟩)
    (second.least _ ⟨mapping, _, found, fault.has⟩)
  rw [← index] at otherFound otherFault
  cases found.symm.trans otherFound
  have faults := fault.unique otherFault
  cases error
  cases other
  cases index
  cases faults
  rfl

theorem Error.IsFirst.lt_length (first : IsFirst mappings error) :
    error.index < mappings.length := by
  obtain ⟨mapping, found, _⟩ := first.first
  exact (List.getElem?_eq_some_iff.mp found).1

/-- Of a mapping that is refused the first fault is told. -/
theorem isFirst_of_add (entered : indexes.Of before) {position : Nat}
    (refused : indexes.add position mapping = .error fault) : fault.IsFirst before mapping := by
  -- A fault that is looked for earlier has been ruled out by the test that was passed.
  rw [entered.add_eq] at refused
  split at refused
  next missing =>
    cases refused
    exact ⟨.emptyId missing, fun _ _ => Nat.zero_le _⟩
  next hasId =>
  split at refused
  next missing =>
    cases refused
    refine ⟨.emptyTrigger missing, fun other has => ?_⟩
    cases has with
    | emptyId missing => exact (hasId missing).elim
    | emptyTrigger | invalidTrigger | duplicateId | duplicateTrigger => simp [Fault.rank]
  next hasTrigger =>
  split at refused
  next unusable =>
    cases refused
    refine ⟨.invalidTrigger unusable, fun other has => ?_⟩
    cases has with
    | emptyId missing => exact (hasId missing).elim
    | emptyTrigger missing => exact (hasTrigger missing).elim
    | invalidTrigger | duplicateId | duplicateTrigger => simp [Fault.rank]
  next usable =>
  split at refused
  next taken =>
    cases refused
    refine ⟨.duplicateId taken, fun other has => ?_⟩
    cases has with
    | emptyId missing => exact (hasId missing).elim
    | emptyTrigger missing => exact (hasTrigger missing).elim
    | invalidTrigger unusable => exact (usable unusable).elim
    | duplicateId | duplicateTrigger => simp [Fault.rank]
  next idFree =>
  split at refused
  next taken =>
    cases refused
    refine ⟨.duplicateTrigger taken, fun other has => ?_⟩
    cases has with
    | emptyId missing => exact (hasId missing).elim
    | emptyTrigger missing => exact (hasTrigger missing).elim
    | invalidTrigger unusable => exact (usable unusable).elim
    | duplicateId taken => exact (idFree taken).elim
    | duplicateTrigger => simp [Fault.rank]
  next => cases refused

/-- Where all mappings have been entered, none of them is unfit. -/
theorem not_unfit (entered : indexes.Of mappings) (index : Nat) : ¬Unfit mappings index := by
  rintro ⟨mapping, fault, found, has⟩
  have mem := List.mem_of_getElem? found
  obtain ⟨inside, here⟩ := List.getElem?_eq_some_iff.mp found
  have parts : mappings = mappings.take index ++ mapping :: mappings.drop (index + 1) := by
    rw [← here, ← List.drop_eq_getElem_cons inside, List.take_append_drop]
  -- A mapping that stands in front of this one shares neither id nor trigger with it.
  have ids := entered.ids.nodup
  have triggers := entered.triggers.nodup
  rw [parts, List.map_append, List.nodup_append] at ids triggers
  have usable := entered.isTrigger mapping mem
  cases has with
  | emptyId missing => exact entered.id_ne_empty mapping mem missing
  | emptyTrigger missing => exact Indexes.trigger_ne_empty usable missing
  | invalidTrigger unusable => exact unusable usable
  | duplicateId taken =>
    obtain ⟨other, earlier, same⟩ := taken
    exact ids.2.2 _ (List.mem_map_of_mem earlier) _ (List.mem_map_of_mem List.mem_cons_self) same
  | duplicateTrigger taken =>
    obtain ⟨other, earlier, same⟩ := taken
    exact triggers.2.2 _ (List.mem_map_of_mem earlier) _
      (List.mem_map_of_mem List.mem_cons_self) same

/-- A refused list begins with mappings that are entered, and the next one cannot be. -/
theorem exists_of_addAll (entered : indexes.Of before)
    (refused : indexes.addAll before.length rest = .error error) :
    ∃ (between : Indexes) (first : List Mapping) (mapping : Mapping) (behind : List Mapping),
      between.Of first ∧ before ++ rest = first ++ mapping :: behind ∧
        error.index = first.length ∧ between.add first.length mapping = .error error.fault := by
  induction rest generalizing indexes before with
  | nil => cases refused
  | cons mapping rest ih =>
    rw [Indexes.addAll] at refused
    split at refused
    next larger added =>
      rw [List.append_cons]
      apply ih (entered.add added)
      rwa [List.length_append]
    next fault unfit =>
      cases refused
      exact ⟨indexes, before, mapping, rest, entered, rfl, rfl, unfit⟩

theorem isFirst_of_ofList (refused : ofList mappings = .error error) :
    error.IsFirst mappings := by
  obtain ⟨between, first, mapping, behind, entered, parts, index, unfit⟩ :=
    exists_of_addAll Indexes.of_empty (ofList_eq_error_iff.mp refused)
  obtain rfl : mappings = first ++ mapping :: behind := parts
  constructor
  · refine ⟨mapping, ?_, ?_⟩
    · simp [index]
    · rw [index, List.take_left]
      exact isFirst_of_add entered unfit
  · rintro other ⟨found, fault, here, has⟩
    refine Nat.le_of_not_lt fun before => ?_
    -- The mappings in front of the refused one have been entered.
    rw [index] at before
    rw [List.getElem?_append_left before] at here
    rw [List.take_append_of_le_length (Nat.le_of_lt before)] at has
    exact not_unfit entered other ⟨found, fault, here, has⟩

/-- A list of mappings becomes a registry exactly when every id is there, every trigger can occur
and none of them is repeated. If not, its first unfit mapping and the first fault of this mapping
are told. A registry holds the list as it is. Its indexes hold the position of each id and of each
trigger and nothing else, and it finds each mapping by its id and its trigger. -/
theorem ofList_settles (mappings : List Mapping) :
    ((∃ registry, ofList mappings = .ok registry) ↔
      (∀ mapping ∈ mappings, mapping.id ≠ "" ∧ IsTrigger mapping.trigger) ∧
        (mappings.map Mapping.id).Nodup ∧ (mappings.map Mapping.trigger).Nodup) ∧
    (∀ error, ofList mappings = .error error ↔ error.IsFirst mappings) ∧
    ∀ registry, ofList mappings = .ok registry →
      registry.mappings = mappings ∧
      (∀ id position, registry.indexes.ids.get? id = some position ↔
        (mappings.map Mapping.id)[position]? = some id) ∧
      (∀ trigger position, registry.indexes.triggers.get? trigger = some position ↔
        (mappings.map Mapping.trigger)[position]? = some trigger) ∧
      (∀ trigger mapping, registry.byTrigger? trigger = some mapping ↔
        mapping ∈ mappings ∧ mapping.trigger = trigger) ∧
      (∀ trigger, registry.byTrigger? trigger = none ↔
        ∀ mapping ∈ mappings, mapping.trigger ≠ trigger) ∧
      (∀ id mapping, registry.byId? id = some mapping ↔ mapping ∈ mappings ∧ mapping.id = id) ∧
      (∀ id, registry.byId? id = none ↔ ∀ mapping ∈ mappings, mapping.id ≠ id) := by
  refine ⟨⟨?accepted, ?fit⟩, fun error => ⟨isFirst_of_ofList, ?refused⟩, ?found⟩
  case accepted =>
    rintro ⟨registry, made⟩
    obtain rfl := ofList_eq_ok_iff.mp made
    have entered := registry.indexes_of
    exact ⟨fun mapping mem => ⟨entered.id_ne_empty mapping mem, entered.isTrigger mapping mem⟩,
      registry.ids_nodup, registry.triggers_nodup⟩
  case fit =>
    rintro ⟨each, ids, triggers⟩
    obtain ⟨registry, made, _⟩ := exists_ofList (fun mapping mem => (each mapping mem).1)
      (fun mapping mem => (each mapping mem).2) ids triggers
    exact ⟨registry, made⟩
  case refused =>
    intro first
    cases outcome : ofList mappings with
    | error other => rw [(isFirst_of_ofList outcome).unique first]
    | ok registry =>
      -- A list with an unfit mapping cannot be that of a registry.
      obtain ⟨mapping, found, fault⟩ := first.first
      obtain rfl := ofList_eq_ok_iff.mp outcome
      exact (not_unfit registry.indexes_of _ ⟨mapping, _, found, fault.has⟩).elim
  case found =>
    intro registry made
    obtain rfl := ofList_eq_ok_iff.mp made
    have entered := registry.indexes_of
    exact ⟨rfl, entered.ids, entered.triggers, fun _ _ => byTrigger?_eq_some_iff,
      fun _ => entered.triggers.bind_eq_none_iff, fun _ _ => byId?_eq_some_iff,
      fun _ => entered.ids.bind_eq_none_iff⟩

theorem ofList_settles_starter :
    ofList Mapping.starter = .ok starter ∧ starter.mappings = Mapping.starter ∧
      (starter.indexes.triggers.get? "frac" = some 2 ↔
        (Mapping.starter.map Mapping.trigger)[2]? = some "frac") ∧
      (starter.byTrigger? "dfrac" = none ↔
        ∀ mapping ∈ Mapping.starter, mapping.trigger ≠ "dfrac") := by
  have made : ofList Mapping.starter = .ok starter := ofList_mappings starter
  obtain ⟨_, _, found⟩ := ofList_settles Mapping.starter
  obtain ⟨same, _, stands, _, missing, _⟩ := found starter made
  exact ⟨made, same, stands "frac" 2, missing "dfrac"⟩

end FormulaKeys.Registry
