import FormulaKeys.Proofs.Registry.Indexes

/-! Looking up mappings. A registry's indexes are those of its mappings, so a lookup finds
the one mapping that has the key, and finds nothing only when no mapping has it. Where
the mapping stands in the registry makes no difference.
-/

set_option autoImplicit false

namespace FormulaKeys.Registry

/-- The indexes are filled with the mappings of the registry, and with nothing else. -/
theorem indexes_of (registry : Registry) : registry.indexes.Of registry.mappings :=
  Indexes.of_empty.addAll registry.indexed

theorem ids_nodup (registry : Registry) : (registry.mappings.map Mapping.id).Nodup :=
  registry.indexes_of.ids.nodup

theorem triggers_nodup (registry : Registry) : (registry.mappings.map Mapping.trigger).Nodup :=
  registry.indexes_of.triggers.nodup

theorem isTrigger (registry : Registry) :
    ∀ mapping ∈ registry.mappings, IsTrigger mapping.trigger :=
  registry.indexes_of.isTrigger

theorem byTrigger?_eq_some_iff {registry : Registry} {trigger : String} {mapping : Mapping} :
    registry.byTrigger? trigger = some mapping ↔
      mapping ∈ registry.mappings ∧ mapping.trigger = trigger :=
  registry.indexes_of.triggers.bind_eq_some_iff

theorem byId?_eq_some_iff {registry : Registry} {id : String} {mapping : Mapping} :
    registry.byId? id = some mapping ↔ mapping ∈ registry.mappings ∧ mapping.id = id :=
  registry.indexes_of.ids.bind_eq_some_iff

theorem byTrigger?_eq_none_iff {registry : Registry} {trigger : String} :
    registry.byTrigger? trigger = none ↔ trigger ∉ registry.mappings.map Mapping.trigger := by
  rw [List.mem_map, not_exists]
  simp only [not_and]
  exact registry.indexes_of.triggers.bind_eq_none_iff

/-- The conditions on its mappings are all that a registry asks for. -/
theorem exists_ofList {mappings : List Mapping}
    (id_ne_empty : ∀ mapping ∈ mappings, mapping.id ≠ "")
    (isTrigger : ∀ mapping ∈ mappings, IsTrigger mapping.trigger)
    (ids_nodup : (mappings.map Mapping.id).Nodup)
    (triggers_nodup : (mappings.map Mapping.trigger).Nodup) :
    ∃ registry, ofList mappings = .ok registry ∧ registry.mappings = mappings := by
  obtain ⟨indexes, indexed⟩ :=
    Indexes.of_empty.exists_addAll id_ne_empty isTrigger ids_nodup triggers_nodup
  exact ⟨⟨mappings, indexes, indexed⟩, ofList_eq_ok_iff.mpr rfl, rfl⟩

theorem exists_ofList_singleton {mapping : Mapping} (hasId : mapping.id ≠ "")
    (usable : IsTrigger mapping.trigger) :
    ∃ registry, ofList [mapping] = .ok registry ∧ registry.mappings = [mapping] :=
  exists_ofList (by simpa) (by simpa) (by simp) (by simp)

theorem ofList_singleton_of_not_isTrigger {mapping : Mapping} (hasId : mapping.id ≠ "")
    (hasTrigger : mapping.trigger ≠ "") (unusable : ¬IsTrigger mapping.trigger) :
    ofList [mapping] = .error ⟨0, .invalidTrigger mapping.trigger⟩ := by
  rw [ofList_eq_error_iff, Indexes.addAll, Indexes.add, if_neg hasId, if_neg hasTrigger,
    if_pos unusable]

section
variable {first second : Registry} {change : Mapping → Mapping}

/-- Changed mappings, in whatever order, are found by the triggers that they had before. -/
theorem byTrigger?_of_perm (triggers : ∀ mapping, (change mapping).trigger = mapping.trigger)
    (changed : second.mappings.Perm (first.mappings.map change)) (trigger : String) :
    second.byTrigger? trigger = (first.byTrigger? trigger).map change := by
  cases found : first.byTrigger? trigger with
  | none =>
    have absent := byTrigger?_eq_none_iff.mp found
    rw [Option.map_none, byTrigger?_eq_none_iff, (changed.map Mapping.trigger).mem_iff,
      List.map_map]
    have same : Mapping.trigger ∘ change = Mapping.trigger := funext triggers
    rwa [same]
  | some mapping =>
    obtain ⟨mem, rfl⟩ := byTrigger?_eq_some_iff.mp found
    rw [Option.map_some, byTrigger?_eq_some_iff, triggers, changed.mem_iff]
    exact ⟨List.mem_map_of_mem mem, rfl⟩

theorem byId?_of_perm {newId : String → String}
    (ids : ∀ mapping, (change mapping).id = newId mapping.id)
    (changed : second.mappings.Perm (first.mappings.map change)) {id : String} {mapping : Mapping}
    (found : first.byId? id = some mapping) : second.byId? (newId id) = some (change mapping) := by
  obtain ⟨mem, rfl⟩ := byId?_eq_some_iff.mp found
  rw [byId?_eq_some_iff, ids, changed.mem_iff]
  exact ⟨List.mem_map_of_mem mem, rfl⟩

end

end FormulaKeys.Registry
