import FormulaKeys.Registry
import Mathlib.Data.List.Nodup
import Mathlib.Tactic.SplitIfs

/-! Indexes while they are filled.

After any number of mappings, each index says of every key where it stands among these mappings, and
knows no other key. One mapping keeps this up if it is accepted, so all of them do; and a mapping is
accepted whenever it is fit and its id and its trigger are new.
-/

set_option autoImplicit false

namespace FormulaKeys.Registry

namespace Index

/-- The index of a list of keys. -/
def Of (index : Index) (keys : List String) : Prop :=
  ∀ key position, index.get? key = some position ↔ keys[position]? = some key

variable {index : Index} {keys : List String} {key : String}

theorem of_empty : ({} : Index).Of [] := by
  intro key position
  simp [get?_empty]

theorem Of.get?_eq_none_iff (exact : index.Of keys) : index.get? key = none ↔ key ∉ keys := by
  rw [Option.eq_none_iff_forall_ne_some, List.mem_iff_getElem?, not_exists]
  exact forall_congr' fun position => not_congr (exact key position)

/-- A key that is new can be put behind the others. -/
theorem Of.insert (exact : index.Of keys) (fresh : key ∉ keys) :
    (index.insert key keys.length).2.Of (keys ++ [key]) := by
  intro other position
  rw [get?_insert]
  split
  next same =>
    subst same
    constructor
    · intro last
      cases last
      exact List.getElem?_concat_length
    · intro found
      rw [List.getElem?_append] at found
      split at found
      next inside => exact (fresh (List.mem_of_getElem? found)).elim
      next outside =>
        have inside := (List.getElem?_eq_some_iff.mp found).1
        rw [List.length_singleton] at inside
        rw [Option.some_inj]
        omega
  next apart =>
    rw [exact other position, List.getElem?_append]
    split
    next => exact Iff.rfl
    next outside =>
      rw [List.getElem?_eq_none (Nat.le_of_not_lt outside)]
      constructor
      · intro found
        cases found
      · intro found
        exact (apart (List.mem_singleton.mp (List.mem_of_getElem? found))).elim

/-- No key stands at two positions. -/
theorem Of.nodup (exact : index.Of keys) : keys.Nodup := by
  rw [List.nodup_iff_getElem?_ne_getElem?]
  intro first second before inside same
  have found := List.getElem?_eq_getElem inside
  have one := (exact _ _).mpr (same.trans found)
  have other := (exact _ _).mpr found
  exact Nat.ne_of_lt before (Option.some.inj (one.symm.trans other))

/-- Where a value has a key, the index leads from the key to the value. -/
theorem Of.bind_eq_some_iff {Value : Type} {values : List Value} {name : Value → String}
    (exact : index.Of (values.map name)) {value : Value} :
    ((index.get? key).bind fun position => values[position]?) = some value ↔
      value ∈ values ∧ name value = key := by
  rw [Option.bind_eq_some_iff]
  constructor
  · rintro ⟨position, stands, found⟩
    have named := (exact key position).mp stands
    rw [List.getElem?_map, found] at named
    exact ⟨List.mem_of_getElem? found, Option.some.inj named⟩
  · rintro ⟨mem, rfl⟩
    obtain ⟨position, found⟩ := List.mem_iff_getElem?.mp mem
    refine ⟨position, (exact _ position).mpr ?_, found⟩
    rw [List.getElem?_map, found, Option.map_some]

theorem Of.bind_eq_none_iff {Value : Type} {values : List Value} {name : Value → String}
    (exact : index.Of (values.map name)) :
    ((index.get? key).bind fun position => values[position]?) = none ↔
      ∀ value ∈ values, name value ≠ key := by
  rw [Option.eq_none_iff_forall_ne_some]
  simp only [ne_eq, exact.bind_eq_some_iff, not_and]

end Index

namespace Indexes

/-- What the two indexes hold when these mappings have been entered: the mappings are fit, and each
index is the one of their keys. -/
structure Of (indexes : Indexes) (mappings : List Mapping) : Prop where
  id_ne_empty : ∀ mapping ∈ mappings, mapping.id ≠ ""
  isTrigger : ∀ mapping ∈ mappings, IsTrigger mapping.trigger
  ids : indexes.ids.Of (mappings.map Mapping.id)
  triggers : indexes.triggers.Of (mappings.map Mapping.trigger)

variable {indexes larger : Indexes} {before rest : List Mapping} {mapping : Mapping}

theorem of_empty : ({} : Indexes).Of [] :=
  ⟨List.forall_mem_nil _, List.forall_mem_nil _, Index.of_empty, Index.of_empty⟩

/-- Each index answers whether a key is taken, so entering a mapping comes to these tests. -/
theorem Of.add_eq (entered : indexes.Of before) (position : Nat) (mapping : Mapping) :
    indexes.add position mapping =
      if mapping.id = "" then .error .emptyId
      else if mapping.trigger = "" then .error .emptyTrigger
      else if ¬IsTrigger mapping.trigger then .error (.invalidTrigger mapping.trigger)
      else if ∃ other ∈ before, other.id = mapping.id then .error (.duplicateId mapping.id)
      else if ∃ other ∈ before, other.trigger = mapping.trigger then
        .error (.duplicateTrigger mapping.trigger)
      else .ok ⟨(indexes.ids.insert mapping.id position).2,
        (indexes.triggers.insert mapping.trigger position).2⟩ := by
  simp only [add, Index.insert, ← List.mem_map]
  congr 3
  cases sameId : indexes.ids.get? mapping.id with
  | some =>
    have taken : mapping.id ∈ before.map Mapping.id := by
      by_contra free
      cases sameId.symm.trans (entered.ids.get?_eq_none_iff.mpr free)
    rw [if_pos taken]
  | none =>
    rw [if_neg (entered.ids.get?_eq_none_iff.mp sameId)]
    cases sameTrigger : indexes.triggers.get? mapping.trigger with
    | some =>
      have taken : mapping.trigger ∈ before.map Mapping.trigger := by
        by_contra free
        cases sameTrigger.symm.trans (entered.triggers.get?_eq_none_iff.mpr free)
      rw [if_pos taken]
    | none => rw [if_neg (entered.triggers.get?_eq_none_iff.mp sameTrigger)]

/-- A mapping that can stand behind these. -/
structure Fits (before : List Mapping) (mapping : Mapping) : Prop where
  id_ne_empty : mapping.id ≠ ""
  isTrigger : IsTrigger mapping.trigger
  newId : ¬∃ other ∈ before, other.id = mapping.id
  newTrigger : ¬∃ other ∈ before, other.trigger = mapping.trigger

theorem trigger_ne_empty {trigger : String} (usable : IsTrigger trigger) : trigger ≠ "" := by
  rintro rfl
  simp [IsTrigger] at usable

theorem Of.add_eq_ok_iff (entered : indexes.Of before) (position : Nat) :
    indexes.add position mapping = .ok larger ↔
      Fits before mapping ∧
        larger = ⟨(indexes.ids.insert mapping.id position).2,
          (indexes.triggers.insert mapping.trigger position).2⟩ := by
  rw [entered.add_eq]
  constructor
  · intro added
    split_ifs at added with noId noTrigger usable idTaken triggerTaken
    cases added
    exact ⟨⟨noId, usable, idTaken, triggerTaken⟩, rfl⟩
  · rintro ⟨fits, rfl⟩
    rw [if_neg fits.id_ne_empty, if_neg (trigger_ne_empty fits.isTrigger),
      if_neg (not_not.mpr fits.isTrigger), if_neg fits.newId, if_neg fits.newTrigger]

/-- One mapping that is accepted keeps the indexes filled. -/
theorem Of.add (entered : indexes.Of before)
    (added : indexes.add before.length mapping = .ok larger) : larger.Of (before ++ [mapping]) := by
  obtain ⟨fits, rfl⟩ := (entered.add_eq_ok_iff before.length).mp added
  constructor
  case id_ne_empty =>
    exact List.forall_mem_append.mpr
      ⟨entered.id_ne_empty, List.forall_mem_singleton.mpr fits.id_ne_empty⟩
  case isTrigger =>
    exact List.forall_mem_append.mpr
      ⟨entered.isTrigger, List.forall_mem_singleton.mpr fits.isTrigger⟩
  case ids =>
    have inserted := entered.ids.insert (fun mem => fits.newId (List.mem_map.mp mem))
    rwa [List.length_map, ← List.map_singleton, ← List.map_append] at inserted
  case triggers =>
    have inserted := entered.triggers.insert (fun mem => fits.newTrigger (List.mem_map.mp mem))
    rwa [List.length_map, ← List.map_singleton, ← List.map_append] at inserted

/-- Hence all of them do. -/
theorem Of.addAll (entered : indexes.Of before)
    (added : indexes.addAll before.length rest = .ok larger) : larger.Of (before ++ rest) := by
  induction rest generalizing indexes before with
  | nil =>
    cases added
    rwa [List.append_nil]
  | cons mapping rest ih =>
    rw [Indexes.addAll] at added
    split at added
    next between first =>
      have next := entered.add first
      rw [List.append_cons]
      apply ih next
      rwa [List.length_append]
    next => cases added

/-- Mappings of which each fits behind those in front of it are all entered. -/
theorem Of.exists_addAll (entered : indexes.Of before)
    (id_ne_empty : ∀ mapping ∈ rest, mapping.id ≠ "")
    (isTrigger : ∀ mapping ∈ rest, IsTrigger mapping.trigger)
    (ids_nodup : ((before ++ rest).map Mapping.id).Nodup)
    (triggers_nodup : ((before ++ rest).map Mapping.trigger).Nodup) :
    ∃ larger, indexes.addAll before.length rest = .ok larger := by
  induction rest generalizing indexes before with
  | nil => exact ⟨indexes, rfl⟩
  | cons mapping rest ih =>
    rw [List.forall_mem_cons] at id_ne_empty isTrigger
    rw [List.append_cons] at ids_nodup triggers_nodup
    have newKey {name : Mapping → String}
        (distinct : ((before ++ [mapping] ++ rest).map name).Nodup) :
        ¬∃ other ∈ before, name other = name mapping := by
      rintro ⟨other, earlier, same⟩
      rw [List.append_assoc, List.map_append, List.nodup_append] at distinct
      exact distinct.2.2 _ (List.mem_map_of_mem earlier) _
        (List.mem_map_of_mem List.mem_cons_self) same
    have fits : Fits before mapping :=
      ⟨id_ne_empty.1, isTrigger.1, newKey ids_nodup, newKey triggers_nodup⟩
    have first := (entered.add_eq_ok_iff before.length).mpr ⟨fits, rfl⟩
    obtain ⟨larger, behind⟩ := ih (entered.add first) id_ne_empty.2 isTrigger.2 ids_nodup
      triggers_nodup
    rw [List.length_append] at behind
    exact ⟨larger, by rw [Indexes.addAll, first]; exact behind⟩

end Indexes

end FormulaKeys.Registry
