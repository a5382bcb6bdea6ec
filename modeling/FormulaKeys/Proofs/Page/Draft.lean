import FormulaKeys.Page.Draft
import FormulaKeys.Proofs.Config.Field

/-! Configurations of a page and of a document.

A draft can be written as the record of a document, a field for each of its properties. If it has
what no record can do without, the page reads from it what a document gives.
-/

set_option autoImplicit false

namespace FormulaKeys

namespace Page

open Config (encodeMillis lookup_encodeOptional)

/-! Properties and the fields that are named after them. -/

/-- A record with these fields says what the draft says. A property that was left out has no field,
and fields with other names say nothing. -/
structure MappingDraft.HasFields (draft : MappingDraft) (fields : List (String × Document)) :
    Prop where
  id : fields.lookup "id" = draft.id.map .str
  name : fields.lookup "name" = draft.name.map .str
  trigger : fields.lookup "trigger" = draft.trigger.map .str
  kind : fields.lookup "kind" = draft.kind.map .str
  key : fields.lookup "key" = draft.key.map .str
  ctrl : fields.lookup "ctrl" = draft.ctrl.map .bool
  shift : fields.lookup "shift" = draft.shift.map .bool
  alt : fields.lookup "alt" = draft.alt.map .bool
  text : fields.lookup "text" = draft.text.map .str
  delay : fields.lookup "delay" = draft.delay.map encodeMillis
  advanceKey : fields.lookup "advance-key" = draft.advanceKey.map .str
  exitKey : fields.lookup "exit-key" = draft.exitKey.map .str

structure OptionsDraft.HasFields (draft : OptionsDraft) (fields : List (String × Document)) :
    Prop where
  defaultDelay : fields.lookup "default-delay-ms" = draft.defaultDelay.map encodeMillis
  focusWait : fields.lookup "focus-wait-ms" = draft.focusWait.map encodeMillis
  keyHold : fields.lookup "key-hold-ms" = draft.keyHold.map encodeMillis
  navDelay : fields.lookup "nav-delay-ms" = draft.navDelay.map encodeMillis
  hotkey : fields.lookup "hotkey" = draft.hotkey.map .str
  keyDelay : fields.lookup "key-delay-ms" = draft.keyDelay.map encodeMillis
  navPause : fields.lookup "nav-pause-ms" = draft.navPause.map encodeMillis

/-- A field for each property, in the order of the properties. -/
def MappingDraft.record (draft : MappingDraft) : List (String × Document) :=
  Config.encodeOptional "id" .str draft.id ++ Config.encodeOptional "name" .str draft.name ++
    Config.encodeOptional "trigger" .str draft.trigger ++
    Config.encodeOptional "kind" .str draft.kind ++ Config.encodeOptional "key" .str draft.key ++
    Config.encodeOptional "ctrl" .bool draft.ctrl ++
    Config.encodeOptional "shift" .bool draft.shift ++
    Config.encodeOptional "alt" .bool draft.alt ++ Config.encodeOptional "text" .str draft.text ++
    Config.encodeOptional "delay" encodeMillis draft.delay ++
    Config.encodeOptional "advance-key" .str draft.advanceKey ++
    Config.encodeOptional "exit-key" .str draft.exitKey

def OptionsDraft.record (draft : OptionsDraft) : List (String × Document) :=
  Config.encodeOptional "default-delay-ms" encodeMillis draft.defaultDelay ++
    Config.encodeOptional "focus-wait-ms" encodeMillis draft.focusWait ++
    Config.encodeOptional "key-hold-ms" encodeMillis draft.keyHold ++
    Config.encodeOptional "nav-delay-ms" encodeMillis draft.navDelay ++
    Config.encodeOptional "hotkey" .str draft.hotkey ++
    Config.encodeOptional "key-delay-ms" encodeMillis draft.keyDelay ++
    Config.encodeOptional "nav-pause-ms" encodeMillis draft.navPause

theorem MappingDraft.hasFields_record (draft : MappingDraft) : draft.HasFields draft.record := by
  constructor <;> simp [MappingDraft.record, List.lookup_append, lookup_encodeOptional]

theorem OptionsDraft.hasFields_record (draft : OptionsDraft) : draft.HasFields draft.record := by
  constructor <;> simp [OptionsDraft.record, List.lookup_append, lookup_encodeOptional]

def MappingDraft.IsWritten (draft : MappingDraft) (document : Document) : Prop :=
  ∃ fields, document = .obj fields ∧ draft.HasFields fields

def OptionsDraft.IsWritten (draft : OptionsDraft) (document : Document) : Prop :=
  ∃ fields, document = .obj fields ∧ draft.HasFields fields

/-- What a record of a mapping must have. -/
structure MappingDraft.Complete (draft : MappingDraft) : Prop where
  id : draft.id.isSome
  trigger : draft.trigger.isSome
  text : draft.kind = some "sequence" → draft.text.isSome

/-! Mappings. -/

variable {draft : MappingDraft} {fields : List (String × Document)}

theorem MappingDraft.HasFields.key_eq (written : draft.HasFields fields) :
    Document.field? fields "key" Config.char? none = draft.key?.toOption := by
  rw [Document.field?_written written.key, MappingDraft.key?]
  cases draft.key with
  | none => rfl
  | some key =>
    simp only [Option.elim_some, Config.char?]
    rcases key.toList with _ | ⟨c, _ | _⟩ <;> rfl

theorem MappingDraft.HasFields.chord_eq (written : draft.HasFields fields) :
    Config.chord? fields = draft.key?.toOption.map fun key =>
      ⟨key, draft.ctrl.getD false, draft.shift.getD false, draft.alt.getD false⟩ := by
  have flags := Document.bool?_bool
  rw [Config.chord?, written.key_eq, Document.field?_default flags written.ctrl,
    Document.field?_default flags written.shift, Document.field?_default flags written.alt]
  cases draft.key?.toOption <;> rfl

theorem MappingDraft.HasFields.effect_eq (written : draft.HasFields fields)
    (complete : draft.Complete) : Config.effect? .json fields = draft.effect?.toOption := by
  rw [Config.effect?, Document.field?_written written.kind, MappingDraft.effect?]
  cases kind : draft.kind with
  | none => rfl
  | some name =>
    -- The kinds are told apart by their names, and all other names are refused together.
    by_cases shortcut : name = "shortcut"
    · subst shortcut
      simp only [Option.elim_some, Config.Kind.decode?, written.chord_eq]
      cases draft.key? <;> rfl
    by_cases sequence : name = "sequence"
    · subst sequence
      obtain ⟨text, given⟩ := Option.isSome_iff_exists.mp (complete.text kind)
      simp only [Option.elim_some, Config.Kind.decode?,
        Document.field?_required Document.str?_str written.text, given]
      rfl
    · have unknown : Config.Kind.decode? .json (.str name) = none := by
        simp [Config.Kind.decode?, shortcut, sequence]
      simp only [Option.elim_some, unknown]
      split
      next same => exact absurd (Option.some.inj same) shortcut
      next same => exact absurd (Option.some.inj same) sequence
      next => rfl

theorem navKey?_eq {name : String} {value : Option String} (property : String)
    (known : fields.lookup name = value.map .str) :
    Document.field? fields name (Config.unlessNull (Config.navKey? .json)) (some none) =
      (MappingDraft.navKey? property value).toOption := by
  rw [Document.field?_written known]
  cases value with
  | none => rfl
  | some name =>
    simp only [Option.elim_some, Config.unlessNull, Config.navKey?, MappingDraft.navKey?]
    cases NavKey.ofName? name <;> rfl

theorem MappingDraft.HasFields.delay_eq (written : draft.HasFields fields) :
    Document.field? fields "delay" (Config.unlessNull Config.millis?) (some none) =
      some draft.delay :=
  Document.field?_unlessNull Config.millis?_encodeMillis (fun _ => nofun) written.delay

theorem MappingDraft.HasFields.mapping_eq (written : draft.HasFields fields)
    (complete : draft.Complete) :
    Config.mapping? .json (.obj fields) = draft.mapping?.toOption := by
  have texts := Document.str?_str
  obtain ⟨id, hasId⟩ := Option.isSome_iff_exists.mp complete.id
  obtain ⟨trigger, hasTrigger⟩ := Option.isSome_iff_exists.mp complete.trigger
  rw [Config.mapping?, MappingDraft.mapping?, Document.field?_required texts written.id, hasId,
    Document.field?_default texts written.name, Document.field?_required texts written.trigger,
    hasTrigger, written.effect_eq complete, written.delay_eq,
    navKey?_eq "advanceKey" written.advanceKey, navKey?_eq "exitKey" written.exitKey]
  -- The keys are read in the same order, so that both sides give up at the same one.
  cases draft.effect? with
  | error fault => rfl
  | ok effect =>
    cases MappingDraft.navKey? "advanceKey" draft.advanceKey with
    | error fault => rfl
    | ok advanceKey =>
      cases MappingDraft.navKey? "exitKey" draft.exitKey with
      | error fault => rfl
      | ok exitKey => rfl

theorem OptionsDraft.HasFields.options_eq {draft : OptionsDraft}
    (written : draft.HasFields fields) :
    Config.options? .json (.obj fields) = some draft.options := by
  have texts := Document.str?_str
  have times := Config.millis?_encodeMillis
  simp only [Config.options?, Config.fields?, Option.bind_eq_bind, Option.bind_some,
    Document.field?_default times written.defaultDelay,
    Document.field?_default times written.focusWait,
    Document.field?_default times written.keyHold,
    Document.field?_default times written.navDelay,
    Document.field?_default texts written.hotkey,
    Document.field?_default times written.keyDelay,
    Document.field?_default times written.navPause]
  rfl

end Page

end FormulaKeys
