import FormulaKeys.Proofs.Config.Field

/-! Configurations that are read.

Each record is read from its fields one by one, so it is known from what each of them comes to.
What is written for a configuration is read as the same configuration.
-/

set_option autoImplicit false

namespace FormulaKeys.Config

open Document

variable {fields : List (String × Document)}

/-! What is read from a record. -/

def kind? (fields : List (String × Document)) : Option Kind :=
  field? fields "kind" (Kind.decode? .json) none

theorem chord?_eq_some_iff {chord : Chord} :
    chord? fields = some chord ↔
      field? fields "key" char? none = some chord.key ∧
      field? fields "ctrl" bool? (some false) = some chord.ctrl ∧
      field? fields "shift" bool? (some false) = some chord.shift ∧
      field? fields "alt" bool? (some false) = some chord.alt := by
  simp only [chord?, Option.pure_def, Option.bind_eq_bind, Option.bind_eq_some_iff,
    Option.some.injEq]
  constructor
  · rintro ⟨key, hasKey, ctrl, hasCtrl, shift, hasShift, alt, hasAlt, rfl⟩
    exact ⟨hasKey, hasCtrl, hasShift, hasAlt⟩
  · rintro ⟨key, ctrl, shift, alt⟩
    exact ⟨_, key, _, ctrl, _, shift, _, alt, rfl⟩

theorem effect?_eq_some_iff {effect : Effect} :
    effect? .json fields = some effect ↔
      (kind? fields = some .shortcut ∧ ∃ chord, chord? fields = some chord ∧
        .shortcut chord = effect) ∨
      (kind? fields = some .sequence ∧ ∃ text, field? fields "text" str? none = some text ∧
        .sequence text = effect) := by
  unfold effect?
  change (kind? fields).bind _ = _ ↔ _
  cases kind? fields with
  | none => simp
  | some kind =>
    cases kind <;>
      simp only [Option.bind_some, Option.pure_def, Option.bind_eq_bind, Option.bind_eq_some_iff,
        Option.some.injEq, reduceCtorEq, false_and, true_and, or_false, false_or]

/-- JSON has integers of any size. -/
theorem guard_json (fields : List (String × Document)) :
    (guard (Format.json = .json ∨ fieldsHoldWords fields) : Option Unit) = some () :=
  if_pos (.inl rfl)

theorem mapping?_eq_some_iff {mapping : Mapping} :
    mapping? .json (.obj fields) = some mapping ↔
      field? fields "id" str? none = some mapping.id ∧
      field? fields "name" str? (some "") = some mapping.name ∧
      field? fields "trigger" str? none = some mapping.trigger ∧
      effect? .json fields = some mapping.effect ∧
      field? fields "delay" (unlessNull millis?) (some none) = some mapping.delay ∧
      field? fields "advance-key" (unlessNull (navKey? .json)) (some none) =
        some mapping.advanceKey ∧
      field? fields "exit-key" (unlessNull (navKey? .json)) (some none) =
        some mapping.exitKey := by
  rw [mapping?, guard_json]
  simp only [Option.pure_def, Option.bind_eq_bind, Option.bind_some, Option.bind_eq_some_iff,
    Option.some.injEq]
  constructor
  · rintro ⟨id, hasId, name, hasName, trigger, hasTrigger, effect, hasEffect, delay, hasDelay,
      advance, hasAdvance, exit, hasExit, rfl⟩
    exact ⟨hasId, hasName, hasTrigger, hasEffect, hasDelay, hasAdvance, hasExit⟩
  · rintro ⟨id, name, trigger, effect, delay, advance, exit⟩
    exact ⟨_, id, _, name, _, trigger, _, effect, _, delay, _, advance, _, exit, rfl⟩

theorem options?_eq_some_iff {document : Document} {options : Script.Options} :
    options? .json document = some options ↔
      ∃ fields, fields? .json optionNames document = some fields ∧
        field? fields "default-delay-ms" millis? (some 150) = some options.defaultDelay ∧
        field? fields "focus-wait-ms" millis? (some 3000) = some options.focusWait ∧
        field? fields "key-hold-ms" millis? (some 50) = some options.keyHold ∧
        field? fields "nav-delay-ms" millis? (some 100) = some options.navDelay ∧
        field? fields "hotkey" str? (some "F8") = some options.hotkey ∧
        field? fields "key-delay-ms" millis? (some 40) = some options.keyDelay ∧
        field? fields "nav-pause-ms" millis? (some 100) = some options.navPause := by
  simp only [options?, Option.pure_def, Option.bind_eq_bind, Option.bind_eq_some_iff,
    Option.some.injEq]
  constructor
  · rintro ⟨fields, record, defaultDelay, hasDefault, focusWait, hasFocus, keyHold, hasHold,
      navDelay, hasNav, hotkey, hasHotkey, keyDelay, hasDelay, navPause, hasPause, rfl⟩
    exact ⟨fields, record, hasDefault, hasFocus, hasHold, hasNav, hasHotkey, hasDelay, hasPause⟩
  · rintro ⟨fields, record, defaultDelay, focusWait, keyHold, navDelay, hotkey, keyDelay, navPause⟩
    exact ⟨fields, record, _, defaultDelay, _, focusWait, _, keyHold, _, navDelay, _, hotkey, _,
      keyDelay, _, navPause, rfl⟩

theorem decode?_eq_some_iff {document : Document} {config : Config} :
    decode? .json document = some config ↔
      ∃ fields, fields? .json ["mappings", "script"] document = some fields ∧
        field? fields "mappings" (mappings? .json) (some Mapping.starter) =
          some config.mappings ∧
        field? fields "script" (options? .json) (some {}) = some config.script := by
  simp only [decode?, Option.pure_def, Option.bind_eq_bind, Option.bind_eq_some_iff,
    Option.some.injEq]
  constructor
  · rintro ⟨fields, record, mappings, hasMappings, script, hasScript, rfl⟩
    exact ⟨fields, record, hasMappings, hasScript⟩
  · rintro ⟨fields, record, mappings, script⟩
    exact ⟨fields, record, _, mappings, _, script, rfl⟩

/-! What was written is read again. -/

theorem effect?_mappingFields (mapping : Mapping) :
    effect? .json (mappingFields mapping) = some mapping.effect := by
  rw [effect?_eq_some_iff]
  cases effect : mapping.effect with
  | shortcut chord =>
    refine .inl ⟨?_, chord, chord?_eq_some_iff.mpr ⟨?_, ?_, ?_, ?_⟩, rfl⟩
    all_goals simp [kind?, field?, mappingFields, effect, encodeEffect, List.lookup_cons,
      Kind.decode?, char?_singleton, bool?_bool]
  | sequence text =>
    refine .inr ⟨?_, text, ?_, rfl⟩
    all_goals simp [kind?, field?, mappingFields, effect, encodeEffect, List.lookup_cons,
      Kind.decode?, str?_str]

theorem lookup_mappingFields (mapping : Mapping) :
    (mappingFields mapping).lookup "delay" = mapping.delay.map encodeMillis ∧
      (mappingFields mapping).lookup "advance-key" = mapping.advanceKey.map encodeKey ∧
      (mappingFields mapping).lookup "exit-key" = mapping.exitKey.map encodeKey := by
  cases effect : mapping.effect <;>
    simp [mappingFields, effect, encodeEffect, List.lookup_append, List.lookup_cons,
      lookup_encodeOptional]

theorem mapping?_encodeMapping (mapping : Mapping) :
    mapping? .json (encodeMapping mapping) = some mapping := by
  obtain ⟨delay, advance, exit⟩ := lookup_mappingFields mapping
  have keys := navKey?_encodeKey .json
  rw [encodeMapping, mapping?_eq_some_iff]
  -- The optional fields come last, behind an effect that has none of their names.
  refine ⟨?_, ?_, ?_, effect?_mappingFields mapping,
    field?_unlessNull millis?_encodeMillis (fun _ => nofun) delay,
    field?_unlessNull keys (fun _ => nofun) advance,
    field?_unlessNull keys (fun _ => nofun) exit⟩
  all_goals simp [field?, mappingFields, List.lookup_cons, str?_str]

theorem mapM_mapping?_encodeMapping (mappings : List Mapping) :
    (mappings.map encodeMapping).mapM (mapping? .json) = some mappings := by
  induction mappings with
  | nil => rfl
  | cons mapping mappings ih =>
    rw [List.map_cons, List.mapM_cons, mapping?_encodeMapping, ih]
    rfl

theorem options?_encodeOptions (options : Script.Options) :
    options? .json (encodeOptions options) = some options := by
  refine options?_eq_some_iff.mpr ⟨optionFields options, rfl, ?_⟩
  simp [field?, optionFields, List.lookup_cons, str?_str, millis?_encodeMillis]

theorem decode?_encode (config : Config) : decode? .json (encode config) = some config :=
  decode?_eq_some_iff.mpr ⟨_, rfl, mapM_mapping?_encodeMapping config.mappings,
    options?_encodeOptions config.script⟩

end FormulaKeys.Config
