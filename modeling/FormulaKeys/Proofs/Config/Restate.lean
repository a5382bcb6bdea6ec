import FormulaKeys.Proofs.Config.Decode
import Mathlib.Data.List.Forall2

/-! What a document says about a configuration.

A record knows some fields, writes a default for those without a value, and passes over all others.
A few values have more than one spelling; whichever was read, the plain one is written.
-/

set_option autoImplicit false

namespace FormulaKeys.Config

open Document

/-! The document that says the same. -/

/-- A field that a record knows. -/
structure Slot where
  name : String
  /-- What is written where the field has no value. -/
  standard : Option Document := none
  spell : Document → Document := id

/-- What is written for the field. -/
def Slot.carried (slot : Slot) : Option Document → Option Document
  | none | some .null => slot.standard
  | some value => some (slot.spell value)

/-- The known fields and no others, in their order. -/
def restated (slots : List Slot) (fields : List (String × Document)) : List (String × Document) :=
  slots.filterMap fun slot => (slot.carried (fields.lookup slot.name)).map (slot.name, ·)

/-- How the values are written that have more than one spelling. -/
structure Spelling where
  kind : Document → Document
  key : Document → Document

namespace Spelling

/-- As they were given. -/
def literal : Spelling := ⟨id, id⟩

/-- By their names. -/
def plain : Spelling where
  kind
    | .int 0 => .str "shortcut"
    | .int 1 => .str "sequence"
    | kind => kind
  key
    | .obj [(name, _)] => .str name
    | key => key

end Spelling

def effectSlots : Kind → List Slot
  | .shortcut =>
    [{ name := "key" }, { name := "ctrl", standard := some (.bool false) },
      { name := "shift", standard := some (.bool false) },
      { name := "alt", standard := some (.bool false) }]
  | .sequence => [{ name := "text" }]

/-- The fields of all mappings and those of the kind. -/
def mappingSlots (spelling : Spelling) (kind : Option Kind) : List Slot :=
  [{ name := "id" }, { name := "name", standard := some (.str "") }, { name := "trigger" },
    { name := "kind", spell := spelling.kind }] ++ kind.elim [] effectSlots ++
    [{ name := "delay" }, { name := "advance-key", spell := spelling.key },
      { name := "exit-key", spell := spelling.key }]

def optionSlots : List Slot :=
  [{ name := "default-delay-ms", standard := some (.int 150) },
    { name := "focus-wait-ms", standard := some (.int 3000) },
    { name := "key-hold-ms", standard := some (.int 50) },
    { name := "nav-delay-ms", standard := some (.int 100) },
    { name := "hotkey", standard := some (.str "F8") },
    { name := "key-delay-ms", standard := some (.int 40) },
    { name := "nav-pause-ms", standard := some (.int 100) }]

def restateMapping (spelling : Spelling) : Document → Document
  | .obj fields => .obj (restated (mappingSlots spelling (kind? fields)) fields)
  | document => document

/-- Mapping by mapping; only where there is no list are there the mappings to begin with. -/
def restateMappings (spelling : Spelling) : Option Document → Document
  | none => .arr (Mapping.starter.map encodeMapping)
  | some (.arr items) => .arr (items.map (restateMapping spelling))
  | some document => document

/-- The fields of a record; a list gives the values of the first of its names. -/
def entries (names : List String) (document : Document) : List (String × Document) :=
  (fields? .json names document).getD []

def restateOptions (document : Option Document) : Document :=
  .obj (restated optionSlots (document.elim [] (entries optionNames)))

def restate (spelling : Spelling) (document : Document) : Document :=
  let fields := entries ["mappings", "script"] document
  .obj [("mappings", restateMappings spelling (fields.lookup "mappings")),
    ("script", restateOptions (fields.lookup "script"))]

/-! Readers and writers of values. -/

/-- Whatever is read is written as this spelling has it. -/
def Restates {Value : Type} (read : Document → Option Value) (write : Value → Document)
    (spell : Document → Document) : Prop :=
  ∀ document value, read document = some value → document ≠ .null ∧ spell document = write value

theorem restates_str : Restates str? .str id := by
  rintro (_ | _ | _ | _ | _ | text | _ | _) value read <;> cases read
  exact ⟨nofun, rfl⟩

theorem restates_bool : Restates bool? .bool id := by
  rintro (_ | flag | _ | _ | _ | _ | _ | _) value read <;> cases read
  exact ⟨nofun, rfl⟩

theorem restates_millis : Restates millis? encodeMillis id := by
  intro document time read
  unfold millis? at read
  split at read
  next value =>
    split at read
    next bounds =>
      cases read
      refine ⟨nofun, congrArg Document.int ?_⟩
      rw [UInt32.toNat_ofNat_of_lt' bounds.2]
      exact (Int.toNat_of_nonneg bounds.1).symm
    next => cases read
  next => cases read

theorem restates_char : Restates char? (fun c => .str (String.singleton c)) id := by
  intro document c read
  unfold char? at read
  split at read
  next text =>
    split at read
    next only =>
      cases read
      refine ⟨nofun, congrArg Document.str ?_⟩
      rw [← String.ofList_toList (s := text), only]
      rfl
    next => cases read
  next => cases read

def Kind.name : Kind → String
  | shortcut => "shortcut"
  | sequence => "sequence"

theorem restates_kind :
    Restates (Kind.decode? .json) (fun kind => .str kind.name) Spelling.plain.kind := by
  intro document kind read
  unfold Kind.decode? at read
  split at read <;> cases read <;> exact ⟨nofun, rfl⟩

theorem restates_key : Restates (navKey? .json) encodeKey Spelling.plain.key := by
  intro document key read
  unfold navKey? at read
  split at read
  next name =>
    exact ⟨nofun, by rw [encodeKey, NavKey.name_of_ofName? read]; rfl⟩
  next name payload =>
    split at read
    next => exact ⟨nofun, by rw [encodeKey, NavKey.name_of_ofName? read]; rfl⟩
    next => cases read
  next => cases read

/-! Records. -/

section
variable {Value : Type} {read : Document → Option Value} {write : Value → Document}
  {spell : Document → Document} {fields : List (String × Document)} {name : String}

theorem carried_of_field? {absent : Option Value} {value : Value} (standard : Option Document)
    (restates : Restates read write spell) (found : field? fields name read absent = some value)
    (left : standard = absent.map write) :
    Slot.carried ⟨name, standard, spell⟩ (fields.lookup name) = some (write value) := by
  unfold field? at found
  split at found
  next document given =>
    obtain ⟨notNull, same⟩ := restates document value found
    rw [given, Slot.carried]
    · exact congrArg some same
    · exact notNull
  next missing =>
    rw [missing, Slot.carried, left, found]
    rfl

theorem carried_of_unlessNull {value : Option Value} (restates : Restates read write spell)
    (found : field? fields name (unlessNull read) (some none) = some value) :
    Slot.carried ⟨name, none, spell⟩ (fields.lookup name) = value.map write := by
  unfold field? at found
  split at found
  next document given =>
    unfold unlessNull at found
    split at found
    next =>
      cases found
      rw [given]
      rfl
    next notNull =>
      obtain ⟨inner, known, rfl⟩ := Option.map_eq_some_iff.mp found
      rw [given, Slot.carried]
      · exact congrArg some (restates document inner known).2
      · exact notNull
  next missing =>
    cases found
    rw [missing]
    rfl

theorem restated_cons (slot : Slot) (slots : List Slot) (fields : List (String × Document)) :
    restated (slot :: slots) fields =
      encodeOptional slot.name id (slot.carried (fields.lookup slot.name)) ++
        restated slots fields := by
  rw [restated, List.filterMap_cons]
  cases slot.carried (fields.lookup slot.name) <;> rfl

theorem restated_append (first second : List Slot) (fields : List (String × Document)) :
    restated (first ++ second) fields = restated first fields ++ restated second fields :=
  List.filterMap_append

theorem encodeOptional_map (name : String) (write : Value → Document) (value : Option Value) :
    encodeOptional name id (value.map write) = encodeOptional name write value := by
  cases value <;> rfl

end

variable {fields : List (String × Document)}

theorem encodeEffect_eq {effect : Effect} (known : effect? .json fields = some effect) :
    ∃ kind, kind? fields = some kind ∧
      encodeEffect effect = ("kind", .str kind.name) :: restated (effectSlots kind) fields := by
  rcases effect?_eq_some_iff.mp known with ⟨kind, chord, given, rfl⟩ | ⟨kind, text, given, rfl⟩
  · obtain ⟨key, ctrl, shift, alt⟩ := chord?_eq_some_iff.mp given
    refine ⟨.shortcut, kind, ?_⟩
    simp only [effectSlots, restated_cons, carried_of_field? none restates_char key rfl,
      carried_of_field? (some (.bool false)) restates_bool ctrl rfl,
      carried_of_field? (some (.bool false)) restates_bool shift rfl,
      carried_of_field? (some (.bool false)) restates_bool alt rfl]
    rfl
  · refine ⟨.sequence, kind, ?_⟩
    simp only [effectSlots, restated_cons, carried_of_field? none restates_str given rfl]
    rfl

theorem encodeMapping_eq {document : Document} {mapping : Mapping}
    (known : mapping? .json document = some mapping) :
    encodeMapping mapping = restateMapping .plain document := by
  cases document with
  | obj fields =>
    obtain ⟨id, name, trigger, effect, delay, advance, exit⟩ := mapping?_eq_some_iff.mp known
    obtain ⟨kind, given, written⟩ := encodeEffect_eq effect
    rw [encodeMapping, restateMapping, given, mappingFields, written]
    congr 1
    -- The fields of the kind stand in the middle, so they are split off as they were written.
    simp only [mappingSlots, Option.elim_some, restated_append, restated_cons,
      carried_of_field? none restates_str id rfl,
      carried_of_field? (some (.str "")) restates_str name rfl,
      carried_of_field? none restates_str trigger rfl,
      carried_of_field? none restates_kind given rfl,
      carried_of_unlessNull restates_millis delay, carried_of_unlessNull restates_key advance,
      carried_of_unlessNull restates_key exit, encodeOptional_map]
    simp [encodeOptional, restated]
  | _ => cases known

theorem map_encodeMapping_eq {items : List Document} {mappings : List Mapping}
    (known : items.mapM (mapping? .json) = some mappings) :
    mappings.map encodeMapping = items.map (restateMapping .plain) := by
  induction items generalizing mappings with
  | nil =>
    cases known
    rfl
  | cons item items ih =>
    simp only [List.mapM_cons, Option.pure_def, Option.bind_eq_bind, Option.bind_eq_some_iff,
      Option.some.injEq] at known
    obtain ⟨mapping, first, others, rest, rfl⟩ := known
    rw [List.map_cons, List.map_cons, encodeMapping_eq first, ih rest]

theorem encodeOptions_eq {document : Document} {options : Script.Options}
    (known : options? .json document = some options) :
    encodeOptions options = restateOptions (some document) := by
  obtain ⟨fields, record, defaultDelay, focusWait, keyHold, navDelay, hotkey, keyDelay, navPause⟩ :=
    options?_eq_some_iff.mp known
  rw [encodeOptions, restateOptions, Option.elim_some, entries, record, Option.getD_some]
  congr 1
  simp only [optionSlots, restated_cons,
    carried_of_field? (some (.int 150)) restates_millis defaultDelay rfl,
    carried_of_field? (some (.int 3000)) restates_millis focusWait rfl,
    carried_of_field? (some (.int 50)) restates_millis keyHold rfl,
    carried_of_field? (some (.int 100)) restates_millis navDelay rfl,
    carried_of_field? (some (.str "F8")) restates_str hotkey rfl,
    carried_of_field? (some (.int 40)) restates_millis keyDelay rfl,
    carried_of_field? (some (.int 100)) restates_millis navPause rfl]
  rfl

/-- What is written for a configuration is what the document says that it was read from. -/
theorem encode_eq {document : Document} {config : Config}
    (known : decode? .json document = some config) : encode config = restate .plain document := by
  obtain ⟨fields, record, mappings, script⟩ := decode?_eq_some_iff.mp known
  have first : .arr (config.mappings.map encodeMapping) =
      restateMappings .plain (fields.lookup "mappings") := by
    unfold field? at mappings
    split at mappings
    next value given =>
      -- Nothing but a list is read, and so an empty list is not taken for a missing one.
      cases value with
      | arr items => rw [given, restateMappings, map_encodeMapping_eq mappings]
      | _ => cases mappings
    next missing =>
      rw [missing, ← Option.some.inj mappings]
      rfl
  have second : encodeOptions config.script = restateOptions (fields.lookup "script") := by
    unfold field? at script
    split at script
    next value given => rw [given, encodeOptions_eq script]
    next missing =>
      rw [missing, ← Option.some.inj script]
      rfl
  rw [encode, restate, entries, record]
  simp only [Option.getD_some, first, second]

/-! What has no influence. -/

def knownNames (kind : Option Kind) : List String :=
  (mappingSlots .plain kind).map Slot.name

theorem mem_knownNames (kind : Option Kind) :
    ∀ name ∈ ["id", "name", "trigger", "kind", "delay", "advance-key", "exit-key"],
      name ∈ knownNames kind := by
  rcases kind with _ | _ | _ <;> decide

/-- The fields of these names are the same. -/
def AgreeOn (names : List String) (first second : List (String × Document)) : Prop :=
  ∀ name ∈ names, first.lookup name = second.lookup name

/-- Mappings that differ in fields which no mapping of their kind knows. -/
inductive MappingAlike : Document → Document → Prop where
  | intro {first second : List (String × Document)}
      (agree : AgreeOn (knownNames (kind? first)) first second) :
      MappingAlike (.obj first) (.obj second)

inductive MappingsAlike : Document → Document → Prop where
  | intro {first second : List Document} (each : List.Forall₂ MappingAlike first second) :
      MappingsAlike (.arr first) (.arr second)

inductive OptionsAlike : Document → Document → Prop where
  | intro {first second : Document} {fields others : List (String × Document)}
      (record : fields? .json optionNames first = some fields)
      (other : fields? .json optionNames second = some others)
      (agree : AgreeOn optionNames fields others) : OptionsAlike first second

/-- Configurations that differ in unknown fields, and in fields of the other kind of mapping. -/
inductive Alike : Document → Document → Prop where
  | intro {first second : Document} {fields others : List (String × Document)}
      (record : fields? .json ["mappings", "script"] first = some fields)
      (other : fields? .json ["mappings", "script"] second = some others)
      (mappings : Option.Rel MappingsAlike (fields.lookup "mappings") (others.lookup "mappings"))
      (script : Option.Rel OptionsAlike (fields.lookup "script") (others.lookup "script")) :
      Alike first second

section
variable {Value : Type} {first second : List (String × Document)}

theorem AgreeOn.field?_eq {names : List String} (agree : AgreeOn names first second) {name : String}
    (mem : name ∈ names) (read : Document → Option Value) (absent : Option Value) :
    field? first name read absent = field? second name read absent := by
  rw [field?, agree name mem, field?]

theorem field?_eq_of_rel {name : String} {alike : Document → Document → Prop}
    {read : Document → Option Value} {absent : Option Value}
    (same : Option.Rel alike (first.lookup name) (second.lookup name))
    (reads : ∀ {one other}, alike one other → read one = read other) :
    field? first name read absent = field? second name read absent := by
  unfold field?
  generalize first.lookup name = given at same ⊢
  generalize second.lookup name = others at same ⊢
  cases same with
  | some one => exact reads one
  | none => rfl

theorem AgreeOn.effect?_eq (agree : AgreeOn (knownNames (kind? first)) first second) :
    effect? .json first = effect? .json second := by
  have kind : kind? first = kind? second :=
    agree.field?_eq (mem_knownNames _ "kind" (by simp)) _ _
  unfold effect?
  change (kind? first).bind _ = (kind? second).bind _
  rw [← kind]
  cases given : kind? first with
  | none => rfl
  | some kind =>
    rw [given] at agree
    cases kind with
    | shortcut =>
      have known : ∀ name ∈ ["key", "ctrl", "shift", "alt"],
          name ∈ knownNames (some .shortcut) := by
        decide
      simp only [Option.bind_some, chord?, agree.field?_eq (known "key" (by simp)),
        agree.field?_eq (known "ctrl" (by simp)), agree.field?_eq (known "shift" (by simp)),
        agree.field?_eq (known "alt" (by simp))]
    | sequence =>
      have known : "text" ∈ knownNames (some .sequence) := by decide
      simp only [Option.bind_some, agree.field?_eq known]

end

section
variable {first second : Document}

theorem MappingAlike.mapping?_eq (alike : MappingAlike first second) :
    mapping? .json first = mapping? .json second := by
  cases alike with
  | @intro first second agree =>
    have known := mem_knownNames (kind? first)
    rw [mapping?, mapping?, guard_json, guard_json, agree.effect?_eq]
    simp only [agree.field?_eq (known "id" (by simp)), agree.field?_eq (known "name" (by simp)),
      agree.field?_eq (known "trigger" (by simp)), agree.field?_eq (known "delay" (by simp)),
      agree.field?_eq (known "advance-key" (by simp)),
      agree.field?_eq (known "exit-key" (by simp))]

theorem MappingsAlike.mappings?_eq (alike : MappingsAlike first second) :
    mappings? .json first = mappings? .json second := by
  cases alike with
  | intro each =>
    simp only [mappings?]
    induction each with
    | nil => rfl
    | cons alike _ ih => rw [List.mapM_cons, List.mapM_cons, alike.mapping?_eq, ih]

theorem OptionsAlike.options?_eq (alike : OptionsAlike first second) :
    options? .json first = options? .json second := by
  obtain ⟨record, other, agree⟩ := alike
  simp only [options?, record, other, Option.bind_eq_bind, Option.bind_some]
  simp only [agree.field?_eq (show "default-delay-ms" ∈ optionNames by decide),
    agree.field?_eq (show "focus-wait-ms" ∈ optionNames by decide),
    agree.field?_eq (show "key-hold-ms" ∈ optionNames by decide),
    agree.field?_eq (show "nav-delay-ms" ∈ optionNames by decide),
    agree.field?_eq (show "hotkey" ∈ optionNames by decide),
    agree.field?_eq (show "key-delay-ms" ∈ optionNames by decide),
    agree.field?_eq (show "nav-pause-ms" ∈ optionNames by decide)]

theorem Alike.decode?_eq (alike : Alike first second) :
    decode? .json first = decode? .json second := by
  obtain ⟨record, other, mappings, script⟩ := alike
  simp only [decode?, record, other, Option.bind_eq_bind, Option.bind_some,
    field?_eq_of_rel mappings MappingsAlike.mappings?_eq,
    field?_eq_of_rel script OptionsAlike.options?_eq]

end

/-! Nothing is lost. -/

/-- A configuration that is written is read as it was. One that was read is written as the document
says that it was read from, and what else there was in the document had no influence. -/
theorem decode?_json_encode :
    (∀ config, decode? .json (encode config) = some config) ∧
      ∀ document config, decode? .json document = some config →
        encode config = restate .plain document ∧
          decode? .json (encode config) = some config ∧
          ∀ other, Alike document other → decode? .json other = some config := by
  refine ⟨decode?_encode, fun document config known => ?_⟩
  exact ⟨encode_eq known, decode?_encode config, fun other alike => alike.decode?_eq ▸ known⟩

/-- A sequence with an exit key that is named by the only field of a record, and with fields of
which no sequence knows anything. -/
def tabbed (others : List (String × Document)) : Document :=
  .obj [("mappings", .arr [.obj ([("id", .str "a"), ("trigger", .str "a"),
    ("kind", .str "sequence"), ("text", .str ""), ("exit-key", .obj [("Tab", .null)])] ++
    others)])]

theorem decode?_json_encode_tabbed :
    ∃ config, decode? .json (tabbed []) = some config ∧
      encode config = restate .plain (tabbed []) ∧
      decode? .json (encode config) = some config ∧
      Alike (tabbed []) (tabbed [("ctrl", .int 7), ("note", .arr [])]) ∧
      decode? .json (tabbed [("ctrl", .int 7), ("note", .arr [])]) = some config := by
  have known : decode? .json (tabbed []) =
      some ⟨[⟨"a", "", "a", .sequence "", none, none, some .tab⟩], {}⟩ := rfl
  have alike : Alike (tabbed []) (tabbed [("ctrl", .int 7), ("note", .arr [])]) := by
    refine .intro rfl rfl (.some (.intro (.cons (.intro ?_) .nil))) .none
    have kind : kind? [("id", .str "a"), ("trigger", .str "a"), ("kind", .str "sequence"),
        ("text", .str ""), ("exit-key", .obj [("Tab", .null)])] = some .sequence := rfl
    intro name mem
    rw [List.append_nil, kind] at mem
    simp only [knownNames, mappingSlots, effectSlots, Option.elim_some, List.cons_append,
      List.nil_append, List.map_cons, List.map_nil, List.mem_cons, List.not_mem_nil,
      or_false] at mem
    rcases mem with rfl | rfl | rfl | rfl | rfl | rfl | rfl | rfl <;> rfl
  obtain ⟨same, again, others⟩ := decode?_json_encode.2 _ _ known
  exact ⟨_, known, same, again, alike, others _ alike⟩

/-- What was given for the exit key is not what is written. -/
theorem encode_ne_restate_literal :
    ∃ config, decode? .json (tabbed []) = some config ∧
      encode config ≠ restate .literal (tabbed []) := by
  refine ⟨⟨[⟨"a", "", "a", .sequence "", none, none, some .tab⟩], {}⟩, rfl, fun same => ?_⟩
  simp [encode, restate, entries, fields?, tabbed, restateMappings, restateMapping, restated,
    mappingSlots, effectSlots, kind?, field?, Kind.decode?, List.lookup_cons, Slot.carried,
    encodeMapping, mappingFields, encodeEffect, encodeOptional, Spelling.literal, encodeKey] at same

end FormulaKeys.Config
