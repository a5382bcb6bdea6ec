import FormulaKeys.Page.Converter
import FormulaKeys.Proofs.Converter
import FormulaKeys.Proofs.Page.Draft
import Mathlib.Data.List.Forall2

/-! The page and the document that is written from it.

Whether the drafts or their document are read, the configuration is the same one, and so is its
converter. The page then gives the scripts that the converter makes, and counts its actions.
-/

set_option autoImplicit false

namespace FormulaKeys.Page

/-- A record of the mappings and of the options, each of which may be left out. -/
def IsWritten (drafts : Option (List MappingDraft)) (options : Option OptionsDraft)
    (document : Document) : Prop :=
  ∃ fields, document = .obj fields ∧
    Option.Rel (fun drafts field =>
        ∃ items, field = .arr items ∧ List.Forall₂ MappingDraft.IsWritten drafts items)
      drafts (fields.lookup "mappings") ∧
    Option.Rel OptionsDraft.IsWritten options (fields.lookup "script")

variable {drafts : Option (List MappingDraft)} {options : Option OptionsDraft}
  {document : Document}

theorem exists_isWritten (drafts : Option (List MappingDraft)) (options : Option OptionsDraft) :
    ∃ document, IsWritten drafts options document := by
  refine ⟨.obj (Config.encodeOptional "mappings"
      (fun drafts => .arr (drafts.map fun draft => .obj (MappingDraft.record draft))) drafts ++
    Config.encodeOptional "script" (fun draft => .obj (OptionsDraft.record draft)) options),
    _, rfl, ?_, ?_⟩
  · cases drafts with
    | none =>
      simp only [List.lookup_append, Config.lookup_encodeOptional]
      exact .none
    | some drafts =>
      apply Option.Rel.some
      refine ⟨_, rfl, ?_⟩
      rw [List.forall₂_map_right_iff, List.forall₂_same]
      exact fun draft _ => ⟨_, rfl, draft.hasFields_record⟩
  · cases options with
    | none =>
      simp only [List.lookup_append, Config.lookup_encodeOptional]
      exact .none
    | some draft =>
      simp only [List.lookup_append, Config.lookup_encodeOptional]
      exact .some ⟨_, rfl, draft.hasFields_record⟩

theorem exists_mappings?_iff (index : Nat) (drafts : List MappingDraft) :
    (∃ mappings, mappings? index drafts = .ok mappings) ↔
      ∀ draft ∈ drafts, ∃ mapping, draft.mapping? = .ok mapping := by
  induction drafts generalizing index with
  | nil => simp [mappings?]
  | cons draft rest ih =>
    rw [List.forall_mem_cons, ← ih (index + 1), mappings?]
    cases draft.mapping? with
    | error fault => simp
    | ok mapping =>
      cases mappings? (index + 1) rest <;> simp [Except.map]

theorem mappings?_eq {drafts : List MappingDraft} {items : List Document}
    (written : List.Forall₂ MappingDraft.IsWritten drafts items)
    (complete : ∀ draft ∈ drafts, draft.Complete) (index : Nat) :
    items.mapM (Config.mapping? .json) = (mappings? index drafts).toOption := by
  induction written generalizing index with
  | nil => rfl
  | @cons draft item drafts items first _ ih =>
    obtain ⟨fields, rfl, named⟩ := first
    rw [List.forall_mem_cons] at complete
    rw [List.mapM_cons, named.mapping_eq complete.1, ih complete.2 (index + 1), mappings?]
    cases draft.mapping? with
    | error fault => rfl
    | ok mapping => cases mappings? (index + 1) drafts <;> rfl

theorem config?_eq (drafts : Option (List MappingDraft)) (options : Option OptionsDraft) :
    config? drafts options =
      (drafts.elim (.ok Mapping.starter) (mappings? 0)).map
        fun mappings => ⟨mappings, (options.getD {}).options⟩ := by
  cases drafts with
  | none => rfl
  | some drafts =>
    simp only [config?, Option.elim_some]
    cases mappings? 0 drafts <;> rfl

theorem decode?_eq (written : IsWritten drafts options document)
    (complete : ∀ draft ∈ drafts.getD [], draft.Complete) :
    Config.decode? .json document = (config? drafts options).toOption := by
  obtain ⟨fields, rfl, mappings, script⟩ := written
  have list : Document.field? fields "mappings" (Config.mappings? .json) (some Mapping.starter) =
      (drafts.elim (.ok Mapping.starter) (mappings? 0)).toOption := by
    rw [Document.field?]
    -- The field is split together with the drafts that it was written from.
    generalize fields.lookup "mappings" = field at mappings ⊢
    cases mappings with
    | none => rfl
    | some given =>
      obtain ⟨items, rfl, each⟩ := given
      exact mappings?_eq each complete 0
  have settings : Document.field? fields "script" (Config.options? .json) (some {}) =
      some (options.getD {}).options := by
    rw [Document.field?]
    generalize fields.lookup "script" = field at script ⊢
    cases script with
    | none => rfl
    | some given =>
      obtain ⟨fields, rfl, named⟩ := given
      exact named.options_eq
  simp only [Config.decode?, Config.fields?, Option.bind_eq_bind, Option.bind_some, list, settings,
    config?_eq]
  cases drafts.elim (.ok Mapping.starter) (mappings? 0) <;> rfl

theorem exists_config?_iff (drafts : Option (List MappingDraft)) (options : Option OptionsDraft) :
    (∃ config, config? drafts options = .ok config) ↔
      ∀ draft ∈ drafts.getD [], ∃ mapping, draft.mapping? = .ok mapping := by
  simp only [config?_eq]
  cases drafts with
  | none => simp [Except.map]
  | some drafts =>
    rw [Option.getD_some, ← exists_mappings?_iff 0, Option.elim_some]
    cases mappings? 0 drafts <;> simp [Except.map]

theorem config?_eq_ok_iff (written : IsWritten drafts options document)
    (complete : ∀ draft ∈ drafts.getD [], draft.Complete) (config : Config) :
    config? drafts options = .ok config ↔ Config.decode? .json document = some config := by
  rw [decode?_eq written complete]
  cases config? drafts options <;> simp [Except.toOption]

theorem script_of_config? {config : Config} (made : config? drafts options = .ok config) :
    config.script = (options.getD {}).options := by
  rw [config?_eq] at made
  cases read : drafts.elim (.ok Mapping.starter) (mappings? 0) with
  | error error =>
    rw [read] at made
    cases made
  | ok mappings =>
    rw [read] at made
    cases made
    rfl

theorem converter?_eq_ok_iff {page : Converter} :
    converter? drafts options = .ok page ↔
      ∃ config, config? drafts options = .ok config ∧ Converter.ofConfig config = .ok page := by
  rw [converter?]
  cases config? drafts options with
  | error error => simp
  | ok config => cases made : Converter.ofConfig config <;> simp [made]

theorem exists_script (page : Converter) (markup : String) (target : Script.Target) :
    ∃ text, page.convert target markup = .ok text ∧ script page markup target = .ok text := by
  obtain ⟨text, converted⟩ := page.exists_convert target markup
  refine ⟨text, converted, ?_⟩
  rw [script, converted]

/-- What a page makes of drafts and options is what is made of a document. -/
structure Agrees (drafts : Option (List MappingDraft)) (options : Option OptionsDraft)
    (document : Document) : Prop where
  readable : (∀ draft ∈ drafts.getD [], ∃ mapping, draft.mapping? = .ok mapping) ↔
    ∃ config, Config.decode? .json document = some config
  same (config : Config) :
    config? drafts options = .ok config ↔ Config.decode? .json document = some config
  /-- Each option has its own default. -/
  settings (config : Config) (known : Config.decode? .json document = some config) :
    config.script = (options.getD {}).options
  accepted (page : Converter) :
    converter? drafts options = .ok page ↔
      ∃ config, Config.decode? .json document = some config ∧
        Converter.ofConfig config = .ok page
  /-- The page never throws for markup, and what it returns is the converter's. -/
  converts (config : Config) (page converter : Converter)
    (made : converter? drafts options = .ok page)
    (known : Config.decode? .json document = some config)
    (accepted : Converter.ofConfig config = .ok converter) (markup : String) :
    (∃ script, converter.convert .browser markup = .ok script ∧
      browserScript page markup = .ok script) ∧
    (∃ script, converter.convert .hotkey markup = .ok script ∧
      hotkeyScript page markup = .ok script) ∧
    (actionCount page markup).toNat = (converter.parse markup).length % 2 ^ 32

/-- A page can be read in place of any document that is written from it, and the other way round. -/
theorem agrees_of_isWritten (complete : ∀ draft ∈ drafts.getD [], draft.Complete) :
    (∃ document, IsWritten drafts options document) ∧
      ∀ document, IsWritten drafts options document → Agrees drafts options document := by
  refine ⟨exists_isWritten drafts options, fun document written => ?_⟩
  have same := config?_eq_ok_iff written complete
  have accepted (page : Converter) : converter? drafts options = .ok page ↔
      ∃ config, Config.decode? .json document = some config ∧
        Converter.ofConfig config = .ok page := by
    simp only [converter?_eq_ok_iff, same]
  constructor
  case readable =>
    simp only [← exists_config?_iff drafts options, same]
  case same => exact same
  case settings =>
    intro config known
    exact script_of_config? ((same config).mpr known)
  case accepted => exact accepted
  case converts =>
    intro config page converter made known ready markup
    obtain ⟨other, readable, built⟩ := (accepted page).mp made
    obtain rfl : other = config := Option.some.inj (readable.symm.trans known)
    obtain rfl : page = converter := Except.ok.inj (built.symm.trans ready)
    exact ⟨exists_script page markup .browser, exists_script page markup .hotkey,
      UInt32.toNat_ofNat'⟩

/-- Properties of the other kind are carried along and read by nobody. -/
def kindsDrafts : List MappingDraft :=
  [{ id := some "sum", trigger := some "sum", kind := some "sequence", text := some "∑",
      key := some "none", exitKey := some "ArrowRight" },
    { id := some "", trigger := some "frac", kind := some "shortcut", key := some "f",
      ctrl := some true, text := some "a/b", delay := some 5 }]

theorem complete_kindsDrafts : ∀ draft ∈ kindsDrafts, draft.Complete := by
  rw [kindsDrafts, List.forall_mem_cons, List.forall_mem_cons]
  refine ⟨⟨rfl, rfl, fun _ => rfl⟩, ⟨rfl, rfl, fun _ => rfl⟩, ?_⟩
  exact List.forall_mem_nil _

theorem agrees_of_isWritten_kinds :
    (∀ draft ∈ (some kindsDrafts).getD [], draft.Complete) ∧
      (∃ document, IsWritten (some kindsDrafts) (some { keyDelay := some 0 }) document) ∧
      ∀ document, IsWritten (some kindsDrafts) (some { keyDelay := some 0 }) document →
        Agrees (some kindsDrafts) (some { keyDelay := some 0 }) document :=
  ⟨complete_kindsDrafts, agrees_of_isWritten complete_kindsDrafts⟩

end FormulaKeys.Page
