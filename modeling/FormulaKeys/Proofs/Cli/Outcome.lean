import FormulaKeys.Proofs.Cli.Conversion

/-! How the command line ends.

It looks for a converter and for a markup, in this order. If it has both, it prints the whole
result; otherwise it prints nothing, and its code tells which of them it did not have.
-/

set_option autoImplicit false

namespace FormulaKeys.Cli

section Ends

variable {toml : Toml} {world : World Id} {arguments : Arguments}

theorem Configures.unique {path : Option String} {first second : Converter}
    (one : Configures toml world path first) (other : Configures toml world path second) :
    first = second :=
  Except.ok.inj ((converter_eq_ok_iff.mpr one).symm.trans (converter_eq_ok_iff.mpr other))

theorem Supplies.unique {first second : String} (one : Supplies world arguments first)
    (other : Supplies world arguments second) : first = second :=
  Except.ok.inj ((markup_eq_ok_iff.mpr one).symm.trans (markup_eq_ok_iff.mpr other))

theorem Prints.unique {made : Converter} {markup : String} {target : Target}
    {first second : String} (one : Prints made markup target first)
    (other : Prints made markup target second) : first = second :=
  Except.ok.inj ((output_eq_ok_iff.mpr one).symm.trans (output_eq_ok_iff.mpr other))

theorem convert_eq (toml : Toml) (world : World Id) (arguments : Arguments) :
    convert toml world arguments =
      match converter toml world arguments.config with
      | .error failure => .error failure
      | .ok made =>
        match markup world arguments with
        | .error failure => .error failure
        | .ok markup => output made arguments.target markup :=
  rfl

variable (toml world arguments)

/-- The three ends of a conversion. The configuration is settled first. -/
inductive Ends : Except Failure String → Prop where
  | printed {made : Converter} {markup text : String}
      (configured : Configures toml world arguments.config made)
      (supplied : Supplies world arguments markup)
      (prints : Prints made markup arguments.target text) : Ends (.ok text)
  | refused {failure : Failure}
      (unconfigured : ¬ ∃ made, Configures toml world arguments.config made)
      (refuses : Refuses toml world arguments.config failure) : Ends (.error failure)
  | unreadable {made : Converter} {error : FileError}
      (configured : Configures toml world arguments.config made)
      (unsupplied : ¬ ∃ markup, Supplies world arguments markup) :
      Ends (.error (.markupUnreadable error))

theorem ends_convert : Ends toml world arguments (convert toml world arguments) := by
  rw [convert_eq]
  cases settled : converter toml world arguments.config with
  | error failure =>
    refine .refused ?_ (refuses_of_converter settled)
    rintro ⟨made, configured⟩
    cases settled.symm.trans (converter_eq_ok_iff.mpr configured)
  | ok made =>
    -- Only now is the markup looked at.
    have configured := converter_eq_ok_iff.mp settled
    cases given : markup world arguments with
    | error failure =>
      obtain ⟨error, rfl⟩ := markupUnreadable_of_markup given
      refine .unreadable configured ?_
      rintro ⟨text, supplied⟩
      cases given.symm.trans (markup_eq_ok_iff.mpr supplied)
    | ok text =>
      -- Conversion cannot fail, so there is no fourth end.
      obtain ⟨printed, same⟩ := exists_output made arguments.target text
      simp only [same]
      exact .printed configured (markup_eq_ok_iff.mp given) (output_eq_ok_iff.mp same)

/-- What the code and the streams tell of a conversion. -/
structure Settles (outcome : Outcome) : Prop where
  prints (text : String) : outcome.code = 0 ∧ outcome.stdout = text ↔
    ∃ made markup, Configures toml world arguments.config made ∧
      Supplies world arguments markup ∧ Prints made markup arguments.target text
  succeeds : outcome.code = 0 ↔
    (∃ made, Configures toml world arguments.config made) ∧
      ∃ markup, Supplies world arguments markup
  refused : outcome.code = 2 ↔ ¬ ∃ made, Configures toml world arguments.config made
  unreadable : outcome.code = 1 ↔
    (∃ made, Configures toml world arguments.config made) ∧
      ¬ ∃ markup, Supplies world arguments markup
  silent : outcome.code ≠ 0 → outcome.stdout = ""
  /-- Only a report on a malformed file is written in words that are not the program's own. -/
  ungenerated (rest : String) : outcome.stderr = "Generation error" ++ rest →
    ∃ path text error span, arguments.config = some path ∧ world.file path = .ok text.toUTF8 ∧
      toml.read text = .error error ∧
      toml.report path text span error.message = some outcome.stderr

variable {toml world arguments}

theorem head?_append {start : String} {c : Char} (head : start.toList.head? = some c)
    (rest : String) : (start ++ rest).toList.head? = some c := by
  rw [String.toList_append, List.head?_append, head, Option.some_or]

/-- No message of another kind has the first letter of a generation error. -/
theorem ne_generation_of_head? {text : String} {c : Char} (head : text.toList.head? = some c)
    (other : c ≠ 'G') (rest : String) : text ≠ "Generation error" ++ rest := by
  rintro rfl
  rw [head?_append (c := 'G') rfl] at head
  exact other (Option.some.inj head).symm

theorem config_ne_generation (path : Option String) (reason rest : String) :
    Failure.config path reason ≠ "Generation error" ++ rest := by
  have head : ("Configuration error" : String).toList.head? = some 'C' := rfl
  have whole := head?_append (head?_append (head?_append (head?_append head (Failure.inFile path))
    ": ") reason) "\n"
  exact ne_generation_of_head? whole (by decide) rest

theorem markupUnreadable_ne_generation (toml : Toml) (error : FileError) (rest : String) :
    (Failure.markupUnreadable error).stderr toml ≠ "Generation error" ++ rest := by
  have head : ("IO Error: " : String).toList.head? = some 'I' := rfl
  exact ne_generation_of_head? (head?_append (head?_append head _) _) (by decide) rest

theorem Refuses.code {path : Option String} {failure : Failure}
    (refuses : Refuses toml world path failure) : failure.code = 2 := by
  cases refuses <;> rfl

/-- A malformed file is described in the program's own words, or else by a report. -/
theorem report_of_malformed {path text rest : String} {error : TomlError}
    (begins : Failure.malformed toml path text error = "Generation error" ++ rest) :
    ∃ span, toml.report path text span error.message =
      some (Failure.malformed toml path text error) := by
  rw [Failure.malformed] at begins ⊢
  cases reported : error.span.bind fun span => toml.report path text span error.message with
  | none =>
    rw [reported, Option.getD_none] at begins
    exact absurd begins (config_ne_generation _ _ _)
  | some report =>
    obtain ⟨span, -, same⟩ := Option.bind_eq_some_iff.mp reported
    exact ⟨span, same⟩

theorem Refuses.report {path : Option String} {failure : Failure} {rest : String}
    (refuses : Refuses toml world path failure)
    (begins : failure.stderr toml = "Generation error" ++ rest) :
    ∃ name text error span, path = some name ∧ world.file name = .ok text.toUTF8 ∧
      toml.read text = .error error ∧
      toml.report name text span error.message = some (failure.stderr toml) := by
  cases refuses with
  | unreadable | refused => exact absurd begins (config_ne_generation _ _ _)
  | @malformed name text error content parsed =>
    obtain ⟨span, reported⟩ := report_of_malformed begins
    exact ⟨name, text, error, span, rfl, content, parsed, reported⟩

theorem Ends.settles {ending : Except Failure String} (ends : Ends toml world arguments ending) :
    Settles toml world arguments (.ofExcept toml ending) := by
  cases ends with
  | @printed made markup text configured supplied prints =>
    have hasConverter : ∃ made, Configures toml world arguments.config made := ⟨made, configured⟩
    have hasMarkup : ∃ markup, Supplies world arguments markup := ⟨markup, supplied⟩
    have code : (Outcome.printed text).code = 0 := rfl
    -- In the order of the fields: the first is an equivalence for every text.
    refine ⟨fun other => ⟨?_, ?_⟩, ?_, ?_, ?_, ?_, ?_⟩
    · rintro ⟨-, rfl⟩
      exact ⟨made, markup, configured, supplied, prints⟩
    · rintro ⟨made', markup', configured', supplied', prints'⟩
      cases configured.unique configured'
      cases supplied.unique supplied'
      exact ⟨rfl, prints.unique prints'⟩
    · simp [Outcome.ofExcept, code, hasConverter, hasMarkup]
    · simp [Outcome.ofExcept, code, hasConverter]
    · simp [Outcome.ofExcept, code, hasMarkup]
    · exact absurd code
    · intro rest same
      have head : ("" : String).toList.head? = some 'G' := by
        rw [show "" = "Generation error" ++ rest from same]
        exact head?_append rfl rest
      cases head
  | @refused failure unconfigured refuses =>
    have code : (Outcome.failed toml failure).code = 2 := refuses.code
    refine ⟨fun other => ⟨?_, ?_⟩, ?_, ?_, ?_, ?_, ?_⟩
    · rintro ⟨zero, -⟩
      cases code.symm.trans zero
    · rintro ⟨made, -, configured, -⟩
      cases unconfigured ⟨made, configured⟩
    · simp [Outcome.ofExcept, code, unconfigured]
    · simp [Outcome.ofExcept, code, unconfigured]
    · simp [Outcome.ofExcept, code, unconfigured]
    · intro _
      rfl
    · intro rest same
      exact refuses.report same
  | @unreadable made error configured unsupplied =>
    have hasConverter : ∃ made, Configures toml world arguments.config made := ⟨made, configured⟩
    have code : (Outcome.failed toml (.markupUnreadable error)).code = 1 := rfl
    refine ⟨fun other => ⟨?_, ?_⟩, ?_, ?_, ?_, ?_, ?_⟩
    · rintro ⟨zero, -⟩
      cases code.symm.trans zero
    · rintro ⟨-, markup, -, supplied, -⟩
      cases unsupplied ⟨markup, supplied⟩
    · simp [Outcome.ofExcept, code, unsupplied]
    · simp [Outcome.ofExcept, code, hasConverter]
    · simp [Outcome.ofExcept, code, hasConverter, unsupplied]
    · intro _
      rfl
    · intro rest same
      exact absurd same (markupUnreadable_ne_generation toml error rest)

theorem Refuses.ne_generation {path : Option String} {failure : Failure}
    (refuses : Refuses toml world path failure) (error : Script.UnknownMapping) :
    failure ≠ .generation error := by
  rintro rfl
  cases refuses

theorem Ends.ne_generation {ending : Except Failure String}
    (ends : Ends toml world arguments ending) (error : Script.UnknownMapping) :
    ending ≠ .error (.generation error) := by
  rintro rfl
  cases ends with
  | refused _ refuses => exact refuses.ne_generation error rfl

end Ends

section Run

variable {toml : Toml} {world other : World Id} {first second : Arguments}

/-- Both runs convert, and with the same configuration. -/
structure Reconfigures (world other : World Id) (first second : Arguments) : Prop where
  unprinted : second.printConfig = false
  config : second.config = first.config
  content : ∀ path, first.config = some path → other.file path = world.file path

/-- The same markup for the same target with the same configuration, wherever each comes from. -/
structure Resembles (world other : World Id) (first second : Arguments) : Prop
    extends Reconfigures world other first second where
  target : second.target = first.target
  markup : ∃ markup, Supplies world first markup ∧ Supplies other second markup

theorem Reconfigures.converter_eq (reconfigures : Reconfigures world other first second) :
    converter toml other second.config = converter toml world first.config := by
  rw [Cli.converter_eq, Cli.converter_eq, reconfigures.config]
  cases given : first.config with
  | none => rfl
  | some path => rw [config_some, config_some, reconfigures.content path given]

theorem Reconfigures.convert_eq (reconfigures : Reconfigures world other first second)
    (unconfigured : ¬ ∃ made, Configures toml world first.config made) :
    convert toml other second = convert toml world first := by
  rw [Cli.convert_eq, Cli.convert_eq, reconfigures.converter_eq]
  cases settled : converter toml world first.config with
  | error failure => rfl
  | ok made => cases unconfigured ⟨made, converter_eq_ok_iff.mp settled⟩

theorem Resembles.convert_eq (resembles : Resembles world other first second) :
    convert toml other second = convert toml world first := by
  obtain ⟨text, supplied, resupplied⟩ := resembles.markup
  rw [Cli.convert_eq, Cli.convert_eq, resembles.converter_eq, resembles.target,
    markup_eq_ok_iff.mpr supplied, markup_eq_ok_iff.mpr resupplied]

theorem result_eq_convert (unprinted : first.printConfig = false) :
    result toml world first = convert toml world first := by
  rw [result, unprinted, if_neg Bool.false_ne_true]

theorem outcome_eq (toml : Toml) (world : World Id) (arguments : Arguments) :
    outcome toml world arguments = .ofExcept toml (result toml world arguments) :=
  rfl

/-- A run prints the whole result or nothing. Its code tells an unusable configuration from a
markup that cannot be read. The markup makes no difference to an unusable configuration, and where
it comes from makes none at all. -/
theorem outcome_settles (toml : Toml) (world : World Id) {arguments : Arguments}
    (unprinted : arguments.printConfig = false) :
    Settles toml world arguments (outcome toml world arguments) ∧
      (∀ error, result toml world arguments ≠ .error (.generation error)) ∧
      (∀ other second, Reconfigures world other arguments second →
        (outcome toml world arguments).code = 2 →
          outcome toml other second = outcome toml world arguments) ∧
      ∀ other second, Resembles world other arguments second →
        outcome toml other second = outcome toml world arguments := by
  have ends := ends_convert toml world arguments
  rw [← result_eq_convert unprinted] at ends
  have settles : Settles toml world arguments (outcome toml world arguments) := ends.settles
  refine ⟨settles, ?_, ?_, ?_⟩
  · intro error
    exact ends.ne_generation error
  · intro other second reconfigures code
    rw [outcome_eq, outcome_eq, result_eq_convert unprinted,
      result_eq_convert reconfigures.unprinted,
      reconfigures.convert_eq (settles.refused.mp code)]
  · intro other second resembles
    rw [outcome_eq, outcome_eq, result_eq_convert unprinted,
      result_eq_convert resembles.unprinted, resembles.convert_eq]

/-- A configuration file and a markup file are read here, or else the standard input; a run that
finds neither file fails for want of the configuration. -/
theorem outcome_settles_files :
    let keys := "[script]\nhotkey = 'F10'\n"
    let toml : Toml :=
      { read := fun text =>
          if text = keys then .ok { script := { hotkey := "F10" } }
          else .error ⟨"key with no value", some (0, text.utf8ByteSize), "key with no value"⟩
        write := fun _ => .error "not needed"
        report := fun name _ _ message => some ("Error: " ++ message ++ " in " ++ name) }
    let world : World Id :=
      { file := fun path =>
          if path = "keys.toml" then .ok keys.toUTF8
          else if path = "in.tex" then .ok "\\sqrt x".toUTF8
          else .error .notFound
        stdin := .ok "\\sqrt x".toUTF8 }
    let read : Arguments :=
      { file := some "in.tex", config := some "keys.toml", target := .script .hotkey }
    let lost : Arguments := { file := some "lost.tex", config := some "lost.toml" }
    read.printConfig = false ∧ lost.printConfig = false ∧
      Settles toml world read (outcome toml world read) ∧ (outcome toml world read).code = 0 ∧
      outcome toml world { read with file := some "-" } = outcome toml world read ∧
      outcome toml world { read with file := none } = outcome toml world read ∧
      outcome toml world { read with file := none, formula := some "\\sqrt x" } =
        outcome toml world read ∧
      (outcome toml world lost).code = 2 := by
  intro keys toml world read lost
  obtain ⟨settles, -, -, resembling⟩ :=
    outcome_settles toml world (show read.printConfig = false from rfl)
  obtain ⟨unfound, -, -, -⟩ := outcome_settles toml world (show lost.printConfig = false from rfl)
  have configured : Configures toml world read.config
      ⟨Registry.starter, { hotkey := "F10" }⟩ := by
    refine ⟨{ script := { hotkey := "F10" } }, ?_, Converter.ofConfig_mappings Registry.starter _⟩
    have content : world.file "keys.toml" = .ok keys.toUTF8 := by simp [world]
    exact .file content (by simp [toml])
  have supplied : Supplies world read "\\sqrt x" := by
    refine .file rfl ?_ ?_
    · rw [← isStdin_eq_true_iff]
      decide
    · simp [world]
  have resembles (second : Arguments) (config : second.config = read.config)
      (target : second.target = read.target) (unprinted : second.printConfig = false)
      (resupplied : Supplies world second "\\sqrt x") : Resembles world world read second :=
    ⟨⟨unprinted, config, fun _ _ => rfl⟩, target, _, supplied, resupplied⟩
  refine ⟨rfl, rfl, settles, settles.succeeds.mpr ⟨⟨_, configured⟩, _, supplied⟩, ?_, ?_, ?_, ?_⟩
  · exact resembling _ _ (resembles _ rfl rfl rfl (.dash rfl ⟨[], by simp, rfl⟩ rfl))
  · exact resembling _ _ (resembles _ rfl rfl rfl (.stdin rfl rfl rfl rfl))
  · exact resembling _ _ (resembles _ rfl rfl rfl (.formula rfl rfl))
  · rw [unfound.refused]
    rintro ⟨made, config, loads, -⟩
    cases loads with
    | file content => simp [world] at content

end Run

end FormulaKeys.Cli
