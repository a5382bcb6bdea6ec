import FormulaKeys.Proofs.Cli.Path
import FormulaKeys.Proofs.Converter

/-! What a conversion needs.

It needs a converter, which takes a configuration that loads and is accepted, and a markup. What it
prints is then settled. How configurations are written in TOML makes no difference to this.
-/

set_option autoImplicit false

namespace FormulaKeys.Cli

section Specification

variable (toml : Toml) (world : World Id)

/-- The default configuration, or the one in the file. -/
inductive Loads : Option String → Config → Prop where
  | standard : Loads none {}
  | file {path text : String} {config : Config} (content : world.file path = .ok text.toUTF8)
      (parsed : toml.read text = .ok config) : Loads (some path) config

/-- The configuration makes this converter. -/
def Configures (path : Option String) (converter : Converter) : Prop :=
  ∃ config, Loads toml world path config ∧ Converter.ofConfig config = .ok converter

/-- Why there is no converter. -/
inductive Refuses : Option String → Failure → Prop where
  | unreadable {path : String} {error : FileError}
      (content : text? (world.file path) = .error error) :
      Refuses (some path) (.configUnreadable path error)
  | malformed {path text : String} {error : TomlError}
      (content : world.file path = .ok text.toUTF8) (parsed : toml.read text = .error error) :
      Refuses (some path) (.configMalformed path text error)
  | refused {path : Option String} {config : Config} {error : Registry.Error}
      (loaded : Loads toml world path config)
      (refused : Converter.ofConfig config = .error error) :
      Refuses path (.configRefused path error)

/-- The markup of the first source that is given, if it is text. -/
inductive Supplies (arguments : Arguments) : String → Prop where
  | dash {path markup : String} (named : arguments.file = some path) (isDash : IsDash path)
      (content : world.stdin = .ok markup.toUTF8) : Supplies arguments markup
  | file {path markup : String} (named : arguments.file = some path) (isFile : ¬ IsDash path)
      (content : world.file path = .ok markup.toUTF8) : Supplies arguments markup
  | formula {markup : String} (unnamed : arguments.file = none)
      (written : arguments.formula = some markup) : Supplies arguments markup
  | sample (unnamed : arguments.file = none) (unwritten : arguments.formula = none)
      (asked : arguments.sample = true) :
      Supplies arguments "x = \\frac\x7b-b \\pm \\sqrt\x7bb^2 - 4ac\x7d\x7d\x7b2a\x7d"
  | stdin {markup : String} (unnamed : arguments.file = none)
      (unwritten : arguments.formula = none) (unasked : arguments.sample = false)
      (content : world.stdin = .ok markup.toUTF8) : Supplies arguments markup

end Specification

/-- The result that is asked for. -/
inductive Prints (converter : Converter) (markup : String) : Target → String → Prop where
  | script {target : Script.Target} {script : String}
      (converted : converter.convert target markup = .ok script) :
      Prints converter markup (.script target) script
  | actions : Prints converter markup .actions (Action.listing (converter.parse markup))

section Results

variable {Error Other Value Last : Type} {result : Except Error Value} {change : Error → Other}
  {next : Value → Except Error Last}

theorem mapError_eq_ok_iff {value : Value} :
    result.mapError change = .ok value ↔ result = .ok value := by
  cases result <;> simp [Except.mapError]

theorem mapError_eq_error_iff {other : Other} :
    result.mapError change = .error other ↔
      ∃ error, result = .error error ∧ change error = other := by
  cases result <;> simp [Except.mapError]

theorem bind_eq_ok_iff {last : Last} :
    result.bind next = .ok last ↔ ∃ value, result = .ok value ∧ next value = .ok last := by
  cases result <;> simp [Except.bind]

theorem bind_eq_error_iff {error : Error} :
    result.bind next = .error error ↔
      result = .error error ∨ ∃ value, result = .ok value ∧ next value = .error error := by
  cases result <;> simp [Except.bind]

end Results

theorem text?_eq_ok_iff {bytes : Except FileError ByteArray} {text : String} :
    text? bytes = .ok text ↔ bytes = .ok text.toUTF8 := by
  cases bytes with
  | error => simp [text?]
  | ok bytes =>
    constructor
    · intro read
      simp only [text?, String.fromUTF8?] at read
      split at read
      next other valid =>
        split at valid
        · cases valid
          cases read
          rfl
        · cases valid
      next => cases read
    · intro same
      cases same
      simp only [text?, String.fromUTF8?, String.toUTF8_eq_toByteArray, dif_pos text.isValidUTF8]
      rfl

theorem configOfBytes_eq_ok_iff {toml : Toml} {path : String}
    {bytes : Except FileError ByteArray} {config : Config} :
    configOfBytes toml path bytes = .ok config ↔
      ∃ text, bytes = .ok text.toUTF8 ∧ toml.read text = .ok config := by
  rw [configOfBytes]
  simp only [bind_eq_ok_iff, mapError_eq_ok_iff, text?_eq_ok_iff]

theorem markupOfBytes_eq_ok_iff {bytes : Except FileError ByteArray} {text : String} :
    markupOfBytes bytes = .ok text ↔ bytes = .ok text.toUTF8 :=
  mapError_eq_ok_iff.trans text?_eq_ok_iff

theorem markupUnreadable_of_markupOfBytes {bytes : Except FileError ByteArray} {failure : Failure}
    (failed : markupOfBytes bytes = .error failure) :
    ∃ error, failure = .markupUnreadable error := by
  obtain ⟨error, _, same⟩ := mapError_eq_error_iff.mp failed
  exact ⟨error, same.symm⟩

section Steps

variable {toml : Toml} {world : World Id} {arguments : Arguments}

theorem config_some (path : String) :
    config toml world (some path) = configOfBytes toml path (world.file path) :=
  rfl

theorem config_eq_ok_iff {path : Option String} {loaded : Config} :
    config toml world path = .ok loaded ↔ Loads toml world path loaded := by
  cases path with
  | none =>
    constructor
    · intro same
      cases same
      exact .standard
    · intro loads
      cases loads
      rfl
  | some path =>
    rw [config_some]
    refine configOfBytes_eq_ok_iff.trans ⟨?_, ?_⟩
    · rintro ⟨text, content, parsed⟩
      exact .file content parsed
    · intro loads
      cases loads with
      | file content parsed => exact ⟨_, content, parsed⟩

theorem refuses_of_config {path : Option String} {failure : Failure}
    (failed : config toml world path = .error failure) : Refuses toml world path failure := by
  cases path with
  | none => cases failed
  | some path =>
    rw [config_some, configOfBytes, bind_eq_error_iff] at failed
    rcases failed with unreadable | ⟨text, read, malformed⟩
    · obtain ⟨error, content, rfl⟩ := mapError_eq_error_iff.mp unreadable
      exact .unreadable content
    · obtain ⟨error, parsed, rfl⟩ := mapError_eq_error_iff.mp malformed
      exact .malformed (text?_eq_ok_iff.mp (mapError_eq_ok_iff.mp read)) parsed

theorem converter_eq (path : Option String) :
    converter toml world path =
      (config toml world path).bind fun config =>
        (Converter.ofConfig config).mapError (.configRefused path) :=
  rfl

theorem converter_eq_ok_iff {path : Option String} {made : Converter} :
    converter toml world path = .ok made ↔ Configures toml world path made := by
  rw [converter_eq]
  refine bind_eq_ok_iff.trans (exists_congr fun config => ?_)
  exact and_congr config_eq_ok_iff mapError_eq_ok_iff

theorem refuses_of_converter {path : Option String} {failure : Failure}
    (failed : converter toml world path = .error failure) : Refuses toml world path failure := by
  rw [converter_eq, bind_eq_error_iff] at failed
  rcases failed with failed | ⟨config, loaded, failed⟩
  · exact refuses_of_config failed
  · obtain ⟨error, refused, rfl⟩ := mapError_eq_error_iff.mp failed
    exact .refused (config_eq_ok_iff.mp loaded) refused

theorem markup_of_file {path : String} (named : arguments.file = some path) :
    markup world arguments =
      markupOfBytes (if isStdin path then world.stdin else world.file path) := by
  simp only [markup, named]
  split <;> rfl

theorem markup_of_formula {text : String} (unnamed : arguments.file = none)
    (written : arguments.formula = some text) : markup world arguments = .ok text := by
  simp only [markup, unnamed, written]
  rfl

theorem markup_of_sample (unnamed : arguments.file = none) (unwritten : arguments.formula = none)
    (asked : arguments.sample = true) : markup world arguments = .ok sampleMarkup := by
  simp only [markup, unnamed, unwritten, asked]
  rfl

theorem markup_of_stdin (unnamed : arguments.file = none) (unwritten : arguments.formula = none)
    (unasked : arguments.sample = false) : markup world arguments = markupOfBytes world.stdin := by
  simp only [markup, unnamed, unwritten, unasked]
  rfl

theorem markup_eq_ok_iff {text : String} :
    markup world arguments = .ok text ↔ Supplies world arguments text := by
  constructor
  · intro read
    cases named : arguments.file with
    | some path =>
      rw [markup_of_file named, markupOfBytes_eq_ok_iff] at read
      cases stdin : isStdin path with
      | true => exact .dash named (isStdin_eq_true_iff.mp stdin) (by rwa [stdin] at read)
      | false =>
        refine .file named ?_ (by rwa [stdin] at read)
        rw [← isStdin_eq_true_iff, stdin]
        exact Bool.false_ne_true
    | none =>
      cases written : arguments.formula with
      | some formula =>
        rw [markup_of_formula named written] at read
        cases read
        exact .formula named written
      | none =>
        cases asked : arguments.sample with
        | true =>
          rw [markup_of_sample named written asked] at read
          cases read
          exact .sample named written asked
        | false =>
          rw [markup_of_stdin named written asked, markupOfBytes_eq_ok_iff] at read
          exact .stdin named written asked read
  · intro supplied
    cases supplied with
    | dash named isDash content =>
      rw [markup_of_file named, if_pos (isStdin_eq_true_iff.mpr isDash)]
      exact markupOfBytes_eq_ok_iff.mpr content
    | file named isFile content =>
      rw [markup_of_file named, if_neg (isFile ∘ isStdin_eq_true_iff.mp)]
      exact markupOfBytes_eq_ok_iff.mpr content
    | formula unnamed written => exact markup_of_formula unnamed written
    | sample unnamed unwritten asked => exact markup_of_sample unnamed unwritten asked
    | stdin unnamed unwritten unasked content =>
      rw [markup_of_stdin unnamed unwritten unasked]
      exact markupOfBytes_eq_ok_iff.mpr content

theorem markupUnreadable_of_markup {failure : Failure}
    (failed : markup world arguments = .error failure) :
    ∃ error, failure = .markupUnreadable error := by
  cases named : arguments.file with
  | some path =>
    rw [markup_of_file named] at failed
    exact markupUnreadable_of_markupOfBytes failed
  | none =>
    cases written : arguments.formula with
    | some formula => rw [markup_of_formula named written] at failed; cases failed
    | none =>
      cases asked : arguments.sample with
      | true => rw [markup_of_sample named written asked] at failed; cases failed
      | false =>
        rw [markup_of_stdin named written asked] at failed
        exact markupUnreadable_of_markupOfBytes failed

end Steps

theorem output_eq_ok_iff {made : Converter} {target : Target} {markup text : String} :
    output made target markup = .ok text ↔ Prints made markup target text := by
  cases target with
  | actions =>
    constructor
    · intro same
      cases same
      exact .actions
    · intro prints
      cases prints
      rfl
  | script target =>
    rw [output, mapError_eq_ok_iff]
    constructor
    · exact .script
    · intro prints
      cases prints with
      | script converted => exact converted

theorem exists_output (made : Converter) (target : Target) (markup : String) :
    ∃ text, output made target markup = .ok text := by
  cases target with
  | actions => exact ⟨_, rfl⟩
  | script target =>
    obtain ⟨script, converted⟩ := made.exists_convert target markup
    exact ⟨script, output_eq_ok_iff.mpr (.script converted)⟩

end FormulaKeys.Cli
