import FormulaKeys.Cli.Conversion
import FormulaKeys.Cli.Options
import FormulaKeys.Config.Load
import FormulaKeys.Config.Print
import FormulaKeys.Text.Lines

/-!
Runs of the command line, from the words that it is given. Here the readers of options and of TOML
are put in.
-/

set_option autoImplicit false

namespace FormulaKeys.Cli

def Stop.outcome : Stop → Outcome
  | help =>
    .printed (Text.unlines
      ["Compiles math markup into keystroke replay scripts",
        "",
        "Usage: [OPTIONS] [FILE]",
        "",
        "  FILE                   The markup file, or - for standard input",
        "  -f, --formula FORMULA  The markup itself",
        "      --sample           Converts the built-in sample formula",
        "  -c, --config FILE      Loads mappings and script options from a TOML file",
        "  -t, --target TARGET    browser (the default), hotkey or actions",
        "      --print-config     Prints the default configuration as TOML",
        "  -h, --help             Prints this help",
        "  -V, --version          Prints the version"])
  | version => .printed "0.1.0\n"
  | usage => ⟨2, "", "Usage error: see --help\n"⟩

/-- Texts are read without positions, so there is nothing to report on. -/
def Toml.standard : Toml where
  read text :=
    match Config.load? text with
    | some config => .ok config
    | none => .error ⟨"", none, "malformed"⟩
  write config := .ok (Config.print config)
  report _ _ _ _ := none

def run {m : Type → Type} [Monad m] (world : World m) (words : List String) : m Outcome :=
  match Arguments.read words with
  | .error stop => return stop.outcome
  | .ok arguments => outcome .standard world arguments

end FormulaKeys.Cli
