import FormulaKeys.Config
import FormulaKeys.Markup.Scan
import FormulaKeys.Script.Generate

/-!
Converters: from markup to scripts under one configuration. Actions are generated against the
registry that they were parsed with.
-/

set_option autoImplicit false

namespace FormulaKeys

/-- A formula to try a configuration with. -/
def sampleMarkup : String := "x = \\frac\x7b-b \\pm \\sqrt\x7bb^2 - 4ac\x7d\x7d\x7b2a\x7d"

structure Converter where
  registry : Registry
  options : Script.Options

namespace Converter

def ofConfig (config : Config) : Except Registry.Error Converter :=
  match Registry.ofList config.mappings with
  | .ok registry => .ok ⟨registry, config.script⟩
  | .error error => .error error

/-- The converter of the default configuration. -/
def standard : Converter := ⟨Registry.starter, {}⟩

theorem ofConfig_mappings (registry : Registry) (options : Script.Options) :
    ofConfig ⟨registry.mappings, options⟩ = .ok ⟨registry, options⟩ := by
  simp only [ofConfig, Registry.ofList_mappings]

theorem ofConfig_default : ofConfig {} = .ok standard :=
  ofConfig_mappings Registry.starter {}

def parse (converter : Converter) (markup : String) : List Action :=
  Markup.parse converter.registry markup

def generate (converter : Converter) (target : Script.Target) (actions : List Action) :
    Except Script.UnknownMapping String :=
  Script.generate target converter.options converter.registry actions

def convert (converter : Converter) (target : Script.Target) (markup : String) :
    Except Script.UnknownMapping String :=
  converter.generate target (converter.parse markup)

/-- The events of parsing and, for a target, of generating the script as well. -/
def events (converter : Converter) (target? : Option Script.Target) (markup : String) :
    List Event :=
  let reading := Markup.read converter.registry markup
  match target? with
  | none => reading.events
  | some target =>
    reading.events ++ Script.events target converter.options converter.registry reading.actions

end Converter

end FormulaKeys
