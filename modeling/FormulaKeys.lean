import FormulaKeys.Action.Builder
import FormulaKeys.Action.Listing
import FormulaKeys.Cli.Conversion
import FormulaKeys.Cli.Files
import FormulaKeys.Cli.Run
import FormulaKeys.Command.Class
import FormulaKeys.Config.Decode
import FormulaKeys.Config.Encode
import FormulaKeys.Config.Load
import FormulaKeys.Config.Print
import FormulaKeys.Converter
import FormulaKeys.Document.Toml
import FormulaKeys.Main
import FormulaKeys.Markup.Scan
import FormulaKeys.Page.Converter
import FormulaKeys.Proofs.Action.Coalesce
import FormulaKeys.Proofs.Markup.Plain
import FormulaKeys.Proofs.Markup.Span
import FormulaKeys.Registry
import FormulaKeys.Script.Generate
import FormulaKeys.Session
import FormulaKeys.Proofs.Markup.Caret
import FormulaKeys.Proofs.Markup.Ordinary
import FormulaKeys.Proofs.Script.Literal
import FormulaKeys.Proofs.Script.Call
import FormulaKeys.Proofs.Script.Browser
import FormulaKeys.Proofs.Markup.Lookup
import FormulaKeys.Proofs.Converter
import FormulaKeys.Proofs.Markup.Braces
import FormulaKeys.Proofs.Markup.Command
import FormulaKeys.Proofs.Markup.Group
import FormulaKeys.Proofs.Markup.Separator
import FormulaKeys.Proofs.Markup.Formula
import FormulaKeys.Proofs.Script.Hotkey
import FormulaKeys.Proofs.Markup.Binding
import FormulaKeys.Proofs.Label
import FormulaKeys.Proofs.Page.Converter
import FormulaKeys.Proofs.Script.Typed
import FormulaKeys.Proofs.Cli.Outcome
import FormulaKeys.Proofs.Markup.Recovery
import FormulaKeys.Proofs.Config.Restate
import FormulaKeys.Proofs.Registry.Fault
import FormulaKeys.Proofs.Markup.Verbatim
import FormulaKeys.Proofs.Markup.Checked
import FormulaKeys.Proofs.Markup.Trace
import FormulaKeys.Proofs.Script.Missing
import FormulaKeys.Proofs.Markup.Trigger
import FormulaKeys.Proofs.Action.Listing
import FormulaKeys.Proofs.Script.Chord
import FormulaKeys.Proofs.Action.Operation
import FormulaKeys.Proofs.Markup.Size
import FormulaKeys.Proofs.Markup.Slash
import FormulaKeys.Proofs.Page.Fault
import FormulaKeys.Proofs.Script.Escape
import FormulaKeys.Proofs.Markup.Closer
import FormulaKeys.Proofs.Session
