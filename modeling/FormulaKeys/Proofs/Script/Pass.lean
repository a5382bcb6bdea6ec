import FormulaKeys.Proofs.Text.Lines
import FormulaKeys.Script.Generate
import Mathlib.Data.List.Basic

/-! Scripts written in one pass over the actions.

A pass looks a mapping up when it comes to the action that names it, and writes behind what has been
written so far. It breaks off at the first mapping that is missing. The lines of the two targets
have nothing in common, yet their passes break off at the same action, since both look up alike.
-/

set_option autoImplicit false

namespace FormulaKeys.Script

open Text (unlines unlines_cons unlines_append)

/-- What is reported on the way is kept when a failure ends the work. -/
abbrev Reporting := ExceptT UnknownMapping (StateM (List Event))

def report (event : Event) : Reporting Unit := modify (· ++ [event])

def lookup (registry : Registry) (id : String) : Except UnknownMapping Mapping :=
  match registry.byId? id with
  | some mapping => .ok mapping
  | none => .error ⟨id⟩

/-- Write an action behind `out`. -/
def Browser.write (options : Options) (registry : Registry) (out : String) :
    Action → Except UnknownMapping String
  | .text content => return out ++ typeText content ++ "\n"
  | .command id => do
    let mapping ← lookup registry id
    let delay := mapping.delayOr options.defaultDelay
    match mapping.effect with
    | .shortcut chord =>
      let key := String.singleton chord.key
      return out ++ press key chord.ctrl chord.shift chord.alt delay ++ "\n"
    | .sequence text => return out ++ typeText text ++ " await wait(" ++ delay.decimal ++ ");\n"
  | .nav key => return out ++ press key.name false false false options.navDelay ++ "\n"

/-- Write an action behind `out`. -/
def Hotkey.write (options : Options) (registry : Registry) (out : String) :
    Action → Except UnknownMapping String
  | .text content => return out ++ send (Send.escape content) ++ "\n"
  | .command id => do
    let mapping ← lookup registry id
    let sent :=
      match mapping.effect with
      | .shortcut chord => out ++ send (chordKeys chord) ++ "\n"
      | .sequence text => out ++ send (Send.escape text) ++ "\n"
    return sent ++ sleep (mapping.delayOr options.defaultDelay) ++ "\n"
  | .nav key =>
    return out ++ send ("\x7b" ++ key.macroName ++ "\x7d") ++ "\n" ++ sleep options.navPause ++ "\n"

/-- What is written before the first action, for each action and behind the last. -/
structure Pass where
  opening : String
  write : String → Action → Except UnknownMapping String
  closing : String

namespace Pass

def of (options : Options) (registry : Registry) : Target → Pass
  | .browser =>
    ⟨unlines (Browser.preamble options), Browser.write options registry, unlines Browser.trailer⟩
  | .hotkey =>
    ⟨unlines (Hotkey.header options), Hotkey.write options registry, unlines Hotkey.trailer⟩

/-- A script that has been written to its end is summed up. -/
def run (target : Target) (options : Options) (registry : Registry) (actions : List Action) :
    Reporting String := do
  let pass := of options registry target
  report (.generating target actions.length)
  let out ← ofExcept (actions.foldlM pass.write pass.opening)
  let script := out ++ pass.closing
  report (.generated target actions.length script.utf8ByteSize)
  return script

end Pass

/-- The lines of a step in the scripts for a target. -/
def Target.lines (options : Options) : Target → Step → List String
  | browser, step => [Browser.statement options step]
  | hotkey, step => Hotkey.group options step

theorem ofAction_command (registry : Registry) (id : String) :
    Step.ofAction registry (.command id) = (lookup registry id).map .fire := by
  rw [Step.ofAction, lookup]
  cases registry.byId? id <;> rfl

/-! One action, and then all of them. -/

theorem Browser.write_eq (options : Options) (registry : Registry) (out : String)
    (action : Action) :
    write options registry out action = (Step.ofAction registry action).map fun step =>
      out ++ unlines [statement options step] := by
  have one (line : String) : unlines [line] = line ++ "\n" := by simp [Text.unlines]
  cases action with
  | text | nav =>
    simp [write, Step.ofAction, statement, one, Except.map, pure, Except.pure, String.append_assoc]
  | command id =>
    rw [ofAction_command, write]
    cases lookup registry id with
    | error missing => rfl
    | ok mapping =>
      cases effect : mapping.effect <;>
        simp [Except.map, bind, Except.bind, pure, Except.pure, statement, effect, one,
          String.append_assoc]

theorem Hotkey.write_eq (options : Options) (registry : Registry) (out : String)
    (action : Action) :
    write options registry out action = (Step.ofAction registry action).map fun step =>
      out ++ unlines (group options step) := by
  have one (line : String) : unlines [line] = line ++ "\n" := by simp [Text.unlines]
  have two (first second : String) :
      unlines [first, second] = first ++ "\n" ++ (second ++ "\n") := by simp [Text.unlines]
  cases action with
  | text | nav =>
    simp [write, Step.ofAction, group, one, two, Except.map, pure, Except.pure, String.append_assoc]
  | command id =>
    rw [ofAction_command, write]
    cases lookup registry id with
    | error missing => rfl
    | ok mapping =>
      cases effect : mapping.effect <;>
        simp [Except.map, bind, Except.bind, pure, Except.pure, group, effect, two,
          String.append_assoc]

namespace Pass

/-- An action is written as soon as it can be looked up, and then as the lines of its step. -/
theorem write_eq (target : Target) (options : Options) (registry : Registry) (out : String)
    (action : Action) :
    (of options registry target).write out action =
      (Step.ofAction registry action).map fun step =>
        out ++ unlines (target.lines options step) := by
  cases target with
  | browser => exact Browser.write_eq options registry out action
  | hotkey => exact Hotkey.write_eq options registry out action

theorem foldlM_write (target : Target) (options : Options) (registry : Registry)
    (actions : List Action) (out : String) :
    actions.foldlM (of options registry target).write out =
      (Step.ofActions registry actions).map fun steps =>
        out ++ unlines (steps.flatMap (target.lines options)) := by
  induction actions generalizing out with
  | nil => simp [Step.ofActions, Except.map, pure, Except.pure, Text.unlines]
  | cons action rest ih =>
    rw [List.foldlM_cons, write_eq, Step.ofActions]
    cases Step.ofAction registry action with
    | error missing => rfl
    | ok step =>
      change List.foldlM _ (out ++ unlines (target.lines options step)) rest = _
      rw [ih]
      cases Step.ofActions registry rest with
      | error missing => rfl
      | ok steps =>
        simp only [Except.map, List.flatMap_cons, unlines_append, String.append_assoc]

theorem ofSteps_eq (target : Target) (options : Options) (registry : Registry)
    (steps : List Step) :
    ofSteps target options steps = (of options registry target).opening ++
      unlines (steps.flatMap (target.lines options)) ++ (of options registry target).closing := by
  cases target with
  | browser =>
    have single : steps.flatMap (Target.browser.lines options) =
        steps.map (Browser.statement options) := List.map_eq_flatMap.symm
    rw [single, ofSteps, Browser.script, unlines_append, unlines_append]
    rfl
  | hotkey =>
    rw [ofSteps, Hotkey.script, unlines_append, unlines_append]
    rfl

/-- What a pass comes to, and what it reports: of a pass that breaks off no part of a script is left
and no summary. -/
theorem run_eq (target : Target) (options : Options) (registry : Registry)
    (actions : List Action) :
    ((run target options registry actions).run.run []).run =
      (generate target options registry actions, events target options registry actions) := by
  unfold run generate events
  simp only [foldlM_write, generate]
  cases Step.ofActions registry actions with
  | error missing => rfl
  | ok steps =>
    simp only [Except.map, ofSteps_eq target options registry]
    rfl

end Pass

end FormulaKeys.Script
