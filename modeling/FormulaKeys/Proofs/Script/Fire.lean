import FormulaKeys.Proofs.Script.Chord

/-! Mappings that fire.

A script has one part for each action, and the parts of the commands fire mappings. Read back, such
a part presses the chord of the mapping or types its text, and waits as long as the mapping asks
for.
-/

set_option autoImplicit false

namespace FormulaKeys

/-- The parts that stand where the commands stand. -/
def Action.atCommands {Part : Type} : List Action → List Part → List Part
  | .command _ :: actions, part :: parts => part :: atCommands actions parts
  | .text _ :: actions, _ :: parts | .nav _ :: actions, _ :: parts => atCommands actions parts
  | [], _ | _, [] => []

namespace Script

/-- The group that fires a mapping, as it is read by who presses and types what is sent. -/
inductive Hotkey.Fires (options : Options) (mapping : Mapping) : Group → Prop where
  | shortcut {chord : Chord} {argument : String} (effect : mapping.effect = .shortcut chord)
      (pressed : pressed? argument =
        some (held chord, if chord.key = '\r' then [] else [chord.key.toLower])) :
      Fires options mapping (.command argument (mapping.delay.getD options.defaultDelay).toNat)
  | sequence {text argument : String} (effect : mapping.effect = .sequence text)
      (typed : Send.typed? argument.toList = some (Send.withoutReturns text)) :
      Fires options mapping (.command argument (mapping.delay.getD options.defaultDelay).toNat)

/-- A script that says what the actions say, and in which the commands fire these mappings. -/
inductive Fires (options : Options) (registry : Registry) (actions : List Action)
    (mappings : List Mapping) : Target → String → Prop where
  | browser {script : String} {body : List String}
      (whole : Browser.Says options registry actions script body)
      (fires : List.Forall₂ (fun mapping line =>
          ∃ calls, Browser.Fires options mapping calls ∧ Call.readAll? line = some calls)
        mappings (Action.atCommands actions body)) :
      Fires options registry actions mappings .browser script
  | hotkey {script : String} {lines : List String} {groups : List Hotkey.Group}
      (whole : Hotkey.Says options registry actions script lines groups)
      (fires : List.Forall₂ (Hotkey.Fires options) mappings (Action.atCommands actions groups)) :
      Fires options registry actions mappings .hotkey script

theorem Hotkey.fires_ofStep (options : Options) (mapping : Mapping) :
    Fires options mapping (Group.ofStep options (.fire mapping)) := by
  rw [Group.ofStep]
  cases effect : mapping.effect with
  | shortcut chord => exact .shortcut effect (pressed?_chordKeys chord)
  | sequence text => exact .sequence effect (Send.typed?_escape text)

namespace Step

def mapping? : Step → Option Mapping
  | .fire mapping => some mapping
  | .text _ | .nav _ => none

/-- The mappings that fire, from first to last. -/
def fired (steps : List Step) : List Mapping := steps.filterMap mapping?

variable {registry : Registry} {actions : List Action} {steps : List Step}

/-- Where each step writes a part, the parts of the commands are those of the fired mappings. -/
theorem atCommands_map {Part : Type} (write : Step → Part)
    (each : List.Forall₂ (fun action step => ofAction registry action = .ok step) actions steps) :
    Action.atCommands actions (steps.map write) =
      (fired steps).map fun mapping => write (.fire mapping) := by
  induction each with
  | nil => rfl
  | @cons action step actions steps known _ ih =>
    cases action with
    | text | nav =>
      cases known
      exact ih
    | command id =>
      rw [ofAction] at known
      split at known
      next mapping found =>
        cases known
        exact congrArg (write (.fire mapping) :: ·) ih
      next => cases known

end Step

/-- The script of the steps fires what the steps fire. -/
theorem fires_ofSteps (target : Target) (options : Options) {registry : Registry}
    {actions : List Action} {steps : List Step}
    (each : List.Forall₂ (fun action step => Step.ofAction registry action = .ok step)
      actions steps) :
    Fires options registry actions (Step.fired steps) target
      (ofSteps target options steps) := by
  cases target with
  | browser =>
    refine .browser (Browser.says_script options each) ?_
    rw [Step.atCommands_map _ each, List.forall₂_map_right_iff, List.forall₂_same]
    exact fun mapping _ => Browser.statement_fires options mapping
  | hotkey =>
    refine .hotkey (Hotkey.says_script options each) ?_
    rw [Step.atCommands_map _ each, List.forall₂_map_right_iff, List.forall₂_same]
    exact fun mapping _ => Hotkey.fires_ofStep options mapping

end Script

end FormulaKeys
