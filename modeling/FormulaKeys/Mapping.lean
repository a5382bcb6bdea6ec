import FormulaKeys.Millis
import FormulaKeys.NavKey

/-!
Key mappings: what the destination editor does when a trigger occurs in the markup, either one chord
or a literal sequence, and which keys move the caret through and out of the construct it opens.
-/

set_option autoImplicit false

namespace FormulaKeys

/-- A key pressed together with modifiers. -/
structure Chord where
  key : Char
  ctrl : Bool
  shift : Bool
  alt : Bool
  deriving DecidableEq, Repr

inductive Effect where
  | shortcut (chord : Chord)
  /-- Text that the destination editor expands by itself. -/
  | sequence (text : String)
  deriving DecidableEq, Repr

structure Mapping where
  id : String
  /-- For display only. -/
  name : String
  /-- A command name without its backslash, or one of the markers `^` and `_`. -/
  trigger : String
  effect : Effect
  /-- The pause after the mapping fires. -/
  delay : Option Millis
  /-- The key from the first to the second argument. -/
  advanceKey : Option NavKey
  /-- The key out of the construct. -/
  exitKey : Option NavKey
  deriving DecidableEq, Repr

namespace Mapping

def isShortcut (mapping : Mapping) : Bool :=
  match mapping.effect with
  | .shortcut _ => true
  | .sequence _ => false

/-- The key that is pressed from the first to the second argument. -/
def advance (mapping : Mapping) : NavKey := mapping.advanceKey.getD default

/-- The key that is pressed to leave the construct. -/
def exit (mapping : Mapping) : NavKey := mapping.exitKey.getD default

def delayOr (mapping : Mapping) (fallback : Millis) : Millis := mapping.delay.getD fallback

/-- The mappings to begin with: both markers, the fraction and the square root, each a letter
pressed with Ctrl. -/
def starter : List Mapping :=
  [ctrl "subscript" "Subscript (_)" "_" 'l' none,
    ctrl "superscript" "Superscript (^)" "^" 'h' none,
    ctrl "fraction" "Fraction (\\frac)" "frac" 'f' (some .arrowRight),
    ctrl "sqrt" "Square root (\\sqrt)" "sqrt" 'r' none]
where
  ctrl (id name trigger : String) (key : Char) (advanceKey : Option NavKey) : Mapping :=
    { id, name, trigger, effect := .shortcut ⟨key, true, false, false⟩, delay := some 5,
      advanceKey, exitKey := some .arrowRight }

end Mapping

end FormulaKeys
