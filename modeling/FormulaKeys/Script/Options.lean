import FormulaKeys.Mapping

/-!
Script options: the timing and the hotkey of generated scripts.
-/

set_option autoImplicit false

namespace FormulaKeys.Script

/-- The pause after a mapping without a delay of its own. -/
def defaultDelay : Millis := 150

structure Options where
  /-- The pause after a mapping fires that has no delay of its own. -/
  defaultDelay : Millis := Script.defaultDelay
  /-- Browser: the time to click into the destination. -/
  focusWait : Millis := 3000
  /-- Browser: the time between the press and the release of a key. -/
  keyHold : Millis := 50
  /-- Browser: the pause after a navigation key. -/
  navDelay : Millis := 100
  /-- Hotkey: the key that starts the macro. -/
  hotkey : String := "F8"
  /-- Hotkey: the delay between keystrokes. -/
  keyDelay : Millis := 40
  /-- Hotkey: the pause after a navigation key. -/
  navPause : Millis := 100
  deriving DecidableEq, Repr

instance : Inhabited Options := ⟨{}⟩

end FormulaKeys.Script
