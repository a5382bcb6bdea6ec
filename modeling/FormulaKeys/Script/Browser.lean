import FormulaKeys.Script.Literal
import FormulaKeys.Script.Options
import FormulaKeys.Script.Step
import FormulaKeys.Text.Lines

/-!
Browser scripts: asynchronous scripts for the developer console of a browser. After a grace period
for a click into the destination, every step is replayed on the focused element, one statement and
one line to a step.
-/

set_option autoImplicit false

namespace FormulaKeys.Script.Browser

/-- Waits for the focus and defines what the statements call. -/
def preamble (options : Options) : List String :=
  ["(async function() \x7b",
    "  const wait = ms => new Promise(r => setTimeout(r, ms));",
    "  console.log(\"%cClick the target input within " ++ options.focusWait.decimal ++
      " ms...\", \"color: blue; font-size: 16px;\");",
    "  await wait(" ++ options.focusWait.decimal ++ ");",
    "  const target = document.activeElement;",
    "  if (!target || target === document.body) return;",
    "  target.focus();",
    "  const KEY_CODES = \x7b ArrowLeft: 37, ArrowUp: 38, ArrowRight: 39, ArrowDown: 40, " ++
      "Tab: 9, Enter: 13 \x7d;",
    "  const dispatchKey = (type, key, code, keyCode, ctrl, shift, alt) => \x7b",
    "    const event = new KeyboardEvent(type, \x7b key, code, keyCode, which: keyCode, " ++
      "ctrlKey: ctrl, shiftKey: shift, altKey: alt, bubbles: true, cancelable: true \x7d);",
    "    target.dispatchEvent(event);",
    "  \x7d;",
    "  const typeText = async (txt) => \x7b",
    "    if (!txt) return;",
    "    if (document.execCommand('insertText', false, txt)) return;",
    "    if (target.tagName === 'INPUT' || target.tagName === 'TEXTAREA') \x7b",
    "      const start = target.selectionStart;",
    "      const end = target.selectionEnd;",
    "      target.value = target.value.slice(0, start) + txt + target.value.slice(end);",
    "      target.selectionStart = target.selectionEnd = start + txt.length;",
    "      target.dispatchEvent(new Event('input', \x7b bubbles: true \x7d));",
    "    \x7d",
    "  \x7d;",
    "  const press = async (keyChar, ctrl, shift, alt, delay = " ++
      options.defaultDelay.decimal ++ ") => \x7b",
    "    const upperKey = keyChar.toUpperCase();",
    "    const named = keyChar in KEY_CODES;",
    "    const code = named ? keyChar : /^[0-9]$/.test(keyChar) ? 'Digit' + keyChar : " ++
      "'Key' + upperKey;",
    "    const keyCode = named ? KEY_CODES[keyChar] : upperKey.charCodeAt(0);",
    "    if (ctrl) dispatchKey('keydown', 'Control', 'ControlLeft', 17, true, false, false);",
    "    if (shift) dispatchKey('keydown', 'Shift', 'ShiftLeft', 16, ctrl, true, false);",
    "    if (alt) dispatchKey('keydown', 'Alt', 'AltLeft', 18, ctrl, shift, true);",
    "    dispatchKey('keydown', keyChar, code, keyCode, ctrl, shift, alt);",
    "    await wait(" ++ options.keyHold.decimal ++ ");",
    "    dispatchKey('keyup', keyChar, code, keyCode, ctrl, shift, alt);",
    "    if (alt) dispatchKey('keyup', 'Alt', 'AltLeft', 18, ctrl, shift, false);",
    "    if (shift) dispatchKey('keyup', 'Shift', 'ShiftLeft', 16, ctrl, false, false);",
    "    if (ctrl) dispatchKey('keyup', 'Control', 'ControlLeft', 17, false, false, false);",
    "    await wait(delay);",
    "  \x7d;"]

def trailer : List String :=
  ["  console.log(\"%cDone.\", \"color: green; font-size: 16px;\");",
    "\x7d)();"]

def quoted (text : String) : String :=
  "'" ++ Literal.escape text ++ "'"

def press (key : String) (ctrl shift alt : Bool) (delay : Millis) : String :=
  "  await press(" ++ quoted key ++ ", " ++ flag ctrl ++ ", " ++ flag shift ++ ", " ++ flag alt ++
    ", " ++ delay.decimal ++ ");"
where
  flag : Bool → String
    | true => "true"
    | false => "false"

def typeText (text : String) : String :=
  "  await typeText(" ++ quoted text ++ ");"

def statement (options : Options) : Step → String
  | .text content => typeText content
  | .fire mapping =>
    let delay := mapping.delayOr options.defaultDelay
    match mapping.effect with
    | .shortcut chord =>
      press (String.singleton chord.key) chord.ctrl chord.shift chord.alt delay
    | .sequence text => typeText text ++ " await wait(" ++ delay.decimal ++ ");"
  | .nav key => press key.name false false false options.navDelay

def script (options : Options) (steps : List Step) : String :=
  Text.unlines (preamble options ++ steps.map (statement options) ++ trailer)

end FormulaKeys.Script.Browser
