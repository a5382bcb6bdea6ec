import FormulaKeys.Proofs.Registry
import FormulaKeys.Proofs.Script.Hotkey
import FormulaKeys.Proofs.Script.Typed

/-! Chords as both scripts press them.

A browser script passes the key and its modifiers to one call. A hotkey script writes a prefix for
each modifier in front of the key, which is escaped like a text: whatever glyph it is, it is neither
obeyed nor taken for a prefix. The two agree on every key but the carriage return, for which the
macro writes nothing.
-/

set_option autoImplicit false

namespace FormulaKeys.Script

namespace Send

/-! A text of one character is one stroke. -/

/-- A text of one space has it at its end. -/
def Stroke.ofKey (key : Char) : Stroke := if key = ' ' then .space else .char key

theorem escape_singleton (key : Char) :
    (escape (String.singleton key)).toList = (Stroke.ofKey key).written := by
  by_cases space : key = ' '
  · subst space
    decide
  · rw [Stroke.ofKey, if_neg space]
    simp [escape, body, space, Stroke.written]

theorem Stroke.types_ofKey (key : Char) :
    (Stroke.ofKey key).types = if key = '\r' then [] else [key] := by
  unfold Stroke.ofKey
  split
  next space =>
    subst space
    rfl
  next => rfl

/-- Nothing that is written for a key is trimmed. -/
theorem any_isTrimmed_ofKey (key : Char) : (Stroke.ofKey key).written.any isTrimmed = false := by
  unfold Stroke.ofKey
  split
  next => rfl
  next noSpace =>
    rw [Stroke.written]
    fun_cases escapeChar key
    case case13 noTab _ _ => simpa [isTrimmed, noSpace] using noTab
    all_goals rfl

theorem trim_of_any {chars : List Char} (kept : chars.any isTrimmed = false) :
    trim chars = chars := by
  rw [List.any_eq_false] at kept
  have front : chars.dropWhile isTrimmed = chars :=
    List.dropWhile_eq_self_iff.mpr fun nonempty => kept _ (List.getElem_mem nonempty)
  rw [trim, front, List.rdropWhile_eq_self_iff]
  exact fun nonempty => kept _ (List.getLast_mem nonempty)

end Send

namespace Hotkey

/-- The prefixes of the modifiers that are held. -/
def held (chord : Chord) : List Char :=
  ([('^', chord.ctrl), ('+', chord.shift), ('!', chord.alt)].filter (·.2)).map (·.1)

def isHeld (c : Char) : Bool := c == '^' || c == '+' || c == '!'

/-- The prefixes in front of a trimmed argument, and the keys that are typed behind them. -/
def pressed? (argument : String) : Option (List Char × List Char) :=
  let chars := Send.trim argument.toList
  (Send.typed? (chars.dropWhile isHeld)).map (chars.takeWhile isHeld, ·)

theorem isHeld_of_mem_held {chord : Chord} {c : Char} (mem : c ∈ held chord) :
    isHeld c = true ∧ Send.isTrimmed c = false := by
  have listed : c ∈ ['^', '+', '!'] := (List.filter_sublist.map Prod.fst).subset mem
  simp only [List.mem_cons, List.not_mem_nil, or_false] at listed
  rcases listed with rfl | rfl | rfl <;> decide

theorem toList_chordKeys (chord : Chord) :
    (chordKeys chord).toList = held chord ++ (Send.Stroke.ofKey chord.key.toLower).written := by
  simp only [chordKeys, String.toList_append, Send.escape_singleton]
  cases ctrl : chord.ctrl <;> cases shift : chord.shift <;> cases alt : chord.alt <;>
    simp [held, ctrl, shift, alt]

/-- A glyph that would hold a modifier is not written bare. -/
theorem takeWhile_isHeld_ofKey (key : Char) :
    (Send.Stroke.ofKey key).written.takeWhile isHeld = [] := by
  unfold Send.Stroke.ofKey
  split
  next => decide
  next =>
    rw [Send.Stroke.written]
    fun_cases Send.escapeChar key
    case case13 caret mark plus _ _ _ _ _ _ _ =>
      have bare : isHeld key = false := by simpa [isHeld] using ⟨⟨caret, plus⟩, mark⟩
      simp [bare]
    all_goals decide

/-- Lower case gives no carriage return. -/
theorem toLower_eq_return_iff {key : Char} : key.toLower = '\r' ↔ key = '\r' := by
  constructor
  · intro same
    unfold Char.toLower at same
    split at same
    next upper =>
      have code : (key.toNat + 32) % 2 ^ 32 = 13 := congrArg Char.toNat same
      obtain ⟨low, high⟩ : 65 ≤ key.toNat ∧ key.toNat ≤ 90 := upper
      omega
    next => exact same
  · rintro rfl
    rfl

theorem pressed?_chordKeys (chord : Chord) :
    pressed? (chordKeys chord) =
      some (held chord, if chord.key = '\r' then [] else [chord.key.toLower]) := by
  let stroke := Send.Stroke.ofKey chord.key.toLower
  have untrimmed : Send.trim (chordKeys chord).toList = held chord ++ stroke.written := by
    rw [toList_chordKeys]
    apply Send.trim_of_any
    rw [List.any_append, Send.any_isTrimmed_ofKey, Bool.or_false, List.any_eq_false]
    exact fun c mem => Bool.eq_false_iff.mp (isHeld_of_mem_held mem).2
  have prefixes : ∀ c ∈ held chord, isHeld c = true := fun c mem => (isHeld_of_mem_held mem).1
  have bare : stroke.written.takeWhile isHeld = [] := takeWhile_isHeld_ofKey _
  have whole : stroke.written.dropWhile isHeld = stroke.written := by
    simpa [bare] using List.takeWhile_append_dropWhile (p := isHeld) (l := stroke.written)
  have keys := Send.typed?_written [stroke]
  rw [List.flatMap_singleton, List.flatMap_singleton, Send.Stroke.types_ofKey] at keys
  simp only [toLower_eq_return_iff] at keys
  rw [pressed?, untrimmed, List.dropWhile_append_of_pos prefixes, whole, keys,
    List.takeWhile_append_of_pos prefixes, bare, List.append_nil, Option.map_some]

example : pressed? (chordKeys ⟨'+', true, true, false⟩) = some (['^', '+'], ['+']) := by decide

end Hotkey

/-- A line of a browser script and an argument of a hotkey script that press the chord. -/
structure Presses (options : Options) (mapping : Mapping) (chord : Chord) (line argument : String) :
    Prop where
  browser : Call.readAll? line =
    some [Browser.pressCall (String.singleton chord.key) chord.ctrl chord.shift chord.alt
      (mapping.delayOr options.defaultDelay)]
  hotkey : Hotkey.pressed? argument =
    some (Hotkey.held chord, if chord.key = '\r' then [] else [chord.key.toLower])

theorem presses_fire (options : Options) {mapping : Mapping} {chord : Chord}
    (effect : mapping.effect = .shortcut chord) :
    Presses options mapping chord (Browser.statement options (.fire mapping))
      (Hotkey.keys mapping.effect) := by
  rw [effect]
  constructor
  case browser =>
    simp only [Browser.statement, effect]
    exact Browser.readAll?_of_lexes (Browser.lexes_press _ _ _ _ _)
  case hotkey => exact Hotkey.pressed?_chordKeys chord

/-- Both scripts press the chord of each shortcut that the actions fire, the browser with its key as
it is, the macro with its key in lower case; only the carriage return is no key of the macro. -/
theorem generate_presses (options : Options) {registry : Registry} {actions : List Action}
    (resolved : ∀ id, Action.command id ∈ actions → (registry.byId? id).isSome) :
    ∃ browser body hotkey lines groups,
      generate .browser options registry actions = .ok browser ∧
      Text.lines browser = Browser.preamble options ++ body ++ Browser.trailer ∧
      generate .hotkey options registry actions = .ok hotkey ∧
      Hotkey.Says options registry actions hotkey lines groups ∧
      ∀ {index : Nat} {id : String} {mapping : Mapping} {chord : Chord},
        actions[index]? = some (.command id) → registry.byId? id = some mapping →
        mapping.effect = .shortcut chord →
          ∃ line argument pause, body[index]? = some line ∧
            groups[index]? = some (.command argument pause) ∧
            Presses options mapping chord line argument := by
  obtain ⟨steps, known⟩ := Step.exists_ofActions resolved
  have whole := Hotkey.says_script options (Step.ofActions_eq_ok_iff.mp known)
  refine ⟨Browser.script options steps, steps.map (Browser.statement options), _, _, _, ?_,
    Browser.lines_script options steps, ?_, whole, ?_⟩
  · rw [generate, known]
    rfl
  · rw [generate, known]
    rfl
  · intro index id mapping chord stands found effect
    obtain ⟨step, same, fired⟩ := Step.getElem?_ofActions known stands
    rw [Step.ofAction, found] at fired
    cases fired
    refine ⟨_, _, (mapping.delayOr options.defaultDelay).toNat, ?_, ?_,
      presses_fire options effect⟩
    · rw [List.getElem?_map, same, Option.map_some]
    · rw [List.getElem?_map, same, Option.map_some, Hotkey.Group.ofStep]

theorem generate_presses_fraction :
    ∃ browser body hotkey lines groups line argument pause,
      generate .browser {} Registry.starter [.text "^", .command "fraction"] = .ok browser ∧
      Text.lines browser = Browser.preamble {} ++ body ++ Browser.trailer ∧
      generate .hotkey {} Registry.starter [.text "^", .command "fraction"] = .ok hotkey ∧
      Hotkey.Says {} Registry.starter [.text "^", .command "fraction"] hotkey lines groups ∧
      body[1]? = some line ∧ groups[1]? = some (.command argument pause) ∧
      Call.readAll? line = some [Browser.pressCall "f" true false false 5] ∧
      Hotkey.pressed? argument = some (['^'], ['f']) := by
  have resolved : ∀ id, Action.command id ∈ [.text "^", .command "fraction"] →
      (Registry.starter.byId? id).isSome := by
    intro id known
    simp only [List.mem_cons, List.not_mem_nil, reduceCtorEq, Action.command.injEq, false_or,
      or_false] at known
    subst known
    decide
  obtain ⟨browser, body, hotkey, lines, groups, written, cut, sent, whole, presses⟩ :=
    generate_presses {} resolved
  have stands : [Action.text "^", .command "fraction"][1]? = some (.command "fraction") := rfl
  obtain ⟨line, argument, pause, one, other, both⟩ := presses stands rfl rfl
  exact ⟨browser, body, hotkey, lines, groups, line, argument, pause, written, cut, sent, whole,
    one, other, both.browser, both.hotkey⟩

/-- For a carriage return the macro holds the modifier and presses no key. -/
theorem generate_presses_return :
    ∃ registry,
      Registry.ofList [⟨"a", "", "a", .shortcut ⟨'\r', true, false, false⟩, none, none, none⟩] =
        .ok registry ∧
      generate .hotkey {} registry [.command "a"] =
        .ok ("; Press F8 to start typing.\nF8::\nSetKeyDelay, 40, 40\n" ++
          "Send, ^\nSleep, 150\nReturn\n") ∧
      Hotkey.pressed? "^" = some (['^'], []) := by
  let mapping : Mapping := ⟨"a", "", "a", .shortcut ⟨'\r', true, false, false⟩, none, none, none⟩
  have usable : IsTrigger mapping.trigger := by simp [mapping, IsTrigger]
  obtain ⟨registry, accepted, same⟩ :=
    Registry.exists_ofList_singleton (by simp [mapping]) usable
  have found : registry.byId? "a" = some mapping :=
    Registry.byId?_eq_some_iff.mpr ⟨same ▸ List.mem_cons_self, rfl⟩
  have known : Step.ofActions registry [.command "a"] = .ok [.fire mapping] := by
    simp only [Step.ofActions, Step.ofAction, found]
  refine ⟨registry, accepted, ?_, by decide⟩
  rw [generate, known]
  decide

end FormulaKeys.Script
