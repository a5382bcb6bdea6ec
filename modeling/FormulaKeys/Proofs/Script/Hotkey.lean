import FormulaKeys.Proofs.Script.Browser
import FormulaKeys.Proofs.Script.Send

/-! Hotkey scripts read back.

The statements of a script fall into groups, one to an action: what is sent and the pause behind it.
A reader tells from the lines alone where a group ends and what it replays, since no text that is
sent looks like a pause, like the end of the macro, or like a key that moves the caret.
-/

set_option autoImplicit false

namespace FormulaKeys.Script.Hotkey

open Text (OneLine oneLine_append oneLine_ofList oneLine_repr)

/-- The statements of one action. -/
inductive Group where
  | text (argument : String)
  | command (argument : String) (pause : Nat)
  | nav (key : NavKey) (pause : Nat)
  deriving DecidableEq, Repr

namespace Group

/-- What is sent. -/
def argument : Group → String
  | text argument | command argument _ => argument
  | nav key _ => "\x7b" ++ key.macroName ++ "\x7d"

/-- How long the macro sleeps behind it. -/
def pause : Group → Option Nat
  | text _ => none
  | command _ pause | nav _ pause => some pause

def lines (group : Group) : List String :=
  ("Send, " ++ group.argument) :: (group.pause.map fun pause => "Sleep, " ++ pause.repr).toList

/-! Reading groups. -/

/-- The key whose name in braces is the whole argument. -/
def key? (argument : String) : Option NavKey :=
  NavKey.all.find? fun key => argument == "\x7b" ++ key.macroName ++ "\x7d"

/-- The group of an argument and the pause behind it. The caret does not move without a pause. -/
def ofArgument? (argument : String) (pause : Option Nat) : Option Group :=
  match key? argument, pause with
  | some key, some pause => some (nav key pause)
  | some _, none => none
  | none, some pause => some (command argument pause)
  | none, none => some (text argument)

/-- What a line sends, if it is no other statement. -/
def sent? (line : String) : Option String :=
  ("Send, ".toList.isPrefixOf? line.toList).map String.ofList

/-- The duration that a line sleeps. -/
def slept? (line : String) : Option Nat :=
  match "Sleep, ".toList.isPrefixOf? line.toList with
  | some digits => if Value.isDecimal digits then some (Nat.ofDigitChars 10 digits 0) else none
  | none => none

/-- The groups of the lines up to the end of the macro, which must be the last of them. -/
def readAll? : List String → Option (List Group)
  | [] => none
  | [line] => if line = "Return" then some [] else none
  | line :: next :: behind => do
    let argument ← sent? line
    match slept? next with
    | some pause => return (← ofArgument? argument (some pause)) :: (← readAll? behind)
    | none => return (← ofArgument? argument none) :: (← readAll? (next :: behind))

theorem sent?_send (argument : String) : sent? ("Send, " ++ argument) = some argument := by
  rw [sent?, String.toList_append, List.isPrefixOf?_eq_some_iff_append_eq.mpr rfl, Option.map_some,
    String.ofList_toList]

theorem slept?_sleep (pause : Nat) : slept? ("Sleep, " ++ pause.repr) = some pause := by
  rw [slept?, String.toList_append, List.isPrefixOf?_eq_some_iff_append_eq.mpr rfl]
  dsimp only
  rw [if_pos (Value.isDecimal_repr pause), Nat.toList_repr, Nat.ofDigitChars_ten_toDigits]

theorem slept?_send (argument : String) : slept? ("Send, " ++ argument) = none := by
  have apart : "Sleep, ".toList.isPrefixOf? ("Send, " ++ argument).toList = none := by
    rw [String.toList_append]
    rfl
  rw [slept?, apart]

/-- Behind a text stands the next group or the end of the macro, and neither is a pause. -/
theorem slept?_head (groups : List Group) :
    ∃ next behind, groups.flatMap lines ++ ["Return"] = next :: behind ∧ slept? next = none := by
  cases groups with
  | nil => exact ⟨"Return", [], rfl, by decide⟩
  | cons group groups => exact ⟨"Send, " ++ group.argument, _, rfl, slept?_send group.argument⟩

theorem readAll?_lines (group : Group) (groups : List Group)
    (legible : ofArgument? group.argument group.pause = some group) :
    readAll? (group.lines ++ (groups.flatMap lines ++ ["Return"])) =
      (readAll? (groups.flatMap lines ++ ["Return"])).map (group :: ·) := by
  cases waits : group.pause with
  | none =>
    obtain ⟨next, behind, same, unpaused⟩ := slept?_head groups
    rw [waits] at legible
    rw [same, lines, waits, Option.map_none, Option.toList_none, List.singleton_append, readAll?,
      sent?_send, unpaused]
    simp only [Option.bind_eq_bind, Option.bind_some, legible]
    cases readAll? (next :: behind) <;> rfl
  | some pause =>
    rw [waits] at legible
    rw [lines, waits, Option.map_some, Option.toList_some, List.cons_append, List.singleton_append,
      readAll?, sent?_send, slept?_sleep]
    simp only [Option.bind_eq_bind, Option.bind_some, legible]
    cases readAll? (groups.flatMap lines ++ ["Return"]) <;> rfl

theorem readAll?_flatMap_lines {groups : List Group}
    (legible : ∀ group ∈ groups, ofArgument? group.argument group.pause = some group) :
    readAll? (groups.flatMap lines ++ ["Return"]) = some groups := by
  induction groups with
  | nil => rfl
  | cons group groups ih =>
    obtain ⟨first, others⟩ := List.forall_mem_cons.mp legible
    rw [List.flatMap_cons, List.append_assoc, readAll?_lines group groups first, ih others]
    rfl

/-- The name of a key begins like nothing that is typed by a brace. -/
theorem key?_eq_none {argument : String} (typed : Send.Opens argument.toList) :
    key? argument = none := by
  cases found : key? argument with
  | none => rfl
  | some key =>
    have named : argument = "\x7b" ++ key.macroName ++ "\x7d" := by
      simpa using List.find?_some found
    subst named
    obtain ⟨c, known, first⟩ := typed (key.macroName ++ "\x7d").toList (by simp)
    cases key <;>
      obtain rfl := Option.some.inj first <;>
      exact absurd known (by decide)

theorem key?_macroName (key : NavKey) : key? ("\x7b" ++ key.macroName ++ "\x7d") = some key := by
  cases key <;> decide

end Group

/-- What is sent when a mapping fires. -/
def keys : Effect → String
  | .shortcut chord => chordKeys chord
  | .sequence text => Send.escape text

/-- The group that replays an action. -/
inductive Replays (options : Options) (registry : Registry) : Action → Group → Prop where
  | text (content : String) :
      Replays options registry (.text content) (.text (Send.escape content))
  | command {id : String} {mapping : Mapping} (found : registry.byId? id = some mapping) :
      Replays options registry (.command id)
        (.command (keys mapping.effect) (mapping.delay.getD options.defaultDelay).toNat)
  | nav (key : NavKey) : Replays options registry (.nav key) (.nav key options.navPause.toNat)

/-- No modifier is a brace, so only the key itself can open one. -/
theorem opens_chordKeys (chord : Chord) : Send.Opens (chordKeys chord).toList := by
  have modifier (pressed : Bool) {name : String} (c : Char) {chars : List Char}
      (single : name.toList = [c]) (noBrace : c ≠ '\x7b') (behind : Send.Opens chars) :
      Send.Opens ((if pressed then name else "").toList ++ chars) := by
    cases pressed with
    | false => exact behind
    | true =>
      rw [if_pos rfl, single]
      exact Send.opens_cons noBrace chars
  unfold chordKeys
  simp only [String.toList_append, List.append_assoc]
  apply modifier chord.ctrl '^' rfl (by decide)
  apply modifier chord.shift '+' rfl (by decide)
  apply modifier chord.alt '!' rfl (by decide)
  exact Send.opens_escape _

theorem opens_keys (effect : Effect) : Send.Opens (keys effect).toList := by
  cases effect with
  | shortcut chord => exact opens_chordKeys chord
  | sequence text => exact Send.opens_escape text

/-- A group that replays an action is told from every other group by its statements. -/
theorem Replays.legible {options : Options} {registry : Registry} {action : Action} {group : Group}
    (replays : Replays options registry action group) :
    Group.ofArgument? group.argument group.pause = some group := by
  cases replays with
  | text content =>
    simp only [Group.ofArgument?, Group.argument, Group.pause,
      Group.key?_eq_none (Send.opens_escape content)]
  | command =>
    simp only [Group.ofArgument?, Group.argument, Group.pause, Group.key?_eq_none (opens_keys _)]
  | nav key => simp only [Group.ofArgument?, Group.argument, Group.pause, Group.key?_macroName]

/-! What is written for a step is a group. -/

def Group.ofStep (options : Options) : Step → Group
  | .text content => .text (Send.escape content)
  | .fire mapping => .command (keys mapping.effect) (mapping.delayOr options.defaultDelay).toNat
  | .nav key => .nav key options.navPause.toNat

theorem group_eq_lines (options : Options) (step : Step) :
    group options step = (Group.ofStep options step).lines := by
  cases step with
  | text | nav => rfl
  | fire mapping =>
    simp only [group, Group.ofStep]
    cases mapping.effect <;> rfl

theorem script_eq (options : Options) (steps : List Step) :
    script options steps =
      Text.unlines (header options ++ (steps.map (Group.ofStep options)).flatMap Group.lines ++
        trailer) := by
  rw [script, List.flatMap_map, List.flatMap_congr fun step _ => group_eq_lines options step]

theorem replays_ofStep (options : Options) {registry : Registry} {action : Action} {step : Step}
    (known : Step.ofAction registry action = .ok step) :
    Replays options registry action (Group.ofStep options step) := by
  cases action with
  | text content =>
    cases known
    exact .text content
  | command id =>
    rw [Step.ofAction] at known
    split at known
    next mapping found =>
      cases known
      exact .command found
    next => cases known
  | nav key =>
    cases known
    exact .nav key

/-! No line is broken. -/

theorem oneLine_chordKeys (chord : Chord) : OneLine (chordKeys chord) := by
  have modifier (pressed : Bool) {name : String} (unbroken : OneLine name) :
      OneLine (if pressed then name else "") := by
    cases pressed with
    | false => exact oneLine_ofList (by decide)
    | true => exact unbroken
  unfold chordKeys
  simp only [oneLine_append, Send.oneLine_escape, and_true]
  refine ⟨⟨modifier _ ?_, modifier _ ?_⟩, modifier _ ?_⟩ <;> exact oneLine_ofList (by decide)

theorem oneLine_keys (effect : Effect) : OneLine (keys effect) := by
  cases effect with
  | shortcut chord => exact oneLine_chordKeys chord
  | sequence text => exact Send.oneLine_escape text

theorem Replays.oneLine {options : Options} {registry : Registry} {action : Action} {group : Group}
    (replays : Replays options registry action group) : OneLine group.argument := by
  cases replays with
  | text content => exact Send.oneLine_escape content
  | command => exact oneLine_keys _
  | nav key =>
    have name : OneLine key.macroName := by cases key <;> exact oneLine_ofList (by decide)
    rw [Group.argument, oneLine_append, oneLine_append]
    exact ⟨⟨oneLine_ofList (by decide), name⟩, oneLine_ofList (by decide)⟩

theorem oneLine_lines {group : Group} (unbroken : OneLine group.argument) :
    ∀ line ∈ group.lines, OneLine line := by
  rw [Group.lines, List.forall_mem_cons]
  refine ⟨oneLine_append.mpr ⟨oneLine_ofList (by decide), unbroken⟩, ?_⟩
  cases group.pause with
  | none => simp
  | some pause =>
    simp only [Option.map_some, Option.toList_some, List.forall_mem_singleton]
    exact oneLine_append.mpr ⟨oneLine_ofList (by decide), oneLine_repr pause⟩

/-! A group sends once. -/

def isSend (line : String) : Bool := line.startsWith "Send, "

theorem countP_lines (group : Group) : group.lines.countP isSend = 1 := by
  have sends : isSend ("Send, " ++ group.argument) = true := by
    rw [isSend, String.startsWith_string_iff, String.toList_append]
    exact List.prefix_append ..
  have sleeps (pause : Nat) : isSend ("Sleep, " ++ pause.repr) = false := by
    rw [isSend, ← Bool.not_eq_true, String.startsWith_string_iff, String.toList_append]
    simp
  rw [Group.lines, List.countP_cons_of_pos sends]
  cases group.pause with
  | none => rfl
  | some pause => simp [sleeps]

theorem countP_flatMap_lines (groups : List Group) :
    (groups.flatMap Group.lines).countP isSend = groups.length := by
  induction groups with
  | nil => rfl
  | cons group groups ih =>
    rw [List.flatMap_cons, List.countP_append, countP_lines, ih, List.length_cons, Nat.add_comm]

/-- A script of these groups, one to an action, between its header and its end. -/
structure Says (options : Options) (registry : Registry) (actions : List Action) (script : String)
    (body : List String) (groups : List Group) : Prop where
  whole : script =
    "; Press " ++ options.hotkey ++ " to start typing.\n" ++
    options.hotkey ++ "::\n" ++
    "SetKeyDelay, " ++ options.keyDelay.toNat.repr ++ ", " ++ options.keyDelay.toNat.repr ++ "\n" ++
    Text.unlines body ++ "Return\n"
  oneLine : ∀ line ∈ body, OneLine line
  /-- The text between the header and the end is cut into lines in one way only. -/
  unique : ∀ lines, (∀ line ∈ lines, OneLine line) → Text.unlines lines = Text.unlines body →
    lines = body
  grouped : body = groups.flatMap Group.lines
  replayed : List.Forall₂ (Replays options registry) actions groups
  recovered : Group.readAll? (Text.lines (Text.unlines body ++ "Return\n")) = some groups
  counted : body.countP isSend = actions.length

theorem forall_mem_of_replayed {options : Options} {registry : Registry} {actions : List Action}
    {groups : List Group} {property : Group → Prop}
    (each : ∀ {action group}, Replays options registry action group → property group)
    (replayed : List.Forall₂ (Replays options registry) actions groups) :
    ∀ group ∈ groups, property group := by
  induction replayed with
  | nil => simp
  | cons first _ ih => exact List.forall_mem_cons.mpr ⟨each first, ih⟩

theorem unlines_header (options : Options) :
    Text.unlines (header options) =
      "; Press " ++ options.hotkey ++ " to start typing.\n" ++
      options.hotkey ++ "::\n" ++
      "SetKeyDelay, " ++ options.keyDelay.toNat.repr ++ ", " ++ options.keyDelay.toNat.repr ++
        "\n" := by
  rw [← String.toList_inj]
  simp [Text.unlines, header, Millis.decimal]

theorem Says.of_replayed {options : Options} {registry : Registry} {actions : List Action}
    {groups : List Group} (replayed : List.Forall₂ (Replays options registry) actions groups) :
    Says options registry actions
      (Text.unlines (header options ++ groups.flatMap Group.lines ++ trailer))
      (groups.flatMap Group.lines) groups := by
  have unbroken : ∀ line ∈ groups.flatMap Group.lines, OneLine line := by
    intro line known
    obtain ⟨group, mem, within⟩ := List.mem_flatMap.mp known
    exact oneLine_lines (forall_mem_of_replayed Replays.oneLine replayed group mem) line within
  have ended : Text.unlines trailer = "Return\n" := by decide
  constructor
  case whole => rw [Text.unlines_append, Text.unlines_append, ended, unlines_header]
  case oneLine => exact unbroken
  case unique =>
    intro lines others same
    rw [← Text.lines_unlines others, same, Text.lines_unlines unbroken]
  case grouped => rfl
  case replayed => exact replayed
  case recovered =>
    rw [← ended, ← Text.unlines_append, Text.lines_unlines]
    · exact Group.readAll?_flatMap_lines (forall_mem_of_replayed Replays.legible replayed)
    · rw [List.forall_mem_append]
      exact ⟨unbroken, List.forall_mem_singleton.mpr (oneLine_ofList (by decide))⟩
  case counted => rw [countP_flatMap_lines, replayed.length_eq]

theorem says_script (options : Options) {registry : Registry} {actions : List Action}
    {steps : List Step}
    (each : List.Forall₂ (fun action step => Step.ofAction registry action = .ok step)
      actions steps) :
    Says options registry actions (script options steps)
      ((steps.map (Group.ofStep options)).flatMap Group.lines)
      (steps.map (Group.ofStep options)) := by
  rw [script_eq]
  apply Says.of_replayed
  rw [List.forall₂_map_right_iff]
  exact each.imp fun action step => replays_ofStep options

/-- One group of statements replays each action, and the browser script for the same actions has as
many statements as this script sends. -/
theorem generate_groups (options : Options) {registry : Registry} {actions : List Action}
    (resolved : ∀ id, Action.command id ∈ actions → (registry.byId? id).isSome) :
    ∃ script body groups browser,
      generate .hotkey options registry actions = .ok script ∧
      Says options registry actions script body groups ∧
      generate .browser options registry actions = .ok browser ∧
      (Text.lines browser).countP Browser.isStatement = body.countP isSend := by
  obtain ⟨steps, known⟩ := Step.exists_ofActions resolved
  have each := Step.ofActions_eq_ok_iff.mp known
  have whole := says_script options each
  refine ⟨_, _, _, Browser.script options steps, ?_, whole, ?_, ?_⟩
  · rw [generate, known]
    rfl
  · rw [generate, known]
    rfl
  · rw [Browser.countP_lines_script, whole.counted, each.length_eq]

/-- A text may pretend to be a pause, the end of the macro and a key that moves the caret. -/
theorem generate_groups_disguised :
    ∃ script body groups browser,
      generate .hotkey {} Registry.starter
        [.text "\nSleep, 5\r\nReturn", .text "\x7bLeft\x7d", .command "fraction", .nav .tab] =
          .ok script ∧
      Says {} Registry.starter
        [.text "\nSleep, 5\r\nReturn", .text "\x7bLeft\x7d", .command "fraction", .nav .tab] script
        body groups ∧
      generate .browser {} Registry.starter
        [.text "\nSleep, 5\r\nReturn", .text "\x7bLeft\x7d", .command "fraction", .nav .tab] =
          .ok browser ∧
      (Text.lines browser).countP Browser.isStatement = body.countP isSend := by
  apply generate_groups
  intro id known
  simp only [List.mem_cons, List.not_mem_nil, reduceCtorEq, Action.command.injEq, false_or,
    or_false] at known
  subst known
  decide

end FormulaKeys.Script.Hotkey
