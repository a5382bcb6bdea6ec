import FormulaKeys.Proofs.Script.Call
import FormulaKeys.Proofs.Script.Step
import FormulaKeys.Script.Generate

/-! Browser scripts read back.

Between a fixed beginning and a fixed end, a script holds one line to an action, and that line holds
the calls of the action and nothing else. Texts are arbitrary: none of them ends its literal or its
line early.
-/

set_option autoImplicit false

namespace FormulaKeys.Script.Browser

open Text (OneLine oneLine_append oneLine_ofList)
open Token (Lexes lexes_literal lexes_number lexes_word)

def typeCall (text : String) : Call :=
  ⟨"typeText", [.text text]⟩

def pressCall (key : String) (ctrl shift alt : Bool) (delay : Millis) : Call :=
  ⟨"press", [.text key, .flag ctrl, .flag shift, .flag alt, .number delay.toNat]⟩

def waitCall (time : Millis) : Call :=
  ⟨"wait", [.number time.toNat]⟩

/-- The calls that fire a mapping. -/
inductive Fires (options : Options) (mapping : Mapping) : List Call → Prop where
  | shortcut {chord : Chord} (effect : mapping.effect = .shortcut chord) :
      Fires options mapping
        [pressCall (String.singleton chord.key) chord.ctrl chord.shift chord.alt
          (mapping.delay.getD options.defaultDelay)]
  | sequence {text : String} (effect : mapping.effect = .sequence text) :
      Fires options mapping [typeCall text, waitCall (mapping.delay.getD options.defaultDelay)]

/-- The calls that replay an action. -/
inductive Replays (options : Options) (registry : Registry) : Action → List Call → Prop where
  | text (content : String) : Replays options registry (.text content) [typeCall content]
  | command {id : String} {mapping : Mapping} {calls : List Call}
      (found : registry.byId? id = some mapping) (fires : Fires options mapping calls) :
      Replays options registry (.command id) calls
  | nav (key : NavKey) :
      Replays options registry (.nav key)
        [pressCall key.name false false false options.navDelay]

/-! What is written in one line, cut into tokens. -/

theorem lexes_end : Lexes ");" [.mark ')', .mark ';'] := by
  intro rest
  simp [Token.readAll?, Token.isWordChar, Function.comp_def]

theorem lexes_comma : Lexes ", " [.mark ','] := by
  intro rest
  simp [Token.readAll?, Token.isWordChar]

theorem lexes_flag (value : Bool) :
    Lexes (press.flag value ++ ", ") [(Value.flag value).token, .mark ','] := by
  cases value <;>
  · apply lexes_word
    · simp [press.flag]
    · simp [press.flag, Token.isWordChar]
    · exact ⟨',', rfl, by decide⟩
    · exact lexes_comma

theorem lexes_lastDecimal (time : Millis) :
    Lexes (time.decimal ++ ");") [(Value.number time.toNat).token, .mark ')', .mark ';'] := by
  apply lexes_number
  · exact ⟨')', rfl, by decide⟩
  · exact lexes_end

theorem lexes_typeText (text : String) : Lexes (typeText text) (typeCall text).tokens := by
  have opening : Lexes "  await typeText("
      [.word "await".toList, .word "typeText".toList, .mark '('] := by
    intro rest
    simp [Token.readAll?, Token.isWordChar, Function.comp_def]
  exact (opening.append (lexes_literal text)).append lexes_end

theorem lexes_press (key : String) (ctrl shift alt : Bool) (delay : Millis) :
    Lexes (press key ctrl shift alt delay) (pressCall key ctrl shift alt delay).tokens := by
  have opening :
      Lexes "  await press(" [.word "await".toList, .word "press".toList, .mark '('] := by
    intro rest
    simp [Token.readAll?, Token.isWordChar, Function.comp_def]
  -- A word is read together with the mark that ends it, so each flag keeps its comma.
  have flags := (lexes_flag ctrl).append ((lexes_flag shift).append (lexes_flag alt))
  have regrouped : press key ctrl shift alt delay =
      "  await press(" ++ quoted key ++ ", " ++
        ((press.flag ctrl ++ ", ") ++ ((press.flag shift ++ ", ") ++ (press.flag alt ++ ", ")) ++
          (delay.decimal ++ ");")) := by
    unfold press
    simp only [String.append_assoc]
  rw [regrouped]
  exact ((opening.append (lexes_literal key)).append lexes_comma).append
    (flags.append (lexes_lastDecimal delay))

theorem lexes_wait (time : Millis) :
    Lexes (" await wait(" ++ (time.decimal ++ ");")) (waitCall time).tokens := by
  have opening : Lexes " await wait(" [.word "await".toList, .word "wait".toList, .mark '('] := by
    intro rest
    simp [Token.readAll?, Token.isWordChar, Function.comp_def]
  exact opening.append (lexes_lastDecimal time)

theorem readAll?_of_lexes {line : String} {call : Call} (lexes : Lexes line call.tokens) :
    Call.readAll? line = some [call] := by
  apply Call.readAll?_of_lexes
  rwa [List.flatMap_singleton]

theorem statement_fires (options : Options) (mapping : Mapping) :
    ∃ calls, Fires options mapping calls ∧
      Call.readAll? (statement options (.fire mapping)) = some calls := by
  cases effect : mapping.effect with
  | shortcut chord =>
    refine ⟨_, .shortcut effect, ?_⟩
    simp only [statement, effect]
    exact readAll?_of_lexes (lexes_press _ _ _ _ _)
  | sequence text =>
    refine ⟨_, .sequence effect, ?_⟩
    simp only [statement, effect, String.append_assoc]
    apply Call.readAll?_of_lexes
    exact (lexes_typeText text).append (lexes_wait _)

/-- A step was looked up for its action, and its line holds the calls of this action. -/
theorem statement_replays (options : Options) {registry : Registry} {action : Action} {step : Step}
    (known : Step.ofAction registry action = .ok step) :
    ∃ calls, Replays options registry action calls ∧
      Call.readAll? (statement options step) = some calls := by
  cases action with
  | text content =>
    cases known
    exact ⟨_, .text content, readAll?_of_lexes (lexes_typeText content)⟩
  | command id =>
    rw [Step.ofAction] at known
    split at known
    next mapping found =>
      cases known
      obtain ⟨calls, fires, read⟩ := statement_fires options mapping
      exact ⟨calls, .command found fires, read⟩
    next => cases known
  | nav key =>
    cases known
    refine ⟨_, .nav key, ?_⟩
    simp only [statement]
    exact readAll?_of_lexes (lexes_press _ _ _ _ _)

/-! No line of a script is broken. -/

theorem oneLine_decimal (time : Millis) : OneLine time.decimal :=
  Text.oneLine_repr time.toNat

theorem oneLine_quoted (text : String) : OneLine (quoted text) := by
  have quote : OneLine "'" := oneLine_ofList (by decide)
  exact oneLine_append.mpr ⟨oneLine_append.mpr ⟨quote, Literal.oneLine_escape text⟩, quote⟩

theorem oneLine_typeText (text : String) : OneLine (typeText text) := by
  unfold typeText
  simp only [oneLine_append, oneLine_quoted, and_true]
  constructor <;> exact oneLine_ofList (by decide)

theorem oneLine_press (key : String) (ctrl shift alt : Bool) (delay : Millis) :
    OneLine (press key ctrl shift alt delay) := by
  have flag (value : Bool) : OneLine (press.flag value) := by
    cases value <;> exact oneLine_ofList (by decide)
  unfold press
  simp only [oneLine_append, oneLine_quoted, oneLine_decimal, flag, and_true]
  and_intros <;> exact oneLine_ofList (by decide)

theorem oneLine_statement (options : Options) (step : Step) : OneLine (statement options step) := by
  cases step with
  | text content =>
    simp only [statement]
    exact oneLine_typeText content
  | fire mapping =>
    cases effect : mapping.effect with
    | shortcut chord =>
      simp only [statement, effect]
      exact oneLine_press ..
    | sequence text =>
      simp only [statement, effect, oneLine_append, oneLine_typeText, oneLine_decimal, and_true,
        true_and]
      constructor <;> exact oneLine_ofList (by decide)
  | nav key =>
    simp only [statement]
    exact oneLine_press ..

theorem oneLine_preamble (options : Options) : ∀ line ∈ preamble options, OneLine line := by
  simp only [preamble, List.forall_mem_cons, List.not_mem_nil, false_implies, implies_true,
    oneLine_append, oneLine_decimal, and_true]
  and_intros <;> exact oneLine_ofList (by decide)

theorem oneLine_trailer : ∀ line ∈ trailer, OneLine line := by
  simp only [trailer, List.forall_mem_cons, List.not_mem_nil, false_implies, implies_true,
    and_true]
  and_intros <;> exact oneLine_ofList (by decide)

/-! Statements are recognised by what they start with. -/

/-- The lines that a reader of a script would count. -/
def isStatement (line : String) : Bool :=
  line.startsWith "  await typeText(" || line.startsWith "  await press("

theorem isStatement_typeText (text rest : String) : isStatement (typeText text ++ rest) = true := by
  have opening : (typeText text ++ rest).startsWith "  await typeText(" = true := by
    rw [String.startsWith_string_iff]
    unfold typeText
    simp only [String.append_assoc, String.toList_append]
    exact List.prefix_append ..
  rw [isStatement, opening, Bool.true_or]

theorem isStatement_press (key : String) (ctrl shift alt : Bool) (delay : Millis) :
    isStatement (press key ctrl shift alt delay) = true := by
  have opening : (press key ctrl shift alt delay).startsWith "  await press(" = true := by
    rw [String.startsWith_string_iff]
    unfold press
    simp only [String.append_assoc, String.toList_append]
    exact List.prefix_append ..
  rw [isStatement, opening, Bool.or_true]

theorem isStatement_statement (options : Options) (step : Step) :
    isStatement (statement options step) = true := by
  cases step with
  | text content =>
    have := isStatement_typeText content ""
    rwa [String.append_empty] at this
  | fire mapping =>
    cases effect : mapping.effect with
    | shortcut chord =>
      simp only [statement, effect]
      exact isStatement_press ..
    | sequence text =>
      simp only [statement, effect, String.append_assoc]
      exact isStatement_typeText ..
  | nav key =>
    simp only [statement]
    exact isStatement_press ..

/-- How far a line must be read to see that it is no statement. -/
def openings : List (List Char) :=
  [[' ', ' ', 'a', 'w', 'a', 'i', 't', ' ', 't'], [' ', ' ', 'a', 'w', 'a', 'i', 't', ' ', 'p']]

theorem opening_of_isStatement {line : String} (known : isStatement line = true) :
    ∃ opening ∈ openings, opening <+: line.toList := by
  rw [isStatement, Bool.or_eq_true, String.startsWith_string_iff, String.startsWith_string_iff,
    String.toList_ofList, String.toList_ofList] at known
  rcases known with typing | pressing
  · exact ⟨_, List.mem_cons_self, List.IsPrefix.trans (by decide) typing⟩
  · exact ⟨_, List.mem_cons_of_mem _ List.mem_cons_self, List.IsPrefix.trans (by decide) pressing⟩

theorem isStatement_eq_false {chars : List Char} (rest : String)
    (apart : ∀ opening ∈ openings, ¬opening <+: chars ∧ ¬chars <+: opening) :
    isStatement (String.ofList chars ++ rest) = false := by
  apply Bool.eq_false_iff.mpr
  intro known
  obtain ⟨opening, member, first⟩ := opening_of_isStatement known
  rw [String.toList_append, String.toList_ofList] at first
  rcases List.prefix_or_prefix_of_prefix first (List.prefix_append chars rest.toList) with
    short | long
  · exact (apart opening member).1 short
  · exact (apart opening member).2 long

theorem isStatement_literal {chars : List Char}
    (apart : ∀ opening ∈ openings, ¬opening <+: chars ∧ ¬chars <+: opening) :
    isStatement (String.ofList chars) = false := by
  have := isStatement_eq_false "" apart
  rwa [String.append_empty] at this

theorem isStatement_preamble (options : Options) :
    ∀ line ∈ preamble options, isStatement line = false := by
  simp only [preamble, List.forall_mem_cons, List.not_mem_nil, false_implies, implies_true,
    String.append_assoc, and_true]
  and_intros
  -- A line that holds a duration is told apart by what stands in front of it.
  all_goals first
    | with_reducible exact isStatement_literal (by decide)
    | with_reducible exact isStatement_eq_false _ (by decide)

theorem isStatement_trailer : ∀ line ∈ trailer, isStatement line = false := by
  simp only [trailer, List.forall_mem_cons, List.not_mem_nil, false_implies, implies_true,
    and_true]
  and_intros <;> exact isStatement_literal (by decide)

/-- A script that says what the actions say, line by line of its body. -/
structure Says (options : Options) (registry : Registry) (actions : List Action) (script : String)
    (body : List String) : Prop where
  whole : script =
    Text.unlines (preamble options) ++ Text.unlines body ++ Text.unlines trailer
  oneLine : ∀ line ∈ body, OneLine line
  replayed : List.Forall₂ (fun action line =>
    ∃ calls, Replays options registry action calls ∧ Call.readAll? line = some calls) actions body
  apart : ∀ line ∈ preamble options ++ trailer, isStatement line = false
  counted : (Text.lines script).countP isStatement = actions.length

theorem lines_script (options : Options) (steps : List Step) :
    Text.lines (script options steps) =
      preamble options ++ steps.map (statement options) ++ trailer := by
  apply Text.lines_unlines
  simp only [List.forall_mem_append, List.forall_mem_map]
  exact ⟨⟨oneLine_preamble options, fun step _ => oneLine_statement options step⟩, oneLine_trailer⟩

theorem countP_lines_script (options : Options) (steps : List Step) :
    (Text.lines (script options steps)).countP isStatement = steps.length := by
  have before : (preamble options).countP isStatement = 0 :=
    List.countP_eq_zero.mpr fun line known => by simp [isStatement_preamble options line known]
  have behind : trailer.countP isStatement = 0 :=
    List.countP_eq_zero.mpr fun line known => by simp [isStatement_trailer line known]
  have between : (steps.map (statement options)).countP isStatement = steps.length := by
    rw [List.countP_map, List.countP_eq_length]
    exact fun step _ => isStatement_statement options step
  rw [lines_script, List.countP_append, List.countP_append, before, behind, between]
  omega

theorem says_script (options : Options) {registry : Registry} {actions : List Action}
    {steps : List Step}
    (each : List.Forall₂ (fun action step => Step.ofAction registry action = .ok step)
      actions steps) :
    Says options registry actions (script options steps) (steps.map (statement options)) := by
  -- Action, step and line correspond one by one, so what is known of each pair holds of the lists.
  constructor
  case whole => rw [script, Text.unlines_append, Text.unlines_append]
  case oneLine =>
    simp only [List.forall_mem_map]
    exact fun step _ => oneLine_statement options step
  case replayed =>
    rw [List.forall₂_map_right_iff]
    exact each.imp fun action step => statement_replays options
  case apart =>
    exact List.forall_mem_append.mpr ⟨isStatement_preamble options, isStatement_trailer⟩
  case counted => rw [countP_lines_script, each.length_eq]

theorem generate_says (options : Options) {registry : Registry} {actions : List Action}
    (resolved : ∀ id, Action.command id ∈ actions → (registry.byId? id).isSome) :
    ∃ script body, generate .browser options registry actions = .ok script ∧
      Says options registry actions script body := by
  obtain ⟨steps, known⟩ := Step.exists_ofActions resolved
  refine ⟨script options steps, _, ?_, says_script options (Step.ofActions_eq_ok_iff.mp known)⟩
  rw [generate, known]
  rfl

theorem generate_says_escaped :
    ∃ script body,
      generate .browser {} Registry.starter
        [.text "'); alert('\n", .command "fraction", .nav .tab] = .ok script ∧
      Says {} Registry.starter [.text "'); alert('\n", .command "fraction", .nav .tab]
        script body := by
  apply generate_says
  intro id known
  simp only [List.mem_cons, List.not_mem_nil, reduceCtorEq, Action.command.injEq, false_or,
    or_false] at known
  subst known
  decide

end FormulaKeys.Script.Browser
