import FormulaKeys.Proofs.Markup.Group
import FormulaKeys.Proofs.Markup.Separator
import FormulaKeys.Proofs.Registry

/-! Formulas written as markup.

A formula is written with its arguments in braces, and with a dollar sign behind every
command that takes none. Whatever the triggers of the registry are, reading what was
written gives back the actions of the formula.
-/

set_option autoImplicit false

namespace FormulaKeys.Markup

/-- The characters that formulas are written with, besides letters. -/
def signs : List Char := ['\\', '^', '_', '$', '{', '}']

/-- Text that is not empty and is read as it stands. -/
def IsPlain (content : String) : Prop :=
  content ≠ "" ∧ ∀ c ∈ content.toList, c ∉ signs

instance (content : String) : Decidable (IsPlain content) :=
  decidable_of_iff (content ≠ "" ∧ content.toList.all (· ∉ signs) = true)
    (and_congr_right' (by simp only [List.all_eq_true, decide_eq_true_eq]))

/-- Formulas over a registry. What stands first is followed by the rest of the formula. -/
inductive Formula (registry : Registry) : Type where
  | nil
  | text (content : String) (plain : IsPlain content) (rest : Formula registry)
  | binary (mapping : Mapping) (bound : mapping ∈ registry.mappings)
      (takes : Command.Class.ofName mapping.trigger = .binary)
      (first second rest : Formula registry)
  | unary (mapping : Mapping) (bound : mapping ∈ registry.mappings)
      (takes : Command.Class.ofName mapping.trigger = .unary) (argument rest : Formula registry)
  | script (mapping : Mapping) (bound : mapping ∈ registry.mappings)
      (isMarker : mapping.trigger = "^" ∨ mapping.trigger = "_") (argument rest : Formula registry)
  /-- A command that takes no argument, because of its name, although a mapping is bound to it. -/
  | bare (mapping : Mapping) (bound : mapping ∈ registry.mappings)
      (notBinary : Command.Class.ofName mapping.trigger ≠ .binary)
      (notUnary : Command.Class.ofName mapping.trigger ≠ .unary)
      (noMarker : ¬(mapping.trigger = "^" ∨ mapping.trigger = "_")) (rest : Formula registry)
  | symbol (name : String) (value : Char) (free : registry.byTrigger? name = none)
      (takes : Command.Class.ofName name = .symbol value) (rest : Formula registry)
  | function (name : String) (free : registry.byTrigger? name = none)
      (takes : Command.Class.ofName name = .function) (rest : Formula registry)

namespace Formula

variable {registry : Registry}

def render : Formula registry → String
  | nil => ""
  | text content _ rest => content ++ rest.render
  | binary mapping _ _ first second rest =>
    "\\" ++ mapping.trigger ++ group first.render ++ group second.render ++ rest.render
  | unary mapping _ _ argument rest =>
    "\\" ++ mapping.trigger ++ group argument.render ++ rest.render
  | script mapping _ _ argument rest => mapping.trigger ++ group argument.render ++ rest.render
  | bare mapping _ _ _ _ rest => "\\" ++ mapping.trigger ++ "$" ++ rest.render
  | symbol name _ _ _ rest | function name _ _ rest => "\\" ++ name ++ "$" ++ rest.render

/-- What the formula means: the keys that build it, and one text for every piece that is typed. -/
def actions : Formula registry → List Action
  | nil => []
  | text content _ rest => .text content :: rest.actions
  | binary mapping _ _ first second rest =>
    .command mapping.id :: (first.actions ++ .nav mapping.advance ::
      (second.actions ++ .nav mapping.exit :: rest.actions))
  | unary mapping _ _ argument rest | script mapping _ _ argument rest =>
    .command mapping.id :: (argument.actions ++ .nav mapping.exit :: rest.actions)
  | bare mapping _ _ _ _ rest => .command mapping.id :: rest.actions
  | symbol _ value _ _ rest => .text (String.singleton value) :: rest.actions
  | function name _ _ rest => .text name :: rest.actions

end Formula

/-! What is written in place of each construct is read as this construct. -/

namespace Plain

variable {registry : Registry} {mapping : Mapping} {name : String}

theorem flat_text (registry : Registry) {chars : List Char}
    (plain : ∀ c ∈ chars, c ∉ signs) (rest : List Char) :
    flat registry (chars ++ rest) =
      chars.map (fun c => .text (String.singleton c)) ++ flat registry rest := by
  induction chars with
  | nil => rfl
  | cons c chars ih =>
    rw [List.forall_mem_cons] at plain
    obtain ⟨here, behind⟩ := plain
    simp only [signs, List.mem_cons, List.not_mem_nil, or_false, not_or] at here
    rw [List.cons_append, flat_cons, construct_char here.1 here.2.1 here.2.2.1 here.2.2.2.1,
      ih behind]
    rfl

theorem flat_bare (isName : Command.IsName name) (bound : registry.byTrigger? name = some mapping)
    (notBinary : Command.Class.ofName name ≠ .binary)
    (notUnary : Command.Class.ofName name ≠ .unary) (rest : List Char) :
    flat registry ('\\' :: (name.toList ++ '$' :: rest)) =
      .command mapping.id :: flat registry rest := by
  have same : Plain.bound mapping name ('$' :: rest) = ([.command mapping.id], '$' :: rest) := by
    unfold Plain.bound
    split
    next takes => exact (notBinary takes).elim
    next takes => exact (notUnary takes).elim
    all_goals rfl
  rw [flat_cons, construct_bound isName (endsName_of_stops stops_dollar rest) bound, same,
    flat_dollar]
  rfl

theorem flat_symbol {value : Char} (free : registry.byTrigger? name = none)
    (takes : Command.Class.ofName name = .symbol value) (rest : List Char) :
    flat registry ('\\' :: (name.toList ++ '$' :: rest)) =
      .text (String.singleton value) :: flat registry rest := by
  have isName : Command.IsName name := Command.isName_of_ofName (by simp [takes])
  have ends := endsName_of_stops stops_dollar rest
  have same : unbound (name.toList ++ '$' :: rest) =
      ([.text (String.singleton value)], '$' :: rest) := by
    simp only [unbound, name_written isName ends, behindName_written isName ends, takes]
    rfl
  rw [flat_cons, construct_unbound isName ends free, same, flat_dollar]
  rfl

theorem flat_function (free : registry.byTrigger? name = none)
    (takes : Command.Class.ofName name = .function) (rest : List Char) :
    flat registry ('\\' :: (name.toList ++ '$' :: rest)) = .text name :: flat registry rest := by
  have isName : Command.IsName name := Command.isName_of_ofName (by simp [takes])
  have ends := endsName_of_stops stops_dollar rest
  have same : unbound (name.toList ++ '$' :: rest) = ([.text name], '$' :: rest) := by
    simp only [unbound, name_written isName ends, behindName_written isName ends, takes]
  rw [flat_cons, construct_unbound isName ends free, same, flat_dollar]
  rfl

end Plain

namespace Formula

variable {registry : Registry}

theorem balanced_name {name : String} (isName : Command.IsName name) : Balanced name.toList := by
  apply Balanced.of_noBrace
  intro c mem
  have letter := isName.2 c mem
  constructor <;>
  · rintro rfl
    exact absurd letter (by decide)

theorem balanced_group {content : String} (inside : Balanced content.toList) :
    Balanced (group content).toList := by
  rw [toList_group]
  exact inside.braced

theorem isName_bare {mapping : Mapping} (bound : mapping ∈ registry.mappings)
    (noMarker : ¬(mapping.trigger = "^" ∨ mapping.trigger = "_")) :
    Command.IsName mapping.trigger :=
  Command.isName_of_isTrigger (registry.isTrigger mapping bound) noMarker

/-- Written formulas keep their braces in balance, so each argument ends where its group does. -/
theorem balanced_render (formula : Formula registry) : Balanced formula.render.toList := by
  have slash : Balanced "\\".toList := by decide
  have dollar : Balanced "$".toList := by decide
  have named {name : String} (takes : Command.Class.ofName name ≠ .unknown) :
      Balanced ("\\" ++ name).toList := by
    rw [String.toList_append]
    exact slash.append (balanced_name (Command.isName_of_ofName takes))
  induction formula with
  | nil => exact Balanced.nil
  | text content plain rest ih =>
    have noBrace : ∀ c ∈ content.toList, c ≠ '{' ∧ c ≠ '}' := by
      intro c mem
      have := plain.2 c mem
      simp only [signs, List.mem_cons, not_or] at this
      exact ⟨this.2.2.2.2.1, this.2.2.2.2.2.1⟩
    rw [render, String.toList_append]
    exact (Balanced.of_noBrace noBrace).append ih
  | binary mapping bound takes first second rest one two ih =>
    rw [render, String.toList_append, String.toList_append, String.toList_append]
    exact (((named (by simp [takes])).append (balanced_group one)).append
      (balanced_group two)).append ih
  | unary mapping bound takes argument rest one ih =>
    rw [render, String.toList_append, String.toList_append]
    exact ((named (by simp [takes])).append (balanced_group one)).append ih
  | script mapping bound isMarker argument rest one ih =>
    have marker : Balanced mapping.trigger.toList := by
      rcases isMarker with same | same <;> rw [same] <;> decide
    rw [render, String.toList_append, String.toList_append]
    exact (marker.append (balanced_group one)).append ih
  | bare mapping bound notBinary notUnary noMarker rest ih =>
    simp only [render, String.toList_append]
    exact ((slash.append (balanced_name (isName_bare bound noMarker))).append dollar).append ih
  | symbol name value free takes rest ih | function name free takes rest ih =>
    rw [render, String.toList_append, String.toList_append]
    exact ((named (by simp [takes])).append dollar).append ih

theorem toList_bare (name rest : String) :
    ("\\" ++ name ++ "$" ++ rest).toList = '\\' :: (name.toList ++ '$' :: rest.toList) := by
  simp

/-- Texts between the constructs come out character by character, so the actions agree only after
neighbouring texts have been joined. -/
theorem coalesce_flat_render (formula : Formula registry) :
    Action.coalesce (Plain.flat registry formula.render.toList) =
      Action.coalesce formula.actions := by
  have slash : "\\".toList = ['\\'] := rfl
  have blank := List.forall_mem_nil (fun c : Char => Text.isBlank c = true)
  have found {mapping : Mapping} (bound : mapping ∈ registry.mappings) :
      registry.byTrigger? mapping.trigger = some mapping :=
    Registry.byTrigger?_eq_some_iff.mpr ⟨bound, rfl⟩
  -- The keys of a construct part its slots from each other and from the rest, so the formulas in
  -- them are coalesced one by one.
  induction formula with
  | nil => rw [render, actions, String.toList_empty, Plain.flat_nil]
  | text content plain rest ih =>
    rw [render, String.toList_append, Plain.flat_text registry plain.2, Action.coalesce_chars,
      String.ofList_toList]
    exact Action.coalesce_text_congr content ih
  | binary mapping bound takes first second rest one two ih =>
    have read := Plain.flat_binary (found bound) takes blank first.balanced_render blank
      second.balanced_render rest.render.toList
    simp only [List.nil_append] at read
    simp only [render, String.toList_append, toList_group, slash, List.append_assoc,
      List.cons_append, List.nil_append, read, actions, Action.coalesce,
      Action.coalesce_append_nav, one, two, ih]
  | unary mapping bound takes argument rest one ih =>
    have read := Plain.flat_unary (found bound) takes blank argument.balanced_render
      rest.render.toList
    simp only [List.nil_append] at read
    simp only [render, String.toList_append, toList_group, slash, List.append_assoc,
      List.cons_append, List.nil_append, read, actions, Action.coalesce,
      Action.coalesce_append_nav, one, ih]
  | script mapping bound isMarker argument rest one ih =>
    obtain ⟨c, same, isMarker⟩ :
        ∃ c, mapping.trigger = String.singleton c ∧ (c = '^' ∨ c = '_') := by
      rcases isMarker with same | same
      · exact ⟨'^', same, .inl rfl⟩
      · exact ⟨'_', same, .inr rfl⟩
    have read := Plain.flat_script isMarker (same ▸ found bound) argument.balanced_render
      rest.render.toList
    simp only [render, same, String.toList_append, String.toList_singleton, toList_group,
      List.append_assoc, List.cons_append, List.nil_append, read, actions, Action.coalesce,
      Action.coalesce_append_nav, one, ih]
  | bare mapping bound notBinary notUnary noMarker rest ih =>
    rw [render, toList_bare, Plain.flat_bare (isName_bare bound noMarker) (found bound) notBinary
      notUnary, actions, Action.coalesce, Action.coalesce, ih]
  | symbol name value free takes rest ih =>
    rw [render, toList_bare, Plain.flat_symbol free takes, actions]
    exact Action.coalesce_text_congr _ ih
  | function name free takes rest ih =>
    rw [render, toList_bare, Plain.flat_function free takes, actions]
    exact Action.coalesce_text_congr _ ih

/-- Reading what was written gives back the formula, with neighbouring texts joined. -/
theorem parse_render (formula : Formula registry) :
    parse registry formula.render = Action.coalesce formula.actions := by
  rw [parse_eq_finish, Action.Builder.finish_foldl_add_empty]
  exact formula.coalesce_flat_render

/-- Fractions and scripts nest, and texts stand beside commands without arguments. -/
example :
    (binary (Mapping.starter.ctrl "fraction" "Fraction (\\frac)" "frac" 'f' (some .arrowRight))
      (by decide) (by decide)
      (text "a" (by decide)
        (script (Mapping.starter.ctrl "superscript" "Superscript (^)" "^" 'h' none) (by decide)
          (by decide) (text "2, n" (by decide) nil) nil))
      (symbol "pi" 'π' (by decide) (by decide) (text " x" (by decide) nil))
      (function "sin" (by decide) (by decide) nil) : Formula Registry.starter).render =
    "\\frac\x7ba^\x7b2, n\x7d\x7d\x7b\\pi$ x\x7d\\sin$" := by
  rfl

end Formula

end FormulaKeys.Markup
