import FormulaKeys.Proofs.Markup.Braces
import FormulaKeys.Proofs.Markup.Command
import FormulaKeys.Proofs.Markup.Refinement

/-! Groups stand alone.

The content of an argument is read as if it were the whole markup, and the markup behind
the construct as if nothing had come before it. Where the construct leaves a navigation
key behind, no text reaches across it; a wrapper leaves none, and texts meet.
-/

set_option autoImplicit false

namespace FormulaKeys

theorem Text.isAlpha_of_isBlank {c : Char} (blank : isBlank c = true) : c.isAlpha = false := by
  have apart : ∀ range ∈ blankRanges, range.2 < 65 ∨ 122 < range.1 := by decide
  obtain ⟨range, listed, low, high⟩ := inRanges_eq_true.mp blank
  apply Bool.eq_false_iff.mpr
  intro letter
  -- A letter lies between the first of the capital and the last of the small ones.
  change (decide (c.val ≥ 65 ∧ c.val ≤ 90) ||
    decide (c.val ≥ 97) && decide (c.val ≤ 122)) = true at letter
  simp only [Bool.or_eq_true, Bool.and_eq_true, decide_eq_true_eq, ge_iff_le,
    UInt32.le_iff_toNat_le] at letter
  change 65 ≤ c.toNat ∧ c.toNat ≤ 90 ∨ 97 ≤ c.toNat ∧ c.toNat ≤ 122 at letter
  have := apart range listed
  omega

namespace Markup

namespace Plain

variable {registry : Registry} {mapping : Mapping} {name : String}
  {first second blanks more rest : List Char}

/-- Neither a blank nor the brace of a group belongs to a name. -/
theorem endsName_group (blank : ∀ c ∈ blanks, Text.isBlank c = true) (inside : List Char) :
    EndsName (blanks ++ '{' :: inside) := by
  intro c found
  cases blanks with
  | nil =>
    cases found
    decide
  | cons d blanks =>
    cases found
    exact Text.isAlpha_of_isBlank (blank c List.mem_cons_self)

theorem flat_binary (bound : registry.byTrigger? name = some mapping)
    (takes : Command.Class.ofName name = .binary)
    (blank : ∀ c ∈ blanks, Text.isBlank c = true) (balancedFirst : Balanced first)
    (blankMore : ∀ c ∈ more, Text.isBlank c = true) (balancedSecond : Balanced second)
    (rest : List Char) :
    flat registry ('\\' :: (name.toList ++ (blanks ++ '{' :: (first ++ '}' ::
        (more ++ '{' :: (second ++ '}' :: rest)))))) =
      .command mapping.id :: (flat registry first ++ .nav mapping.advance ::
        (flat registry second ++ .nav mapping.exit :: flat registry rest)) := by
  have isName : Command.IsName name := Command.isName_of_ofName (by simp [takes])
  rw [flat_cons, construct_bound isName (endsName_group blank _) bound]
  simp only [Plain.bound, takes, takeArgument_group blank balancedFirst,
    takeArgument_group blankMore balancedSecond, List.flatMap_cons, List.flatMap_nil, Part.actions,
    Argument.content, List.append_assoc, List.cons_append, List.nil_append]

theorem flat_unary (bound : registry.byTrigger? name = some mapping)
    (takes : Command.Class.ofName name = .unary)
    (blank : ∀ c ∈ blanks, Text.isBlank c = true) (balanced : Balanced first)
    (rest : List Char) :
    flat registry ('\\' :: (name.toList ++ (blanks ++ '{' :: (first ++ '}' :: rest)))) =
      .command mapping.id :: (flat registry first ++ .nav mapping.exit :: flat registry rest) := by
  have isName : Command.IsName name := Command.isName_of_ofName (by simp [takes])
  rw [flat_cons, construct_bound isName (endsName_group blank _) bound]
  simp only [Plain.bound, takes, takeArgument_group blank balanced, List.flatMap_cons,
    List.flatMap_nil, Part.actions, Argument.content, List.append_assoc, List.cons_append,
    List.nil_append]

theorem construct_marker (registry : Registry) {c : Char} (isMarker : c = '^' ∨ c = '_')
    (chars : List Char) : construct registry c chars = marker registry c chars := by
  rcases isMarker with rfl | rfl <;> rfl

theorem flat_script {c : Char} (isMarker : c = '^' ∨ c = '_')
    (bound : registry.byTrigger? (String.singleton c) = some mapping) (balanced : Balanced first)
    (rest : List Char) :
    flat registry (c :: '{' :: (first ++ '}' :: rest)) =
      .command mapping.id :: (flat registry first ++ .nav mapping.exit :: flat registry rest) := by
  have taken : takeArgument ('{' :: (first ++ '}' :: rest)) = (.closed first, rest) :=
    takeArgument_group (List.forall_mem_nil _) balanced rest
  rw [flat_cons, construct_marker registry isMarker]
  simp only [Plain.marker, bound, taken, List.flatMap_cons, List.flatMap_nil, Part.actions,
    Argument.content, List.append_assoc, List.cons_append, List.nil_append]

theorem flat_wrapper (free : registry.byTrigger? name = none)
    (takes : Command.Class.ofName name = .wrapper)
    (blank : ∀ c ∈ blanks, Text.isBlank c = true) (balanced : Balanced first)
    (rest : List Char) :
    flat registry ('\\' :: (name.toList ++ (blanks ++ '{' :: (first ++ '}' :: rest)))) =
      flat registry first ++ flat registry rest := by
  have isName : Command.IsName name := Command.isName_of_ofName (by simp [takes])
  have ends := endsName_group blank (first ++ '}' :: rest)
  rw [flat_cons, construct_unbound isName ends free]
  simp only [unbound, name_written isName ends, behindName_written isName ends, takes,
    takeArgument_group blank balanced, List.flatMap_cons, List.flatMap_nil, Part.actions,
    Argument.content, List.append_nil]

end Plain

/-- Content in which the braces balance, and whatever stands behind, are read by themselves. -/
theorem parse_groups (registry : Registry) {first second : String}
    (balancedFirst : Balanced first.toList) (balancedSecond : Balanced second.toList)
    {blanks more : String} (blank : ∀ c ∈ blanks.toList, Text.isBlank c = true)
    (blankMore : ∀ c ∈ more.toList, Text.isBlank c = true) (rest : String) :
    (∀ (name : String) (mapping : Mapping), registry.byTrigger? name = some mapping →
      Command.Class.ofName name = .binary →
      parse registry ("\\" ++ name ++ blanks ++ group first ++ more ++ group second ++ rest) =
        [Action.command mapping.id] ++ parse registry first ++ [Action.nav mapping.advance] ++
          parse registry second ++ [Action.nav mapping.exit] ++ parse registry rest) ∧
    (∀ (name : String) (mapping : Mapping), registry.byTrigger? name = some mapping →
      Command.Class.ofName name = .unary →
      parse registry ("\\" ++ name ++ blanks ++ group first ++ rest) =
        [Action.command mapping.id] ++ parse registry first ++ [Action.nav mapping.exit] ++
          parse registry rest) ∧
    (∀ (marker : Char) (mapping : Mapping), marker = '^' ∨ marker = '_' →
      registry.byTrigger? (String.singleton marker) = some mapping →
      parse registry (String.singleton marker ++ group first ++ rest) =
        [Action.command mapping.id] ++ parse registry first ++ [Action.nav mapping.exit] ++
          parse registry rest) ∧
    (∀ name : String, registry.byTrigger? name = none → Command.Class.ofName name = .wrapper →
      parse registry ("\\" ++ name ++ blanks ++ group first ++ rest) =
        Action.join (parse registry first) (parse registry rest)) := by
  have slash : "\\".toList = ['\\'] := rfl
  simp only [parse_eq_finish, Action.Builder.finish_foldl_add_empty, String.toList_append,
    toList_group, String.toList_singleton, slash, List.append_assoc, List.cons_append,
    List.nil_append]
  refine ⟨?binary, ?unary, ?script, ?wrapper⟩
  case binary =>
    intro name mapping bound takes
    rw [Plain.flat_binary bound takes blank balancedFirst blankMore balancedSecond,
      Action.coalesce, Action.coalesce_append_nav, Action.coalesce_append_nav]
  case unary =>
    intro name mapping bound takes
    rw [Plain.flat_unary bound takes blank balancedFirst, Action.coalesce,
      Action.coalesce_append_nav]
  case script =>
    intro marker mapping isMarker bound
    rw [Plain.flat_script isMarker bound balancedFirst, Action.coalesce,
      Action.coalesce_append_nav]
  case wrapper =>
    intro name free takes
    rw [Plain.flat_wrapper free takes blank balancedFirst, Action.coalesce_append]

/-- A group ends at its own brace, although a backslash or a marker stands in front of it. -/
theorem parse_groups_starter :
    Balanced "\x7ba\x7d\\".toList ∧ Balanced "b^".toList ∧
    parse Registry.starter
        ("\\" ++ "frac" ++ " \t" ++ group "\x7ba\x7d\\" ++ "\n" ++ group "b^" ++ "\x7d$c") =
      [Action.command "fraction"] ++ parse Registry.starter "\x7ba\x7d\\" ++
        [Action.nav .arrowRight] ++ parse Registry.starter "b^" ++ [Action.nav .arrowRight] ++
        parse Registry.starter "\x7d$c" ∧
    parse Registry.starter ("\\" ++ "sqrt" ++ " \t" ++ group "\x7ba\x7d\\" ++ "\x7d$c") =
      [Action.command "sqrt"] ++ parse Registry.starter "\x7ba\x7d\\" ++
        [Action.nav .arrowRight] ++ parse Registry.starter "\x7d$c" ∧
    parse Registry.starter (String.singleton '_' ++ group "\x7ba\x7d\\" ++ "\x7d$c") =
      [Action.command "subscript"] ++ parse Registry.starter "\x7ba\x7d\\" ++
        [Action.nav .arrowRight] ++ parse Registry.starter "\x7d$c" ∧
    parse Registry.starter ("\\" ++ "text" ++ " \t" ++ group "\x7ba\x7d\\" ++ "\x7d$c") =
      Action.join (parse Registry.starter "\x7ba\x7d\\") (parse Registry.starter "\x7d$c") := by
  have balancedFirst : Balanced "\x7ba\x7d\\".toList := by decide
  have balancedSecond : Balanced "b^".toList := by decide
  have blank : ∀ c ∈ " \t".toList, Text.isBlank c = true := List.all_eq_true.mp (by decide)
  have blankMore : ∀ c ∈ "\n".toList, Text.isBlank c = true := List.all_eq_true.mp (by decide)
  obtain ⟨binary, unary, script, wrapper⟩ :=
    parse_groups Registry.starter balancedFirst balancedSecond blank blankMore "\x7d$c"
  exact ⟨balancedFirst, balancedSecond, binary "frac" _ rfl (by decide),
    unary "sqrt" _ rfl (by decide), script '_' _ (.inr rfl) rfl,
    wrapper "text" (by decide) (by decide)⟩

end Markup

end FormulaKeys
