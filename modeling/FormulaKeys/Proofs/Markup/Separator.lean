import FormulaKeys.Proofs.Markup.Braces
import FormulaKeys.Proofs.Markup.Command
import FormulaKeys.Proofs.Markup.Refinement

/-! Separators.

Readers look ahead: for the end of a name, for blanks and braces of arguments that are
still to come. A dollar sign ends whatever is looked for, just as the end of the markup
does, so what stands in front of it and what stands behind it are read apart.
-/

set_option autoImplicit false

namespace FormulaKeys.Markup

/-- A marker at the end takes the first character of whatever is put behind the list. -/
def Unmarked (chars : List Char) : Prop :=
  chars.getLast? ≠ some '^' ∧ chars.getLast? ≠ some '_'

instance (chars : List Char) : Decidable (Unmarked chars) :=
  inferInstanceAs (Decidable (_ ∧ _))

theorem Unmarked.of_suffix {chars rest : List Char} (unmarked : Unmarked chars)
    (behind : rest <:+ chars) : Unmarked rest := by
  obtain ⟨passed, rfl⟩ := behind
  have last {c : Char} (found : rest.getLast? = some c) :
      (passed ++ rest).getLast? = some c := by
    rw [List.getLast?_append, found]
    rfl
  exact ⟨fun found => unmarked.1 (last found), fun found => unmarked.2 (last found)⟩

/-- A character that stops all looking ahead, as the end of the markup does. -/
structure Stops (c : Char) : Prop where
  letter : c.isAlpha = false
  blank : Text.isBlank c = false
  brace : c ≠ '{'
  comma : c ≠ ','

theorem stops_dollar : Stops '$' := by
  constructor <;> decide

namespace Plain

variable {c : Char} {chars : List Char}

theorem endsName_of_stops (stops : Stops c) (rest : List Char) : EndsName (c :: rest) := by
  intro first found
  cases found
  exact stops.letter

theorem takeWhile_append_stop {inClass : Char → Bool} (stop : inClass c = false)
    (chars rest : List Char) :
    (chars ++ c :: rest).takeWhile inClass = chars.takeWhile inClass := by
  induction chars with
  | nil => simp [stop]
  | cons d chars ih => by_cases inside : inClass d = true <;> simp [inside, ih]

theorem dropWhile_append_stop {inClass : Char → Bool} (stop : inClass c = false)
    (chars rest : List Char) :
    (chars ++ c :: rest).dropWhile inClass = chars.dropWhile inClass ++ c :: rest := by
  induction chars with
  | nil => simp [stop]
  | cons d chars ih => by_cases inside : inClass d = true <;> simp [inside, ih]

/-- What is read is the same, and more stands behind it. -/
def extend {Read : Type} (tail : List Char) (read : Read × List Char) : Read × List Char :=
  (read.1, read.2 ++ tail)

theorem name_append (stops : Stops c) (chars rest : List Char) :
    name (chars ++ c :: rest) = name chars :=
  congrArg String.ofList (takeWhile_append_stop stops.letter chars rest)

theorem behindName_append (stops : Stops c) (chars rest : List Char) :
    behindName (chars ++ c :: rest) = behindName chars ++ c :: rest :=
  dropWhile_append_stop stops.letter chars rest

theorem dropSpace_append (stops : Stops c) (chars rest : List Char) :
    dropSpace (chars ++ c :: rest) = dropSpace chars ++ c :: rest := by
  have noSpace : c ≠ ' ' := by
    rintro rfl
    exact absurd stops.blank (by decide)
  cases chars with
  | nil => simp [dropSpace, noSpace]
  | cons d chars => by_cases space : d = ' ' <;> simp [dropSpace, space]

theorem takeArgument_append (stops : Stops c) (closed : Closed chars) (rest : List Char) :
    takeArgument (chars ++ c :: rest) = extend (c :: rest) (takeArgument chars) := by
  have unblanked := closed.of_suffix (List.dropWhile_suffix Text.isBlank)
  unfold takeArgument
  rw [dropWhile_append_stop stops.blank]
  generalize chars.dropWhile Text.isBlank = chars at unblanked
  cases chars with
  | nil => simp [extend, stops.brace]
  | cons d inside =>
    by_cases brace : d = '{'
    · subst brace
      -- The brace has its match in front of the character, so the search does not get that far.
      obtain ⟨content, behind, rfl, balanced⟩ := unblanked [] inside rfl
      simp [extend, splitGroup?_of_balanced balanced]
    · simp [extend, brace]

theorem bound_append (stops : Stops c) (closed : Closed chars) (mapping : Mapping) (name : String)
    (rest : List Char) :
    bound mapping name (chars ++ c :: rest) = extend (c :: rest) (bound mapping name chars) := by
  have middle : Closed (takeArgument chars).2 := closed.of_suffix (takeArgument_suffix rfl)
  unfold bound
  cases Command.Class.ofName name with
  | binary =>
    dsimp only
    rw [takeArgument_append stops closed, extend, takeArgument_append stops middle]
    rfl
  | unary =>
    dsimp only
    rw [takeArgument_append stops closed]
    rfl
  | wrapper | function | layout | symbol | unknown => rfl

theorem unbound_append (stops : Stops c) (closed : Closed chars) (rest : List Char) :
    unbound (chars ++ c :: rest) = extend (c :: rest) (unbound chars) := by
  have behind := closed.of_suffix (List.dropWhile_suffix Char.isAlpha)
  unfold unbound
  rw [name_append stops, behindName_append stops]
  cases Command.Class.ofName (name chars) with
  | wrapper => simp [extend, takeArgument_append stops behind, behindName]
  | symbol value => simp [extend, dropSpace_append stops]
  | function | layout | binary | unary | unknown => rfl

theorem command_append (registry : Registry) (stops : Stops c) (closed : Closed chars)
    (rest : List Char) :
    command registry (chars ++ c :: rest) = extend (c :: rest) (command registry chars) := by
  by_cases comma : chars.head? = some ','
  · obtain ⟨behind, rfl⟩ := List.head?_eq_some_iff.mp comma
    rfl
  -- Behind a backslash at the end there is still no comma.
  have noComma : (chars ++ c :: rest).head? ≠ some ',' := by
    cases chars with
    | nil => simpa using stops.comma
    | cons d chars => simpa using comma
  have behind : Closed (behindName chars) := closed.of_suffix (List.dropWhile_suffix Char.isAlpha)
  rw [command_named registry comma, command_named registry noComma, name_append stops,
    behindName_append stops]
  cases registry.byTrigger? (name chars) with
  | some mapping => exact bound_append stops behind mapping _ rest
  | none => exact unbound_append stops closed rest

theorem marker_append (registry : Registry) {d : Char} (stops : Stops c) (closed : Closed chars)
    (notLast : chars ≠ []) (rest : List Char) :
    marker registry d (chars ++ c :: rest) = extend (c :: rest) (marker registry d chars) := by
  unfold marker
  cases registry.byTrigger? (String.singleton d) with
  | none => rfl
  | some mapping =>
    cases chars with
    | nil => exact (notLast rfl).elim
    | cons e chars =>
      by_cases brace : e = '{'
      · subst brace
        have taken := takeArgument_append stops closed rest
        rw [List.cons_append] at taken ⊢
        dsimp only
        rw [taken]
        rfl
      · simp [extend]

theorem construct_append (registry : Registry) (d : Char) (stops : Stops c)
    (closed : Closed (d :: chars)) (unmarked : Unmarked (d :: chars)) (rest : List Char) :
    construct registry d (chars ++ c :: rest) =
      extend (c :: rest) (construct registry d chars) := by
  have behind : Closed chars := closed.of_suffix (List.suffix_cons d chars)
  have notLast (isMarker : d = '^' ∨ d = '_') : chars ≠ [] := by
    rintro rfl
    rcases isMarker with rfl | rfl
    · exact unmarked.1 rfl
    · exact unmarked.2 rfl
  unfold construct
  split
  · exact command_append registry stops behind rest
  · exact marker_append registry stops behind (notLast (.inl rfl)) rest
  · exact marker_append registry stops behind (notLast (.inr rfl)) rest
  · rfl
  · rfl

/-- What stands in front of such a character, and what stands behind it, is read apart. -/
theorem flat_append (registry : Registry) (stops : Stops c) (chars rest : List Char)
    (closed : Closed chars) (unmarked : Unmarked chars) :
    flat registry (chars ++ c :: rest) = flat registry chars ++ flat registry (c :: rest) := by
  induction chars using inductionOnConstructs registry with
  | nil => rw [flat_nil, List.nil_append, List.nil_append]
  | cons d chars _ behind =>
    -- The first construct ends in front of the character, and so do its groups: they are the same,
    -- and only what stands behind the construct has grown.
    have passed := (construct_reads registry d chars).suffix
    rw [List.cons_append, flat_cons, construct_append registry d stops closed unmarked, extend,
      behind (closed.of_suffix passed) (unmarked.of_suffix passed), flat_cons registry d chars,
      List.append_assoc]

theorem flat_dollar (registry : Registry) (chars : List Char) :
    flat registry ('$' :: chars) = flat registry chars := by
  rw [flat_cons]
  rfl

end Plain

/-- A dollar sign adds nothing by itself, and parts what stands on its sides except that texts
which meet are typed as one. -/
theorem parse_dollar (registry : Registry) {first : String} (closed : Closed first.toList)
    (unmarked : Unmarked first.toList) (rest : String) :
    parse registry (first ++ "$" ++ rest) =
      Action.join (parse registry first) (parse registry rest) := by
  have dollar : "$".toList = ['$'] := rfl
  simp only [parse_eq_finish, Action.Builder.finish_foldl_add_empty, String.toList_append, dollar,
    List.append_assoc, List.cons_append, List.nil_append]
  rw [Plain.flat_append registry stops_dollar _ _ closed unmarked, Plain.flat_dollar,
    Action.coalesce_append]

/-- The second argument does not come from behind the dollar sign. -/
theorem parse_dollar_starter :
    Closed "\x7d\\frac\x7ba\x7d ".toList ∧ Unmarked "\x7d\\frac\x7ba\x7d ".toList ∧
    parse Registry.starter ("\x7d\\frac\x7ba\x7d " ++ "$" ++ "\x7bb\x7d^") =
      Action.join (parse Registry.starter "\x7d\\frac\x7ba\x7d ")
        (parse Registry.starter "\x7bb\x7d^") := by
  have closed : Closed "\x7d\\frac\x7ba\x7d ".toList := by decide
  have unmarked : Unmarked "\x7d\\frac\x7ba\x7d ".toList := by decide
  exact ⟨closed, unmarked, parse_dollar Registry.starter closed unmarked "\x7bb\x7d^"⟩

end FormulaKeys.Markup
