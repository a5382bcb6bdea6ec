import FormulaKeys.Proofs.Markup.Command
import FormulaKeys.Proofs.Markup.Refinement

/-! Ordinary characters.

Notation is made of letters, blanks and a few marks, and symbols bring characters of
their own. All other characters stand for themselves: they are typed as often as they
are written, and in the same order, however badly the markup is formed.
-/

set_option autoImplicit false

namespace FormulaKeys.Markup

open FormulaKeys.Action (typed typed_append typed_coalesce)

/-- The characters, other than letters and blanks, that have a part in the notation. -/
def marks : List Char := ['\\', '{', '}', '$', '^', '_', ',']

/-- Whether the character stands for itself wherever it is written. -/
def isOrdinary (c : Char) : Bool :=
  !c.isAlpha && !Text.isBlank c && !marks.contains c &&
    !(Command.Symbol.table.map Prod.snd).contains c

/-- The ordinary characters of the list. -/
def ordinary (chars : List Char) : List Char := chars.filter isOrdinary

theorem ordinary_append (first rest : List Char) :
    ordinary (first ++ rest) = ordinary first ++ ordinary rest :=
  List.filter_append ..

theorem ordinary_cons_mark {c : Char} (mark : isOrdinary c = false) (rest : List Char) :
    ordinary (c :: rest) = ordinary rest :=
  List.filter_cons_of_neg (by rw [mark]; decide)

theorem ordinary_cons_slash (rest : List Char) : ordinary ('\\' :: rest) = ordinary rest :=
  ordinary_cons_mark (by decide) rest

theorem ordinary_nil : ordinary [] = [] := rfl

theorem isOrdinary_of_isAlpha {c : Char} (letter : c.isAlpha = true) : isOrdinary c = false := by
  simp [isOrdinary, letter]

theorem isOrdinary_of_isBlank {c : Char} (blank : Text.isBlank c = true) :
    isOrdinary c = false := by
  simp [isOrdinary, blank]

theorem isOrdinary_of_marker {c : Char} (isMarker : c = '^' ∨ c = '_') :
    isOrdinary c = false := by
  rcases isMarker with rfl | rfl <;> decide

theorem isOrdinary_of_symbol {name : String} {value : Char}
    (takes : Command.Class.ofName name = .symbol value) : isOrdinary value = false := by
  have mem : value ∈ Command.Symbol.table.map Prod.snd :=
    List.mem_map_of_mem (Command.mem_table_of_ofName takes)
  simp [isOrdinary, mem]

/-- A run of characters none of which is ordinary leaves nothing. -/
theorem ordinary_takeWhile {inClass : Char → Bool}
    (none : ∀ c, inClass c = true → isOrdinary c = false) (chars : List Char) :
    ordinary (chars.takeWhile inClass) = [] := by
  apply List.filter_eq_nil_iff.mpr
  intro c mem
  rw [none c (List.mem_takeWhile_imp mem)]
  decide

theorem ordinary_dropWhile {inClass : Char → Bool}
    (none : ∀ c, inClass c = true → isOrdinary c = false) (chars : List Char) :
    ordinary (chars.dropWhile inClass) = ordinary chars := by
  have whole := ordinary_append (chars.takeWhile inClass) (chars.dropWhile inClass)
  rw [List.takeWhile_append_dropWhile, ordinary_takeWhile none, List.nil_append] at whole
  exact whole.symm

namespace Plain

theorem ordinary_behindName (chars : List Char) :
    ordinary (behindName chars) = ordinary chars :=
  ordinary_dropWhile (fun _ => isOrdinary_of_isAlpha) chars

theorem ordinary_name (chars : List Char) : ordinary (name chars).toList = [] := by
  rw [name, String.toList_ofList]
  exact ordinary_takeWhile (fun _ => isOrdinary_of_isAlpha) chars

theorem ordinary_dropSpace (chars : List Char) : ordinary (dropSpace chars) = ordinary chars := by
  unfold dropSpace
  split
  next rest => exact (ordinary_cons_mark (by decide) rest).symm
  next => rfl

theorem Takes.ordinary {chars rest : List Char} {argument : Argument}
    (takes : Takes chars argument rest) :
    ordinary argument.content ++ ordinary rest = ordinary chars := by
  cases takes with
  | absent => rfl
  | @closed content rest =>
    rw [List.cons_append, ordinary_cons_mark (by decide), ordinary_append,
      ordinary_cons_mark (by decide)]
    rfl
  | unclosed =>
    rw [ordinary_cons_mark (by decide)]
    exact List.append_nil _

/-- An argument takes blanks and braces away, and nothing else. -/
theorem ordinary_takeArgument {chars rest : List Char} {argument : Argument}
    (taken : takeArgument chars = (argument, rest)) :
    ordinary argument.content ++ ordinary rest = ordinary chars := by
  rw [← ordinary_dropWhile (fun _ => isOrdinary_of_isBlank) chars]
  exact (takeArgument_takes taken).ordinary

/-- The characters of the markup that a part takes over. -/
def Part.chars : Part → List Char
  | text content => content.toList
  | command _ | nav _ => []
  | argument group => group.content
  | unknown _ => ['\\']

/-- The parts of a construct hold the ordinary characters that it takes off the list. -/
theorem Reads.ordinary {registry : Registry} {chars rest : List Char} {parts : List Part}
    (reads : Reads registry chars parts rest) :
    ordinary (parts.flatMap Part.chars) ++ ordinary rest = ordinary chars := by
  cases reads with
  | @binary chars middle rest mapping first second bound takes one two =>
    rw [ordinary_cons_slash chars, ← ordinary_behindName chars,
      ← ordinary_takeArgument one, ← ordinary_takeArgument two]
    simp [Part.chars, ordinary_append]
  | @unary chars rest mapping argument bound takes one =>
    rw [ordinary_cons_slash chars, ← ordinary_behindName chars,
      ← ordinary_takeArgument one]
    simp [Part.chars]
  | @wrapper chars rest payload free takes one =>
    rw [ordinary_cons_slash chars, ← ordinary_behindName chars,
      ← ordinary_takeArgument one]
    simp [Part.chars]
  | @bare chars | @layout chars =>
    rw [ordinary_cons_slash chars]
    exact ordinary_behindName chars
  | @function chars =>
    rw [ordinary_cons_slash chars, ← ordinary_behindName chars]
    simp [Part.chars, ordinary_name]
  | @symbol chars value free takes =>
    rw [ordinary_cons_slash chars, ← ordinary_behindName chars, ordinary_dropSpace]
    simp [Part.chars, ordinary_cons_mark (isOrdinary_of_symbol takes), ordinary_nil]
  | @script c inside rest mapping argument isMarker bound one =>
    rw [ordinary_cons_mark (isOrdinary_of_marker isMarker), ← ordinary_takeArgument one]
    simp [Part.chars]
  -- The one character behind a marker may be ordinary, so it is kept apart from the rest.
  | @scriptChar c d rest mapping isMarker =>
    rw [ordinary_cons_mark (isOrdinary_of_marker isMarker)]
    simp [Part.chars, ← ordinary_append]
  | scriptEnd isMarker =>
    rw [ordinary_cons_mark (isOrdinary_of_marker isMarker)]
    rfl
  | freeMarker | char => simp [Part.chars, ← ordinary_append]
  | space | unknown | dollar => rfl

end Plain

/-- Parts type their ordinary characters, as soon as their groups do. -/
theorem ordinary_typed_parts {plain : List Char → List Action} (parts : List Plain.Part)
    (groups : ∀ argument, .argument argument ∈ parts →
      ordinary (typed (plain argument.content)) = ordinary argument.content) :
    ordinary (typed (parts.flatMap (Plain.Part.actions plain))) =
      ordinary (parts.flatMap Plain.Part.chars) := by
  induction parts with
  | nil => rfl
  | cons part parts ih =>
    have behind := ih fun argument mem => groups argument (List.mem_cons_of_mem part mem)
    have here : ordinary (typed (part.actions plain)) = ordinary part.chars := by
      cases part with
      | argument argument => exact groups argument (List.mem_cons_self ..)
      | text content =>
        apply congrArg ordinary
        exact List.append_nil _
      | command | nav | unknown => rfl
    rw [List.flatMap_cons, List.flatMap_cons, typed_append, ordinary_append, ordinary_append,
      here, behind]

theorem ordinary_typed_flat (registry : Registry) (chars : List Char) :
    ordinary (typed (Plain.flat registry chars)) = ordinary chars := by
  induction chars using Plain.inductionOnConstructs registry with
  | nil =>
    rw [Plain.flat]
    rfl
  | cons c chars groups behind =>
    rw [Plain.flat_cons, typed_append, ordinary_append, ordinary_typed_parts _ groups, behind]
    exact (Plain.construct_reads registry c chars).ordinary

/-- The ordinary characters of the markup are typed, each once and in their order. -/
theorem ordinary_typed_parse (registry : Registry) (markup : String) :
    ordinary (typed (parse registry markup)) = ordinary markup.toList := by
  rw [parse_eq_finish, Action.Builder.finish_foldl_add_empty, typed_coalesce]
  exact ordinary_typed_flat registry markup.toList

end FormulaKeys.Markup
