import FormulaKeys.Action.Listing
import FormulaKeys.Proofs.Markup.Lookup
import FormulaKeys.Proofs.Text.Quoted

/-! Listings read back.

A text is quoted and a key has a name, so only an id can break the line that it stands on. Where no
id does, the reader cuts the listing at its line feeds and takes each line by its keyword.
-/

set_option autoImplicit false

namespace FormulaKeys.Action

/-! Reading lines. -/

/-- What stands behind the keyword, if the line begins with it. -/
def behind? (keyword line : String) : Option String :=
  (keyword.toList.isPrefixOf? line.toList).map String.ofList

def ofLine? (line : String) : Option Action :=
  match behind? "text " line, behind? "command " line, behind? "nav " line with
  | some quoted, _, _ => (Text.Quoted.decode? quoted).map .text
  | none, some id, _ => some (.command id)
  | none, none, some name => (NavKey.ofName? name).map .nav
  | none, none, none => none

/-- The actions of the lines, each of which must name one. -/
def ofListing? (listing : String) : Option (List Action) := (Text.lines listing).mapM ofLine?

theorem behind?_append (keyword rest : String) : behind? keyword (keyword ++ rest) = some rest := by
  rw [behind?, String.toList_append, List.isPrefixOf?_eq_some_iff_append_eq.mpr rfl,
    Option.map_some, String.ofList_toList]

theorem ofLine?_line (action : Action) : ofLine? action.line = some action := by
  unfold ofLine?
  cases action with
  | text content =>
    rw [line, behind?_append]
    simp only [Text.Quoted.decode?_encode, Option.map_some]
  | command id =>
    have noText : behind? "text " ("command " ++ id) = none := by
      rw [behind?, String.toList_append]
      rfl
    rw [line, noText, behind?_append]
  | nav key => cases key <;> decide

/-! Breaking lines. -/

/-- The characters of all ids that the actions fire. -/
def idChars (actions : List Action) : List Char := (ids actions).flatMap String.toList

theorem idChars_cons (action : Action) (actions : List Action) :
    idChars (action :: actions) = idChars [action] ++ idChars actions := by
  have split : ids (action :: actions) = ids [action] ++ ids actions :=
    List.filterMap_append (l := [action])
  rw [idChars, split, List.flatMap_append, ← idChars, ← idChars]

theorem notMem_idChars_iff {actions : List Action} {c : Char} :
    c ∉ idChars actions ↔ ∀ id ∈ ids actions, c ∉ id.toList := by
  simp only [idChars, List.mem_flatMap, not_exists, not_and]

/-- Nothing but the id of a mapping can break a line. -/
theorem count_line (action : Action) :
    action.line.toList.count '\n' = (idChars [action]).count '\n' := by
  cases action with
  | text content =>
    have unbroken := (Text.Quoted.oneLine_encode content).feed
    rw [line, String.toList_append, List.count_append, List.count_eq_zero.mpr unbroken]
    rfl
  | command id =>
    have single : idChars [.command id] = id.toList := List.append_nil _
    rw [line, String.toList_append, List.count_append, single]
    exact Nat.zero_add _
  | nav key => cases key <;> decide

theorem count_listing (actions : List Action) :
    (listing actions).toList.count '\n' = actions.length + (idChars actions).count '\n' := by
  induction actions with
  | nil => rfl
  | cons action actions ih =>
    have ended : "\n".toList.count '\n' = 1 := rfl
    rw [listing, List.map_cons, Text.unlines_cons, String.toList_append, String.toList_append,
      List.count_append, List.count_append, count_line, ended, ← listing, ih,
      idChars_cons action actions, List.count_append, List.length_cons]
    omega

theorem length_lines_listing (actions : List Action) :
    (Text.lines (listing actions)).length = actions.length + (idChars actions).count '\n' := by
  rw [Text.lines, List.length_map, Text.length_splitLines, count_listing]

theorem lines_listing {actions : List Action} (unbroken : ∀ id ∈ ids actions, '\n' ∉ id.toList) :
    Text.lines (listing actions) = actions.map line := by
  apply Text.lines_unlines_of_notMem
  rw [List.forall_mem_map]
  intro action mem
  rw [← List.count_eq_zero, count_line, List.count_eq_zero, notMem_idChars_iff]
  intro id fired
  exact unbroken id (((List.singleton_sublist.mpr mem).filterMap id?).subset fired)

theorem ofListing?_listing {actions : List Action}
    (unbroken : ∀ id ∈ ids actions, '\n' ∉ id.toList) :
    ofListing? (listing actions) = some actions := by
  rw [ofListing?, lines_listing unbroken]
  clear unbroken
  induction actions with
  | nil => rfl
  | cons action actions ih =>
    rw [List.map_cons, List.mapM_cons, ofLine?_line, ih]
    rfl

/-- There is a line to each action, and one more for each line feed in an id. Where no id holds one,
the listing tells its actions from all others and gives them back. -/
theorem listing_reads_back (actions : List Action) :
    (listing actions).toList.count '\n' =
      actions.length + ((ids actions).flatMap String.toList).count '\n' ∧
    ((Text.lines (listing actions)).length = actions.length ↔
      ∀ id ∈ ids actions, '\n' ∉ id.toList) ∧
    ((∀ id ∈ ids actions, '\n' ∉ id.toList) →
      Text.lines (listing actions) = actions.map line ∧
      ofListing? (listing actions) = some actions ∧
      ∀ others : List Action, (∀ id ∈ ids others, '\n' ∉ id.toList) →
        listing others = listing actions → others = actions) := by
  refine ⟨count_listing actions, ?_, fun unbroken => ⟨lines_listing unbroken, ?_, ?_⟩⟩
  · rw [length_lines_listing, Nat.add_eq_left, List.count_eq_zero, notMem_idChars_iff]
  · exact ofListing?_listing unbroken
  · intro others unbrokenOthers same
    have read := ofListing?_listing unbrokenOthers
    rw [same, ofListing?_listing unbroken] at read
    exact (Option.some.inj read).symm

/-- An id may pretend to be a text and end in a carriage return. -/
theorem listing_reads_back_disguised :
    (∀ id ∈ ids [.text "\n\"\\", .text "", .command "text \"a\"\r", .nav .tab],
      '\n' ∉ id.toList) ∧
    Text.lines (listing [.text "\n\"\\", .text "", .command "text \"a\"\r", .nav .tab]) =
      ["text \"\\n\\\"\\\\\"", "text \"\"", "command text \"a\"\r", "nav Tab"] ∧
    ofListing? (listing [.text "\n\"\\", .text "", .command "text \"a\"\r", .nav .tab]) =
      some [.text "\n\"\\", .text "", .command "text \"a\"\r", .nav .tab] := by
  have unbroken : ∀ id ∈ ids [.text "\n\"\\", .text "", .command "text \"a\"\r", .nav .tab],
      '\n' ∉ id.toList := by decide
  obtain ⟨cut, read, _⟩ := (listing_reads_back _).2.2 unbroken
  exact ⟨unbroken, cut, read⟩

/-- An id that breaks the line can pretend to be two. -/
example : listing [.command "a\ncommand b"] = listing [.command "a", .command "b"] := by decide

end FormulaKeys.Action
