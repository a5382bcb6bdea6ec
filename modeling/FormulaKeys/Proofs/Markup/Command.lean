import FormulaKeys.Proofs.Markup.Plain
import Mathlib.Data.List.TakeWhile
import Mathlib.Tactic.SplitIfs

/-! Commands by their names.

A name is a run of letters, and every name with a meaning of its own is one. Written out
behind a backslash, a name is read as a whole when no letter follows it.
-/

set_option autoImplicit false

namespace FormulaKeys

/-- The text that can be read as the name of a command. -/
def Command.IsName (name : String) : Prop :=
  name ≠ "" ∧ ∀ c ∈ name.toList, c.isAlpha = true

instance (name : String) : Decidable (Command.IsName name) :=
  decidable_of_iff (name ≠ "" ∧ name.toList.all Char.isAlpha = true)
    (and_congr_right' List.all_eq_true)

namespace Command

theorem isName_listed :
    ∀ name ∈ fractions ++ radicals ++ wrappers ++ functions ++ layouts, IsName name := by
  decide

theorem isName_symbol : ∀ entry ∈ Symbol.table, IsName entry.1 := by
  decide +kernel

theorem isName_of_ofName {name : String} (known : Class.ofName name ≠ .unknown) : IsName name := by
  unfold Class.ofName at known
  split_ifs at known with fraction radical wrapper function layout
  iterate 5 exact isName_listed name (by simp [*])
  split at known
  next value found =>
    obtain ⟨before, behind, table, _⟩ := List.lookup_eq_some_iff.mp found
    exact isName_symbol (name, value) (by simp [table])
  next => exact (known rfl).elim

/-- What a name stands for is read off the table. -/
theorem mem_table_of_ofName {name : String} {value : Char}
    (takes : Class.ofName name = .symbol value) : (name, value) ∈ Symbol.table := by
  unfold Class.ofName at takes
  split_ifs at takes
  split at takes
  next found =>
    cases takes
    obtain ⟨before, behind, table, _⟩ := List.lookup_eq_some_iff.mp found
    simp [table]
  next => cases takes

theorem isName_of_isTrigger {trigger : String} (usable : IsTrigger trigger)
    (noMarker : ¬(trigger = "^" ∨ trigger = "_")) : IsName trigger := by
  rcases usable with hat | bar | isName
  · exact (noMarker (.inl hat)).elim
  · exact (noMarker (.inr bar)).elim
  · exact isName

end Command

namespace Markup.Plain

open Command (IsName)

variable {registry : Registry} {written : String} {rest : List Char}

/-- No letter comes first, so a name that stands in front of the list ends there. -/
def EndsName (rest : List Char) : Prop := ∀ c, rest.head? = some c → c.isAlpha = false

theorem letters_name (chars : List Char) : ∀ c ∈ (name chars).toList, c.isAlpha = true := by
  intro c mem
  rw [name, String.toList_ofList] at mem
  exact List.mem_takeWhile_imp mem

/-- The name takes all letters that there are. -/
theorem endsName_behindName (chars : List Char) : EndsName (behindName chars) := by
  intro c found
  have first := List.head?_dropWhile_not Char.isAlpha chars
  rw [behindName] at found
  rwa [found] at first

/-- The letters in front of the list are a name of their own where no further letter follows. -/
theorem name_letters (letters : ∀ c ∈ written.toList, c.isAlpha = true) (ends : EndsName rest) :
    name (written.toList ++ rest) = written := by
  have none : rest.takeWhile Char.isAlpha = [] := by
    cases rest with
    | nil => rfl
    | cons c rest => exact List.takeWhile_cons_of_neg (by simp [ends c rfl])
  rw [name, List.takeWhile_append_of_pos letters, none, List.append_nil, String.ofList_toList]

theorem name_written (isName : IsName written) (ends : EndsName rest) :
    name (written.toList ++ rest) = written :=
  name_letters isName.2 ends

theorem behindName_written (isName : IsName written) (ends : EndsName rest) :
    behindName (written.toList ++ rest) = rest := by
  have all : rest.dropWhile Char.isAlpha = rest := by
    cases rest with
    | nil => rfl
    | cons c rest => exact List.dropWhile_cons_of_neg (by simp [ends c rfl])
  rw [behindName, List.dropWhile_append_of_pos isName.2, all]

/-- A command that is no thin space is looked up by its name. -/
theorem command_named (registry : Registry) {chars : List Char} (noComma : chars.head? ≠ some ',') :
    command registry chars =
      match registry.byTrigger? (name chars) with
      | some mapping => bound mapping (name chars) (behindName chars)
      | none => unbound chars := by
  unfold command
  split
  next => exact (noComma rfl).elim
  next => rfl

/-- A name begins with a letter. -/
theorem head?_written (isName : IsName written) (rest : List Char) :
    (written.toList ++ rest).head? ≠ some ',' := by
  obtain ⟨notEmpty, letters⟩ := isName
  cases same : written.toList with
  | nil => exact (notEmpty (String.toList_eq_nil_iff.mp same)).elim
  | cons c others =>
    rw [same] at letters
    rintro comma
    cases comma
    exact absurd (letters ',' List.mem_cons_self) (by decide)

theorem construct_bound {mapping : Mapping} (isName : IsName written) (ends : EndsName rest)
    (known : registry.byTrigger? written = some mapping) :
    construct registry '\\' (written.toList ++ rest) = bound mapping written rest := by
  rw [construct, command_named registry (head?_written isName rest), name_written isName ends,
    behindName_written isName ends, known]

theorem construct_unbound (isName : IsName written) (ends : EndsName rest)
    (free : registry.byTrigger? written = none) :
    construct registry '\\' (written.toList ++ rest) = unbound (written.toList ++ rest) := by
  rw [construct, command_named registry (head?_written isName rest), name_written isName ends, free]

end Markup.Plain

end FormulaKeys
