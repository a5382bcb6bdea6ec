import FormulaKeys.Cli.Conversion

/-! The paths that stand for the standard input.

A path is compared name by name, so what may stand behind the `-` are slashes and single dots.
-/

set_option autoImplicit false

namespace FormulaKeys.Cli

/-- The path `-`, with any number of slashes behind it, each with or without a dot. -/
def IsDash (path : String) : Prop :=
  ∃ tail : List String, (∀ part ∈ tail, part = "/" ∨ part = "/.") ∧ path = "-" ++ String.join tail

namespace Files

theorem exists_cut (chars : List Char) : ∃ first rest, cut chars = first :: rest := by
  fun_induction cut chars with
  | case1 => exact ⟨_, _, rfl⟩
  | case2 => exact ⟨_, _, rfl⟩
  | case3 c rest _ ih =>
    obtain ⟨first, more, eq⟩ := ih
    exact ⟨c :: first, more, by rw [eq, List.modifyHead_cons]⟩

theorem cut_cons {c : Char} (name : c ≠ '/') (rest : List Char) :
    cut (c :: rest) = (cut rest).modifyHead (c :: ·) := by
  rw [cut]
  rintro rfl
  exact name rfl

/-- The names give the path back when each but the first has a slash put in front of it. -/
theorem eq_flatMap_of_cut {chars first : List Char} {rest : List (List Char)}
    (eq : cut chars = first :: rest) : chars = first ++ rest.flatMap ('/' :: ·) := by
  induction chars generalizing first rest with
  | nil =>
    cases eq
    rfl
  | cons c chars ih =>
    obtain ⟨next, more, tail⟩ := exists_cut chars
    by_cases slash : c = '/'
    · subst slash
      rw [cut, tail] at eq
      cases eq
      rw [List.flatMap_cons, List.cons_append, ← ih tail]
      rfl
    · rw [cut_cons slash, tail, List.modifyHead_cons] at eq
      cases eq
      rw [List.cons_append, ← ih tail]

/-- Slashes that have at most a dot behind them add empty names and single dots. -/
theorem exists_cut_join {tail : List String} (parts : ∀ part ∈ tail, part = "/" ∨ part = "/.") :
    ∃ dots, cut (String.join tail).toList = [] :: dots ∧
      ∀ name ∈ dots, name = [] ∨ name = ['.'] := by
  induction tail with
  | nil => exact ⟨[], rfl, by simp⟩
  | cons part tail ih =>
    obtain ⟨dots, eq, small⟩ := ih fun other known => parts other (.tail _ known)
    rw [String.join_cons, String.toList_append]
    rcases parts part (.head _) with rfl | rfl
    · refine ⟨[] :: dots, ?_, ?_⟩
      · rw [← eq]
        rfl
      · simpa using small
    · refine ⟨['.'] :: dots, ?_, ?_⟩
      · show [] :: (cut (String.join tail).toList).modifyHead ('.' :: ·) = _
        rw [eq, List.modifyHead_cons]
      · simpa using small

end Files

theorem isStdin_eq_true_iff_cut {path : String} :
    isStdin path = true ↔
      ∃ dots, Files.cut path.toList = ['-'] :: dots ∧ ∀ name ∈ dots, name = [] ∨ name = ['.'] := by
  have ofList_eq (chars : List Char) (name : String) :
      String.ofList chars = name ↔ chars = name.toList := by
    rw [← String.toList_inj, String.toList_ofList]
  obtain ⟨first, rest, eq⟩ := Files.exists_cut path.toList
  simp only [isStdin, Files.names, eq, List.map_cons, Bool.and_eq_true, beq_iff_eq, List.all_map,
    List.all_eq_true, Function.comp_apply, Bool.or_eq_true, ofList_eq, List.cons.injEq]
  constructor
  · rintro ⟨dash, small⟩
    exact ⟨rest, ⟨dash, rfl⟩, small⟩
  · rintro ⟨dots, ⟨dash, rfl⟩, small⟩
    exact ⟨dash, small⟩

theorem isStdin_eq_true_iff {path : String} : isStdin path = true ↔ IsDash path := by
  rw [isStdin_eq_true_iff_cut]
  constructor
  · rintro ⟨dots, eq, small⟩
    refine ⟨dots.map fun name => "/" ++ String.ofList name, ?_, ?_⟩
    · intro part known
      obtain ⟨name, inside, rfl⟩ := List.mem_map.mp known
      rcases small name inside with rfl | rfl
      · exact .inl rfl
      · exact .inr rfl
    · rw [← String.toList_inj, Files.eq_flatMap_of_cut eq, String.toList_append]
      simp [String.toList_join, List.flatMap_map]
  · rintro ⟨tail, parts, rfl⟩
    obtain ⟨dots, eq, small⟩ := Files.exists_cut_join parts
    refine ⟨dots, ?_, small⟩
    rw [String.toList_append]
    show Files.cut ('-' :: (String.join tail).toList) = _
    rw [Files.cut_cons (by decide), eq, List.modifyHead_cons]

end FormulaKeys.Cli
