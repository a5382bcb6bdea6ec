import FormulaKeys.Proofs.Markup.Formula
import FormulaKeys.Proofs.Markup.Ordinary

/-! Markup that is typed as it stands.

Whatever is interpreted is typed with fewer characters than it is written with, so text
comes out unchanged only where nothing is interpreted. A command without a meaning is
typed out, and what follows it is read as if it stood alone.
-/

set_option autoImplicit false

namespace FormulaKeys

/-- Whether commands of the class mean something although no mapping is bound to them. -/
def Command.Class.isBuiltIn : Class → Bool
  | wrapper | function | layout | symbol _ => true
  | binary | unary | unknown => false

namespace Markup

open FormulaKeys.Action (typed typed_cons typed_append typed_coalesce)

/-- The list begins with something that is not typed as it stands. -/
inductive Interpreted (registry : Registry) : List Char → Prop where
  | dollar {rest : List Char} : Interpreted registry ('$' :: rest)
  | space {rest : List Char} : Interpreted registry ('\\' :: ',' :: rest)
  | marker {c : Char} {rest : List Char} (isMarker : c = '^' ∨ c = '_')
      (bound : (registry.byTrigger? (String.singleton c)).isSome) : Interpreted registry (c :: rest)
  | bound {rest : List Char} (bound : (registry.byTrigger? (Plain.name rest)).isSome) :
      Interpreted registry ('\\' :: rest)
  | builtIn {rest : List Char} (known : (Command.Class.ofName (Plain.name rest)).isBuiltIn) :
      Interpreted registry ('\\' :: rest)

/-- Nowhere in the list does anything begin that is interpreted. -/
def Verbatim (registry : Registry) (chars : List Char) : Prop :=
  ∀ behind, behind <:+ chars → ¬Interpreted registry behind

theorem Verbatim.cons_iff {registry : Registry} {c : Char} {chars : List Char} :
    Verbatim registry (c :: chars) ↔
      ¬Interpreted registry (c :: chars) ∧ Verbatim registry chars := by
  constructor
  · intro verbatim
    exact ⟨verbatim _ (List.suffix_refl _),
      fun behind passed => verbatim behind (passed.trans (List.suffix_cons c chars))⟩
  · rintro ⟨here, verbatim⟩ behind passed
    rcases List.suffix_cons_iff.mp passed with rfl | passed
    · exact here
    · exact verbatim behind passed

namespace Plain

variable {registry : Registry} {c : Char} {chars rest : List Char} {parts : List Part}

/-- What is not interpreted is typed, and reading goes on with the next character. -/
theorem Reads.literal (reads : Reads registry (c :: chars) parts rest)
    (literal : ¬Interpreted registry (c :: chars)) (plain : List Char → List Action) :
    parts.flatMap (Part.actions plain) = [.text (String.singleton c)] ∧ rest = chars := by
  cases reads with
  | space => exact (literal .space).elim
  | binary bound | unary bound | bare bound => exact (literal (.bound (by simp [bound]))).elim
  | wrapper _ takes | function _ takes | layout _ takes | symbol _ takes =>
    exact (literal (.builtIn (by simp [takes, Command.Class.isBuiltIn]))).elim
  | script isMarker bound | scriptChar isMarker bound | scriptEnd isMarker bound =>
    exact (literal (.marker isMarker (by simp [bound]))).elim
  | dollar => exact (literal .dollar).elim
  | unknown | freeMarker | char => exact ⟨rfl, rfl⟩

theorem length_name (chars : List Char) :
    (name chars).toList.length + (behindName chars).length = chars.length := by
  rw [← List.length_append, name_append_behindName]

theorem not_interpreted_unknown (noComma : chars.head? ≠ some ',')
    (free : registry.byTrigger? (name chars) = none)
    (unknown : (Command.Class.ofName (name chars)).isBuiltIn = false) :
    ¬Interpreted registry ('\\' :: chars) := by
  rintro (_ | _ | ⟨isMarker, _⟩ | bound | known)
  · exact noComma rfl
  · simp at isMarker
  · simp [free] at bound
  · exact absurd (unknown.symm.trans known) Bool.false_ne_true

theorem isBuiltIn_of_unknown {kind : Command.Class}
    (unknown : kind = .binary ∨ kind = .unary ∨ kind = .unknown) : kind.isBuiltIn = false := by
  rcases unknown with rfl | rfl | rfl <;> rfl

/-- What is interpreted takes more characters off the list than its parts hold. -/
theorem Reads.length_add_lt (reads : Reads registry chars parts rest)
    (interpreted : Interpreted registry chars) :
    (parts.flatMap Part.chars).length + rest.length < chars.length := by
  cases reads with
  | @binary chars middle rest mapping first second bound takes one two =>
    have named := length_behindName chars
    have inFirst := length_of_takeArgument one
    have inSecond := length_of_takeArgument two
    simp only [List.flatMap_cons, List.flatMap_nil, Part.chars, List.nil_append, List.append_nil,
      List.length_append, List.length_cons]
    omega
  | @unary chars rest mapping argument bound takes one
  | @wrapper chars rest argument free takes one =>
    have named := length_behindName chars
    have inside := length_of_takeArgument one
    simp only [List.flatMap_cons, List.flatMap_nil, Part.chars, List.nil_append, List.append_nil,
      List.length_cons]
    omega
  | script isMarker bound one =>
    have inside := length_of_takeArgument one
    simp only [List.flatMap_cons, List.flatMap_nil, Part.chars, List.nil_append, List.append_nil,
      List.length_cons] at inside ⊢
    omega
  | @bare chars | @layout chars | @function chars =>
    have named := length_name chars
    simp only [List.flatMap_cons, List.flatMap_nil, Part.chars, List.append_nil, List.length_nil,
      List.length_cons]
    omega
  | @symbol chars value free takes =>
    -- The name of a symbol has a letter at the least, which pays for the character.
    have named := length_name chars
    have spaced := length_dropSpace (behindName chars)
    have known : Command.Class.ofName (name chars) ≠ .unknown := by simp [takes]
    have notEmpty := (Command.isName_of_ofName known).1
    rw [Ne, ← String.toList_eq_nil_iff, ← List.length_eq_zero_iff] at notEmpty
    simp only [List.flatMap_cons, List.flatMap_nil, Part.chars, String.toList_singleton,
      List.append_nil, List.length_cons, List.length_nil]
    omega
  | @space rest =>
    have one : [Part.text " "].flatMap Part.chars = [' '] := rfl
    rw [one, List.length_singleton, List.length_cons, List.length_cons]
    omega
  | scriptChar | scriptEnd | dollar =>
    simp only [List.flatMap_cons, List.flatMap_nil, Part.chars, String.toList_singleton,
      List.append_nil, List.nil_append, List.length_cons, List.length_nil]
    omega
  | unknown noComma free takes =>
    exact (not_interpreted_unknown noComma free (isBuiltIn_of_unknown takes) interpreted).elim
  | freeMarker isMarker free =>
    cases interpreted with
    | marker _ bound => simp [free] at bound
    | dollar | space | bound | builtIn => simp at isMarker
  | char notSlash notMarker notDollar =>
    cases interpreted with
    | dollar => exact (notDollar rfl).elim
    | marker isMarker => exact (notMarker isMarker).elim
    | space | bound | builtIn => exact (notSlash rfl).elim

end Plain

section
variable {registry : Registry} {chars : List Char}

/-- Parts type no more than they hold, as soon as their groups do. -/
theorem length_typed_parts {plain : List Char → List Action} (parts : List Plain.Part)
    (groups : ∀ argument, .argument argument ∈ parts →
      (typed (plain argument.content)).length ≤ argument.content.length) :
    (typed (parts.flatMap (Plain.Part.actions plain))).length ≤
      (parts.flatMap Plain.Part.chars).length := by
  induction parts with
  | nil => exact Nat.le_refl 0
  | cons part parts ih =>
    have behind := ih fun argument mem => groups argument (List.mem_cons_of_mem part mem)
    have here : (typed (part.actions plain)).length ≤ part.chars.length := by
      cases part with
      | argument argument => exact groups argument List.mem_cons_self
      | text content => exact Nat.le_of_eq (congrArg List.length (List.append_nil _))
      | command | nav | unknown => exact Nat.le_refl _
    rw [List.flatMap_cons, List.flatMap_cons, typed_append, List.length_append, List.length_append]
    exact Nat.add_le_add here behind

theorem length_typed_char (c : Char) : (typed [.text (String.singleton c)]).length = 1 := by
  simp [typed, Action.chars]

theorem length_typed_flat (registry : Registry) (chars : List Char) :
    (typed (Plain.flat registry chars)).length ≤ chars.length := by
  induction chars using Plain.inductionOnConstructs registry with
  | nil => rw [Plain.flat_nil]; exact Nat.le_refl 0
  | cons c chars groups behind =>
    have reads := Plain.construct_reads registry c chars
    rw [Plain.flat_cons, typed_append, List.length_append]
    by_cases interpreted : Interpreted registry (c :: chars)
    · have parts := length_typed_parts _ groups
      have shorter := reads.length_add_lt interpreted
      omega
    · obtain ⟨same, next⟩ := reads.literal interpreted (Plain.flat registry)
      rw [next] at behind
      rw [same, next, length_typed_char, Nat.add_comm]
      exact Nat.succ_le_succ behind

/-- As many characters are typed as are written only if all of them are typed. -/
theorem verbatim_of_length (registry : Registry) (chars : List Char) :
    chars.length ≤ (typed (Plain.flat registry chars)).length → Verbatim registry chars := by
  induction chars with
  | nil =>
    intro _ behind passed
    rw [List.suffix_nil.mp passed]
    rintro ⟨⟩
  | cons c chars ih =>
    intro same
    have reads := Plain.construct_reads registry c chars
    have parts := length_typed_parts (Plain.construct registry c chars).1
      fun argument _ => length_typed_flat registry argument.content
    have behind := length_typed_flat registry (Plain.construct registry c chars).2
    rw [Plain.flat_cons, typed_append, List.length_append] at same
    have here : ¬Interpreted registry (c :: chars) := by
      intro interpreted
      have shorter := reads.length_add_lt interpreted
      omega
    obtain ⟨only, next⟩ := reads.literal here (Plain.flat registry)
    rw [only, next, length_typed_char, Nat.add_comm] at same
    exact Verbatim.cons_iff.mpr ⟨here, ih (Nat.le_of_succ_le_succ same)⟩

/-- Where nothing is interpreted, the characters are typed one after the other. -/
theorem flat_of_verbatim (verbatim : Verbatim registry chars) :
    Plain.flat registry chars = chars.map fun c => .text (String.singleton c) := by
  induction chars with
  | nil => exact Plain.flat_nil registry
  | cons c chars ih =>
    rw [Verbatim.cons_iff] at verbatim
    obtain ⟨only, next⟩ :=
      (Plain.construct_reads registry c chars).literal verbatim.1 (Plain.flat registry)
    rw [Plain.flat_cons, only, next, ih verbatim.2]
    rfl

/-- Of a command without a meaning the backslash is typed, then its letters, and what stands behind
it is read by itself. -/
theorem flat_unknown {name : String} {rest : List Char}
    (letters : ∀ c ∈ name.toList, c.isAlpha = true) (ends : Plain.EndsName rest)
    (noComma : (name.toList ++ rest).head? ≠ some ',') (free : registry.byTrigger? name = none)
    (unknown : (Command.Class.ofName name).isBuiltIn = false) :
    Plain.flat registry ('\\' :: (name.toList ++ rest)) =
      ('\\' :: name.toList).map (fun c => .text (String.singleton c)) ++
        Plain.flat registry rest := by
  have named := Plain.name_letters letters ends
  have here := Plain.not_interpreted_unknown noComma (named.symm ▸ free) (named.symm ▸ unknown)
  obtain ⟨only, next⟩ :=
    (Plain.construct_reads registry '\\' _).literal here (Plain.flat registry)
  have plain : ∀ c ∈ name.toList, c ∉ signs := by
    intro c mem sign
    have none : signs.any Char.isAlpha = false := by decide
    exact List.any_eq_false.mp none c sign (letters c mem)
  rw [Plain.flat_cons, only, next, Plain.flat_text registry plain]
  rfl

end

/-- Markup is one text, the same as it is written, exactly when it is not empty and nothing in it is
interpreted. Of commands without a meaning only the backslash is taken; their letters are read
again, and what follows is read as if it stood alone. -/
theorem parse_eq_text_iff (registry : Registry) (markup : String) :
    (parse registry markup = [.text markup] ↔ markup ≠ "" ∧ Verbatim registry markup.toList) ∧
      ∀ name : String, (∀ c ∈ name.toList, c.isAlpha = true) → Plain.EndsName markup.toList →
        (name ++ markup).toList.head? ≠ some ',' → registry.byTrigger? name = none →
        (Command.Class.ofName name).isBuiltIn = false →
        parse registry ("\\" ++ name ++ markup) =
          Action.join [.text ("\\" ++ name)] (parse registry markup) := by
  have slash : "\\".toList = ['\\'] := rfl
  simp only [parse_eq_finish, Action.Builder.finish_foldl_add_empty]
  refine ⟨⟨?literal, ?verbatim⟩, ?unknown⟩
  case literal =>
    intro same
    have length : (typed (Plain.flat registry markup.toList)).length = markup.toList.length := by
      rw [← typed_coalesce, same, typed_cons, Action.chars]
      exact congrArg List.length (List.append_nil _)
    refine ⟨?_, verbatim_of_length registry _ (Nat.le_of_eq length.symm)⟩
    rintro rfl
    rw [String.toList_empty, Plain.flat_nil] at same
    cases same
  case verbatim =>
    rintro ⟨notEmpty, verbatim⟩
    have whole := Action.coalesce_chars markup.toList []
    rw [List.append_nil, String.ofList_toList] at whole
    rw [flat_of_verbatim verbatim, whole, Action.coalesce_text_single notEmpty]
  case unknown =>
    intro name letters ends noComma free unknown
    rw [String.toList_append] at noComma
    have written : "\\" ++ name = String.ofList ('\\' :: name.toList) := by
      simp [String.ofList_cons]
    have notEmpty : "\\" ++ name ≠ "" := by simp
    rw [String.toList_append, String.toList_append, slash, List.append_assoc, List.cons_append,
      List.nil_append, flat_unknown letters ends noComma free unknown, Action.coalesce_chars,
      ← written, ← List.singleton_append, Action.coalesce_append,
      Action.coalesce_text_single notEmpty]

/-- No mapping is bound to this name of a fraction, so its braces are typed as well. -/
theorem parse_eq_text_iff_dfrac :
    Plain.EndsName "\x7ba\x7d \\sqrt\x7bb\x7d".toList ∧
      parse Registry.starter ("\\" ++ "dfrac" ++ "\x7ba\x7d \\sqrt\x7bb\x7d") =
        Action.join [.text ("\\" ++ "dfrac")]
          (parse Registry.starter "\x7ba\x7d \\sqrt\x7bb\x7d") := by
  have ends : Plain.EndsName "\x7ba\x7d \\sqrt\x7bb\x7d".toList := by
    intro c found
    cases found
    decide
  have letters : ∀ c ∈ "dfrac".toList, c.isAlpha = true := List.all_eq_true.mp (by decide)
  obtain ⟨_, unknown⟩ := parse_eq_text_iff Registry.starter "\x7ba\x7d \\sqrt\x7bb\x7d"
  exact ⟨ends, unknown "dfrac" letters ends (by decide) (by decide) (by decide)⟩

end Markup

end FormulaKeys
