import FormulaKeys.Proofs.Markup.Plain
import Mathlib.Data.List.Infix

/-! Braces, plainly counted.

The reader of a group counts braces and nothing else: an escape, a command or a marker
in front of a brace makes no difference. A list in which the braces balance is therefore
read to its end wherever it stands in braces.
-/

set_option autoImplicit false

namespace FormulaKeys.Markup

/-- How many more braces the list opens than it closes. -/
def depth (chars : List Char) : Int := chars.count '{' - chars.count '}'

theorem depth_nil : depth [] = 0 := rfl

theorem depth_append (first rest : List Char) :
    depth (first ++ rest) = depth first + depth rest := by
  simp only [depth, List.count_append]
  omega

theorem depth_cons (c : Char) (rest : List Char) : depth (c :: rest) = depth [c] + depth rest :=
  depth_append [c] rest

theorem depth_opening : depth ['{'] = 1 := by decide

theorem depth_closing : depth ['}'] = -1 := by decide

theorem depth_other {c : Char} (notOpening : c ≠ '{') (notClosing : c ≠ '}') : depth [c] = 0 := by
  simp [depth, notOpening, notClosing]

/-- Read from the left, the list never closes more than it has opened, and in the end it has closed
everything. -/
structure Balanced (chars : List Char) : Prop where
  nonneg : ∀ before, before <+: chars → 0 ≤ depth before
  level : depth chars = 0

theorem balanced_iff {chars : List Char} :
    Balanced chars ↔ (∀ before ∈ chars.inits, 0 ≤ depth before) ∧ depth chars = 0 := by
  constructor
  · rintro ⟨nonneg, level⟩
    exact ⟨fun before mem => nonneg before ((List.mem_inits _ _).mp mem), level⟩
  · rintro ⟨nonneg, level⟩
    exact ⟨fun before upTo => nonneg before ((List.mem_inits _ _).mpr upTo), level⟩

instance (chars : List Char) : Decidable (Balanced chars) :=
  decidable_of_iff _ balanced_iff.symm

namespace Balanced

variable {chars rest : List Char}

theorem nil : Balanced [] where
  nonneg before upTo := by
    obtain rfl := List.prefix_nil.mp upTo
    exact Int.le_of_eq depth_nil.symm
  level := depth_nil

theorem append (first : Balanced chars) (behind : Balanced rest) : Balanced (chars ++ rest) where
  nonneg before upTo := by
    rcases List.prefix_or_prefix_of_prefix upTo (List.prefix_append chars rest) with within | beyond
    · exact first.nonneg before within
    · obtain ⟨more, rfl⟩ := beyond
      rw [depth_append, first.level, Int.zero_add]
      exact behind.nonneg more ((List.prefix_append_right_inj chars).mp upTo)
  level := by
    rw [depth_append, first.level, behind.level]
    rfl

theorem singleton {c : Char} (notOpening : c ≠ '{') (notClosing : c ≠ '}') : Balanced [c] where
  nonneg before upTo := by
    rcases List.prefix_cons_iff.mp upTo with rfl | ⟨more, rfl, none⟩
    · exact Int.le_of_eq depth_nil.symm
    · obtain rfl := List.prefix_nil.mp none
      exact Int.le_of_eq (depth_other notOpening notClosing).symm
  level := depth_other notOpening notClosing

theorem of_noBrace (noBrace : ∀ c ∈ chars, c ≠ '{' ∧ c ≠ '}') : Balanced chars := by
  induction chars with
  | nil => exact nil
  | cons c chars ih =>
    rw [List.forall_mem_cons] at noBrace
    exact append (singleton noBrace.1.1 noBrace.1.2) (ih noBrace.2)

theorem braced (inside : Balanced chars) : Balanced ('{' :: chars ++ ['}']) where
  nonneg before upTo := by
    rcases List.prefix_cons_iff.mp upTo with rfl | ⟨more, rfl, behind⟩
    · exact Int.le_of_eq depth_nil.symm
    rw [depth_cons, depth_opening]
    rcases List.prefix_concat_iff.mp behind with rfl | within
    · rw [depth_append, inside.level, depth_closing]
      decide
    · have := inside.nonneg more within
      omega
  level := by
    rw [List.cons_append, depth_cons, depth_append, inside.level, depth_opening, depth_closing]
    decide

end Balanced

/-- A group whose content begins in front of the list ends in it. -/
def Closes (inside : List Char) : Prop :=
  ∃ content rest, inside = content ++ '}' :: rest ∧ Balanced content

theorem closes_iff {inside : List Char} :
    Closes inside ↔ ∃ content ∈ inside.inits, content ++ ['}'] <+: inside ∧ Balanced content := by
  constructor
  · rintro ⟨content, rest, rfl, balanced⟩
    exact ⟨content, (List.mem_inits _ _).mpr (List.prefix_append ..), ⟨rest, by simp⟩, balanced⟩
  · rintro ⟨content, _, ⟨rest, same⟩, balanced⟩
    exact ⟨content, rest, by simp [← same], balanced⟩

instance (inside : List Char) : Decidable (Closes inside) :=
  decidable_of_iff _ closes_iff.symm

/-- Every brace that opens in the list is closed in it; other braces may close nothing. -/
def Closed (chars : List Char) : Prop :=
  ∀ before inside, chars = before ++ '{' :: inside → Closes inside

namespace Closed

theorem nil : Closed [] := by
  intro before inside same
  cases before <;> cases same

theorem of_suffix {chars rest : List Char} (closed : Closed chars) (behind : rest <:+ chars) :
    Closed rest := by
  obtain ⟨passed, rfl⟩ := behind
  rintro before inside rfl
  exact closed (passed ++ before) inside (by rw [List.append_assoc])

theorem cons_iff {c : Char} {chars : List Char} :
    Closed (c :: chars) ↔ (c = '{' → Closes chars) ∧ Closed chars := by
  constructor
  · intro closed
    refine ⟨?_, closed.of_suffix (List.suffix_cons c chars)⟩
    rintro rfl
    exact closed [] chars rfl
  · rintro ⟨first, closed⟩ before inside same
    cases before with
    | nil =>
      cases same
      exact first rfl
    | cons d before =>
      cases same
      exact closed before inside rfl

instance decidable : ∀ chars, Decidable (Closed chars)
  | [] => .isTrue nil
  | _ :: chars => have := decidable chars; decidable_of_iff _ cons_iff.symm

end Closed

/-- The content in braces. -/
def group (content : String) : String := "\x7b" ++ content ++ "\x7d"

theorem toList_group (content : String) :
    (group content).toList = '{' :: content.toList ++ ['}'] := by
  simp [group]

namespace Plain

/-- The brace that closes a group is the first that closes more than the content has opened. -/
theorem splitGroup?_of_depth {inner : Nat} {content : List Char}
    (nonneg : ∀ before, before <+: content → 0 ≤ inner + depth before)
    (level : inner + depth content = 0) (rest : List Char) :
    splitGroup? inner (content ++ '}' :: rest) = some (content, rest) := by
  induction content generalizing inner with
  | nil =>
    obtain rfl : inner = 0 := by simpa [depth_nil] using level
    rfl
  | cons c content ih =>
    rw [depth_cons] at level
    have upTo (before : List Char) (within : before <+: content) :
        0 ≤ inner + (depth [c] + depth before) := by
      rw [← depth_cons]
      exact nonneg (c :: before) (List.cons_prefix_cons.mpr ⟨rfl, within⟩)
    have behind (now : Nat) (counted : (now : Int) = inner + depth [c]) :
        splitGroup? now (content ++ '}' :: rest) = some (content, rest) := by
      apply ih
      · intro before within
        have := upTo before within
        omega
      · omega
    rw [List.cons_append]
    by_cases opening : c = '{'
    · subst opening
      rw [splitGroup?, behind (inner + 1) (by rw [depth_opening]; rfl)]
      rfl
    by_cases closing : c = '}'
    · subst closing
      -- Something is open here, or else this brace would close more than was opened.
      have opened := upTo [] List.nil_prefix
      rw [depth_closing, depth_nil] at opened
      obtain ⟨fewer, rfl⟩ : ∃ fewer, inner = fewer + 1 := ⟨inner - 1, by omega⟩
      rw [splitGroup?, behind fewer (by rw [depth_closing]; omega)]
      rfl
    · rw [splitGroup?_cons opening closing, behind inner (by rw [depth_other opening closing]; rfl)]
      rfl

theorem splitGroup?_of_balanced {content : List Char} (balanced : Balanced content)
    (rest : List Char) : splitGroup? 0 (content ++ '}' :: rest) = some (content, rest) := by
  apply splitGroup?_of_depth
  · intro before upTo
    rw [Int.natCast_zero, Int.zero_add]
    exact balanced.nonneg before upTo
  · rw [Int.natCast_zero, Int.zero_add]
    exact balanced.level

/-- A group is taken whole, whatever blanks stand in front of it. -/
theorem takeArgument_group {blanks content : List Char}
    (blank : ∀ c ∈ blanks, Text.isBlank c = true) (balanced : Balanced content)
    (rest : List Char) :
    takeArgument (blanks ++ '{' :: (content ++ '}' :: rest)) = (.closed content, rest) := by
  have opening : (blanks ++ '{' :: (content ++ '}' :: rest)).dropWhile Text.isBlank =
      '{' :: (content ++ '}' :: rest) := by
    rw [List.dropWhile_append_of_pos blank, List.dropWhile_cons_of_neg (by decide)]
  unfold takeArgument
  simp only [opening, splitGroup?_of_balanced balanced]

end Plain

end FormulaKeys.Markup
