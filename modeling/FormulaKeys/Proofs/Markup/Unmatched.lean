import FormulaKeys.Proofs.Markup.Braces

/-! Braces without a match.

Between its braces without a match a list is balanced. Closing braces that are put behind the list
match the opening ones among them, from the last to the first.
-/

set_option autoImplicit false

namespace FormulaKeys.Markup

variable {c : Char} {chars first rest content : List Char}

/-- The list falls into balanced pieces at its braces without a match. -/
inductive Falls : List Char → Prop where
  | balanced {chars : List Char} (balanced : Balanced chars) : Falls chars
  | closing {content rest : List Char} (balanced : Balanced content) (behind : Falls rest) :
      Falls (content ++ '}' :: rest)
  | opening {content rest : List Char} (balanced : Balanced content) (unmatched : ¬Closes rest)
      (behind : Falls rest) : Falls (content ++ '{' :: rest)

theorem Falls.prepend (balanced : Balanced first) (falls : Falls rest) : Falls (first ++ rest) := by
  cases falls with
  | balanced whole => exact .balanced (balanced.append whole)
  | closing inside behind =>
    rw [← List.append_assoc]
    exact .closing (balanced.append inside) behind
  | opening inside unmatched behind =>
    rw [← List.append_assoc]
    exact .opening (balanced.append inside) unmatched behind

theorem falls (chars : List Char) : Falls chars := by
  match chars with
  | [] => exact .balanced .nil
  | c :: chars =>
    by_cases opening : c = '{'
    · subst opening
      by_cases closes : Closes chars
      -- With its match the brace is part of a balanced piece, which may go on behind the match.
      · obtain ⟨content, rest, rfl, balanced⟩ := closes
        have cut : '{' :: (content ++ '}' :: rest) = '{' :: content ++ ['}'] ++ rest := by simp
        rw [cut]
        exact (falls rest).prepend balanced.braced
      · exact .opening .nil closes (falls chars)
    by_cases closing : c = '}'
    · subst closing
      exact .closing .nil (falls chars)
    · exact (falls chars).prepend (.singleton opening closing)
termination_by chars.length

theorem depth_nonneg (unmatched : ¬Closes chars) : 0 ≤ depth chars := by
  induction falls chars with
  | balanced balanced => exact Int.le_of_eq balanced.level.symm
  | closing balanced _ _ => exact (unmatched ⟨_, _, rfl, balanced⟩).elim
  | opening balanced more _ ih =>
    have := ih more
    rw [depth_append, depth_cons, balanced.level, depth_opening]
    omega

theorem Balanced.closed (balanced : Balanced chars) : Closed chars := by
  rintro before inside rfl
  by_contra unmatched
  -- The brace stays open to the end, but in the end nothing is open.
  have front := balanced.nonneg before (List.prefix_append ..)
  have behind := depth_nonneg unmatched
  have level := balanced.level
  rw [depth_append, depth_cons, depth_opening] at level
  omega

theorem Closes.append {inside : List Char} (closes : Closes inside) (rest : List Char) :
    Closes (inside ++ rest) := by
  obtain ⟨content, behind, rfl, balanced⟩ := closes
  exact ⟨content, behind ++ rest, by simp, balanced⟩

theorem Closed.append (closed : Closed first) (behind : Closed rest) : Closed (first ++ rest) := by
  induction first with
  | nil => exact behind
  | cons c first ih =>
    rw [cons_iff] at closed
    rw [List.cons_append, cons_iff]
    exact ⟨fun opens => (closed.1 opens).append rest, ih closed.2⟩

/-- How many braces open in the list and are not closed in it. -/
def unmatched : List Char → Nat
  | [] => 0
  | c :: chars => (if c = '{' ∧ ¬Closes chars then 1 else 0) + unmatched chars

theorem unmatched_cons (closes : c = '{' → Closes chars) :
    unmatched (c :: chars) = unmatched chars := by
  rw [unmatched, if_neg fun unclosed => unclosed.2 (closes unclosed.1), Nat.zero_add]

theorem unmatched_other (notOpening : c ≠ '{') (chars : List Char) :
    unmatched (c :: chars) = unmatched chars :=
  unmatched_cons fun opens => absurd opens notOpening

theorem unmatched_opening (unclosed : ¬Closes chars) :
    unmatched ('{' :: chars) = unmatched chars + 1 := by
  rw [unmatched, if_pos ⟨rfl, unclosed⟩, Nat.add_comm]

theorem unmatched_append (closed : Closed first) (rest : List Char) :
    unmatched (first ++ rest) = unmatched rest := by
  induction first with
  | nil => rfl
  | cons c first ih =>
    rw [Closed.cons_iff] at closed
    rw [List.cons_append, unmatched_cons fun opens => (closed.1 opens).append rest, ih closed.2]

theorem unmatched_of_closed (closed : Closed chars) : unmatched chars = 0 := by
  have := unmatched_append closed []
  rwa [List.append_nil] at this

theorem unmatched_dropWhile {inClass : Char → Bool} (outside : inClass '{' = false)
    (chars : List Char) : unmatched (chars.dropWhile inClass) = unmatched chars := by
  induction chars with
  | nil => rfl
  | cons c chars ih =>
    by_cases inside : inClass c = true
    · rw [List.dropWhile_cons_of_pos inside, ih, unmatched_other]
      rintro rfl
      cases outside.symm.trans inside
    · rw [List.dropWhile_cons_of_neg inside]

/-- The first brace closes nothing, the second is closed, and the others are left. -/
example : unmatched "\x7d\x7ba\x7d\x7bb\x7b".toList = 2 := by decide

def closers (count : Nat) : List Char := List.replicate count '}'

/-- The list, and behind it a brace for every one that it leaves open. -/
def close (chars : List Char) : List Char := chars ++ closers (unmatched chars)

theorem close_nil : close [] = [] := rfl

theorem close_cons (closes : c = '{' → Closes chars) : close (c :: chars) = c :: close chars := by
  rw [close, unmatched_cons closes, List.cons_append, close]

theorem close_other (notOpening : c ≠ '{') (chars : List Char) :
    close (c :: chars) = c :: close chars :=
  close_cons fun opens => absurd opens notOpening

theorem close_opening (unclosed : ¬Closes chars) :
    close ('{' :: chars) = '{' :: close chars ++ ['}'] := by
  simp [close, closers, unmatched_opening unclosed, List.replicate_succ']

theorem close_append (closed : Closed first) (rest : List Char) :
    close (first ++ rest) = first ++ close rest := by
  rw [close, unmatched_append closed, List.append_assoc, close]

theorem close_of_closed (closed : Closed chars) : close chars = chars := by
  rw [close, unmatched_of_closed closed]
  exact List.append_nil chars

theorem close_closing (balanced : Balanced content) (rest : List Char) :
    close (content ++ '}' :: rest) = content ++ '}' :: close rest := by
  rw [close_append balanced.closed, close_other (by decide)]

theorem close_takeWhile {inClass : Char → Bool} (outside : inClass '{' = false)
    (chars : List Char) : (close chars).takeWhile inClass = chars.takeWhile inClass := by
  induction chars with
  | nil => rfl
  | cons c chars ih =>
    by_cases inside : inClass c = true
    · rw [close_other, List.takeWhile_cons_of_pos inside, List.takeWhile_cons_of_pos inside, ih]
      rintro rfl
      cases outside.symm.trans inside
    · rw [close, List.cons_append, List.takeWhile_cons_of_neg inside,
        List.takeWhile_cons_of_neg inside]

theorem close_dropWhile {inClass : Char → Bool} (outside : inClass '{' = false)
    (chars : List Char) : (close chars).dropWhile inClass = close (chars.dropWhile inClass) := by
  induction chars with
  | nil => rfl
  | cons c chars ih =>
    by_cases inside : inClass c = true
    · rw [close_other, List.dropWhile_cons_of_pos inside, List.dropWhile_cons_of_pos inside, ih]
      rintro rfl
      cases outside.symm.trans inside
    · rw [close, List.cons_append, List.dropWhile_cons_of_neg inside,
        List.dropWhile_cons_of_neg inside]
      rfl

/-- If no brace is too many, the list is balanced as soon as it is closed. -/
theorem balanced_close (unmatched : ¬Closes chars) : Balanced (close chars) := by
  induction falls chars with
  | balanced balanced => rwa [close_of_closed balanced.closed]
  | closing balanced _ _ => exact (unmatched ⟨_, _, rfl, balanced⟩).elim
  | opening balanced more _ ih =>
    -- The last brace that is put behind the list is the match of the first that has none.
    rw [close_append balanced.closed, close_opening more]
    exact balanced.append (ih more).braced

theorem closed_close (chars : List Char) : Closed (close chars) := by
  induction falls chars with
  | balanced balanced =>
    rw [close_of_closed balanced.closed]
    exact balanced.closed
  | closing balanced _ ih =>
    rw [close_closing balanced]
    exact balanced.closed.append (Closed.cons_iff.mpr
      ⟨fun opens => absurd opens (by decide), ih⟩)
  | opening balanced more _ _ =>
    rw [close_append balanced.closed, close_opening more]
    exact balanced.closed.append (balanced_close more).braced.closed

namespace Plain

/-- The converse of `splitGroup?_of_depth`. -/
theorem depth_of_splitGroup? {inner : Nat}
    (found : splitGroup? inner chars = some (content, rest)) :
    (∀ before, before <+: content → 0 ≤ inner + depth before) ∧ inner + depth content = 0 := by
  induction chars generalizing inner content with
  | nil => cases found
  | cons c chars ih =>
    -- In front of a shorter content `c` has changed the count to `now`.
    have step {now : Nat} (counted : (now : Int) = inner + depth [c])
        (found : (splitGroup? now chars).map (Prod.map (c :: ·) id) = some (content, rest)) :
        (∀ before, before <+: content → 0 ≤ inner + depth before) ∧
          inner + depth content = 0 := by
      obtain ⟨⟨shorter, behind⟩, shorterFound, same⟩ := Option.map_eq_some_iff.mp found
      cases same
      obtain ⟨nonneg, level⟩ := ih shorterFound
      constructor
      · intro before upTo
        rcases List.prefix_cons_iff.mp upTo with rfl | ⟨more, rfl, within⟩
        · rw [depth_nil]
          omega
        · have := nonneg more within
          rw [depth_cons]
          omega
      · rw [depth_cons]
        omega
    by_cases opening : c = '{'
    · subst opening
      rw [splitGroup?] at found
      exact step (by rw [depth_opening]; rfl) found
    by_cases closing : c = '}'
    · subst closing
      cases inner with
      | zero =>
        cases found
        exact ⟨fun before upTo => by simp [List.prefix_nil.mp upTo, depth_nil], by simp [depth_nil]⟩
      | succ inner =>
        rw [splitGroup?] at found
        exact step (by rw [depth_closing]; omega) found
    · rw [splitGroup?_cons opening closing] at found
      exact step (by rw [depth_other opening closing]; omega) found

theorem balanced_of_splitGroup? (found : splitGroup? 0 chars = some (content, rest)) :
    Balanced content := by
  obtain ⟨nonneg, level⟩ := depth_of_splitGroup? found
  exact ⟨by simpa using nonneg, by simpa using level⟩

theorem splitGroup?_eq_none_iff : splitGroup? 0 chars = none ↔ ¬Closes chars := by
  constructor
  · rintro missing ⟨content, rest, rfl, balanced⟩
    cases missing.symm.trans (splitGroup?_of_balanced balanced rest)
  · intro unclosed
    cases found : splitGroup? 0 chars with
    | none => rfl
    | some parts =>
      exact (unclosed ⟨_, _, splitGroup?_eq found, balanced_of_splitGroup? found⟩).elim

end Plain

end FormulaKeys.Markup
