import FormulaKeys.Proofs.Markup.Command
import FormulaKeys.Proofs.Markup.Report
import FormulaKeys.Proofs.Markup.Unmatched
import Mathlib.Algebra.GroupWithZero.Nat
import Mathlib.Algebra.Order.BigOperators.Group.List

/-! Recovery from groups without an end.

A group that is not closed takes everything up to the end. Where every brace without a match was
read as the beginning of a group, the same is read when the missing braces stand at the end.
-/

set_option autoImplicit false

namespace FormulaKeys

def Event.isUnclosed : Event → Bool
  | groupUnclosed _ => true
  | unknownCommand _ | argumentAbsent _ | parsed _ _ | generating _ _ | generated _ _ _ => false

namespace Markup

namespace Plain

variable {c : Char} {chars rest : List Char} {parts : List Part}

/-- The argument when the braces that its group leaves open are closed. -/
def Argument.close : Argument → Argument
  | absent => .absent
  | closed content => .closed content
  | unclosed content => .closed (Markup.close content)

def Part.close : Part → Part
  | argument group => .argument group.close
  | text content => .text content
  | command id => .command id
  | nav key => .nav key
  | unknown name => .unknown name

/-- How many braces of the argument have no match. -/
def Argument.unmatched : Argument → Nat
  | absent => 0
  | closed content => Markup.unmatched content
  | unclosed content => Markup.unmatched content + 1

def Part.unmatched : Part → Nat
  | argument group => group.unmatched
  | text _ | command _ | nav _ | unknown _ => 0

theorem takeArgument_close (chars : List Char) :
    takeArgument (close chars) =
      ((takeArgument chars).1.close, close (takeArgument chars).2) := by
  unfold takeArgument
  rw [close_dropWhile (by decide)]
  generalize chars.dropWhile Text.isBlank = chars
  cases chars with
  | nil => rfl
  | cons c inside =>
    by_cases brace : c = '{'
    · subst brace
      cases split : splitGroup? 0 inside with
      | some parts =>
        have balanced := balanced_of_splitGroup? split
        obtain rfl := splitGroup?_eq split
        rw [close_cons fun _ => ⟨_, _, rfl, balanced⟩, close_closing balanced]
        simp [splitGroup?_of_balanced balanced, Argument.close]
      | none =>
        -- The group takes all braces but the last, which closes it.
        have unclosed := splitGroup?_eq_none_iff.mp split
        rw [close_opening unclosed, List.cons_append]
        simp [split, splitGroup?_of_balanced (balanced_close unclosed), Argument.close, close_nil]
    · rw [close_other brace]
      simp [brace, Argument.close, close_other]

theorem Takes.unmatched {argument : Argument} (takes : Takes chars argument rest) :
    argument.unmatched + Markup.unmatched rest = Markup.unmatched chars := by
  cases takes with
  | absent => exact Nat.zero_add _
  | closed split =>
    have balanced := balanced_of_splitGroup? split
    rw [List.cons_append, unmatched_cons fun _ => ⟨_, _, rfl, balanced⟩,
      unmatched_append balanced.closed, unmatched_other (by decide),
      Argument.unmatched, unmatched_of_closed balanced.closed, Nat.zero_add]
  | unclosed split =>
    rw [unmatched_opening (splitGroup?_eq_none_iff.mp split)]
    rfl

theorem unmatched_takeArgument {argument : Argument}
    (taken : takeArgument chars = (argument, rest)) :
    argument.unmatched + unmatched rest = unmatched chars :=
  (takeArgument_takes taken).unmatched.trans (unmatched_dropWhile rfl chars)

theorem unmatched_behindName (chars : List Char) : unmatched (behindName chars) = unmatched chars :=
  unmatched_dropWhile (by decide) chars

theorem unmatched_dropSpace (chars : List Char) :
    unmatched (dropSpace chars) = unmatched chars := by
  unfold dropSpace
  split
  next rest => exact (unmatched_other (by decide) rest).symm
  next => rfl

theorem Reads.unmatched {registry : Registry} (reads : Reads registry (c :: chars) parts rest) :
    (parts.map Part.unmatched).sum + Markup.unmatched rest = Markup.unmatched chars := by
  cases reads with
  | binary _ _ one two =>
    -- What the first argument leaves is where the second is looked for.
    have named := unmatched_behindName chars
    have first := unmatched_takeArgument one
    have second := unmatched_takeArgument two
    simp only [List.map_cons, List.map_nil, List.sum_cons, List.sum_nil, Part.unmatched]
    omega
  | unary _ _ one | wrapper _ _ one =>
    have named := unmatched_behindName chars
    have inside := unmatched_takeArgument one
    simp only [List.map_cons, List.map_nil, List.sum_cons, List.sum_nil, Part.unmatched]
    omega
  | script _ _ one =>
    have inside := unmatched_takeArgument one
    simp only [List.map_cons, List.map_nil, List.sum_cons, List.sum_nil, Part.unmatched]
    omega
  | bare | function | layout =>
    exact (Nat.zero_add _).trans (unmatched_behindName chars)
  | symbol =>
    exact (Nat.zero_add _).trans ((unmatched_dropSpace _).trans (unmatched_behindName chars))
  | space =>
    exact (Nat.zero_add _).trans (unmatched_other (by decide) _).symm
  | scriptChar _ _ single =>
    exact (Nat.zero_add _).trans (unmatched_other single _).symm
  | scriptEnd | unknown | freeMarker | dollar | char => exact Nat.zero_add _

/-- A construct and what stands behind it, both when the braces that they leave open are closed. -/
def finish (construct : List Part × List Char) : List Part × List Char :=
  (construct.1.map Part.close, close construct.2)

theorem name_close (chars : List Char) : name (close chars) = name chars :=
  congrArg String.ofList (close_takeWhile (by decide) chars)

theorem behindName_close (chars : List Char) :
    behindName (close chars) = close (behindName chars) :=
  close_dropWhile (by decide) chars

theorem dropSpace_close (chars : List Char) :
    dropSpace (close chars) = close (dropSpace chars) := by
  cases chars with
  | nil => rfl
  | cons c chars =>
    by_cases space : c = ' '
    · subst space
      rw [close_other (by decide)]
      rfl
    · simp [close, dropSpace, space]

theorem bound_close (mapping : Mapping) (name : String) (chars : List Char) :
    bound mapping name (close chars) = finish (bound mapping name chars) := by
  unfold bound
  cases Command.Class.ofName name with
  | binary =>
    simp only [takeArgument_close]
    rfl
  | unary =>
    simp only [takeArgument_close]
    rfl
  | wrapper | function | layout | symbol | unknown => rfl

theorem unbound_close (chars : List Char) : unbound (close chars) = finish (unbound chars) := by
  unfold unbound
  rw [name_close, behindName_close]
  cases Command.Class.ofName (name chars) with
  | wrapper =>
    simp only [takeArgument_close]
    rfl
  | symbol value =>
    rw [dropSpace_close]
    rfl
  | function | layout | binary | unary | unknown => rfl

theorem command_close (registry : Registry) (chars : List Char) :
    command registry (close chars) = finish (command registry chars) := by
  by_cases comma : chars.head? = some ','
  · obtain ⟨behind, rfl⟩ := List.head?_eq_some_iff.mp comma
    rw [close_other (by decide)]
    rfl
  have noComma : (close chars).head? ≠ some ',' := by
    cases chars with
    | nil => exact comma
    | cons d chars => simpa [close] using comma
  rw [command_named registry comma, command_named registry noComma, name_close, behindName_close]
  cases registry.byTrigger? (name chars) with
  | some mapping => exact bound_close mapping _ _
  | none => exact unbound_close chars

theorem marker_close (registry : Registry) (c : Char) (chars : List Char) :
    marker registry c (close chars) = finish (marker registry c chars) := by
  unfold marker
  cases registry.byTrigger? (String.singleton c) with
  | none => rfl
  | some mapping =>
    cases chars with
    | nil => rfl
    | cons d chars =>
      by_cases brace : d = '{'
      · subst brace
        have taken := takeArgument_close ('{' :: chars)
        rw [close, List.cons_append] at taken ⊢
        dsimp only
        rw [taken]
        rfl
      · rw [close_other brace]
        simp [finish, Part.close]

theorem construct_close (registry : Registry) (c : Char) (chars : List Char) :
    construct registry c (close chars) = finish (construct registry c chars) := by
  unfold construct
  split
  · exact command_close registry chars
  · exact marker_close registry '^' chars
  · exact marker_close registry '_' chars
  · rfl
  · rfl

/-- How many groups without an end are reported. -/
def unclosed (registry : Registry) (chars : List Char) : Nat :=
  (reports registry chars).count .unclosed

def Part.unclosed (registry : Registry) (part : Part) : Nat :=
  (part.reports (Plain.reports registry)).count .unclosed

theorem unclosed_cons (registry : Registry) (c : Char) (chars : List Char) :
    unclosed registry (c :: chars) =
      ((construct registry c chars).1.map (Part.unclosed registry)).sum +
        unclosed registry (construct registry c chars).2 := by
  rw [unclosed, reports_cons, List.count_append, List.count_flatMap]
  rfl

theorem Part.unclosed_unclosed (registry : Registry) (content : List Char) :
    (argument (.unclosed content)).unclosed registry = Plain.unclosed registry content + 1 :=
  List.count_cons_self

theorem Part.unclosed_le {registry : Registry} {part : Part}
    (group : ∀ argument, part = .argument argument →
      Plain.unclosed registry argument.content ≤ Markup.unmatched argument.content) :
    part.unclosed registry ≤ part.unmatched := by
  cases part with
  | argument argument =>
    have inside := group argument rfl
    cases argument with
    | absent => exact Nat.zero_le _
    | closed content => exact inside
    | unclosed content =>
      rw [unclosed_unclosed]
      exact Nat.add_le_add_right inside 1
  | text | command | nav | unknown => exact Nat.zero_le _

/-- A group without an end begins with a brace without a match, and no two with the same. -/
theorem unclosed_le_unmatched (registry : Registry) (chars : List Char) :
    unclosed registry chars ≤ unmatched chars := by
  induction chars using inductionOnConstructs registry with
  | nil => exact Nat.le_of_eq (congrArg (List.count _) (reports_nil registry))
  | cons c chars groups behind =>
    have total := (construct_reads registry c chars).unmatched
    have parts : ((construct registry c chars).1.map (Part.unclosed registry)).sum ≤
        ((construct registry c chars).1.map Part.unmatched).sum := by
      apply List.sum_le_sum
      intro part mem
      apply Part.unclosed_le
      rintro argument rfl
      exact groups argument mem
    rw [unclosed_cons, unmatched]
    omega

theorem Part.actions_close {registry : Registry} {part : Part}
    (group : ∀ argument, part = .argument argument →
      Plain.unclosed registry argument.content = Markup.unmatched argument.content →
        flat registry (Markup.close argument.content) = flat registry argument.content)
    (same : part.unclosed registry = part.unmatched) :
    part.close.actions (flat registry) = part.actions (flat registry) := by
  cases part with
  | argument argument =>
    cases argument with
    | absent | closed => rfl
    | unclosed content =>
      rw [unclosed_unclosed] at same
      exact group _ rfl (Nat.succ.inj same)
  | text | command | nav | unknown => rfl

/-- Where every brace without a match was read as the beginning of a group, the same is read when
the braces are closed. -/
theorem flat_close (registry : Registry) (chars : List Char) :
    unclosed registry chars = unmatched chars →
      flat registry (close chars) = flat registry chars := by
  induction chars using inductionOnConstructs registry with
  | nil => exact fun _ => rfl
  | cons c chars groups behind =>
    intro same
    -- Nowhere is more reported than has no match, so in no place is it less.
    have total := (construct_reads registry c chars).unmatched
    have rest := unclosed_le_unmatched registry (construct registry c chars).2
    have each (part : Part) : part.unclosed registry ≤ part.unmatched :=
      Part.unclosed_le fun argument _ => unclosed_le_unmatched registry argument.content
    have parts := List.sum_le_sum fun part (_ : part ∈ (construct registry c chars).1) => each part
    rw [unclosed_cons, unmatched] at same
    have closes : c = '{' → Closes chars := by
      intro opening
      by_contra unmatched
      rw [if_pos ⟨opening, unmatched⟩] at same
      omega
    rw [if_neg fun unmatched => unmatched.2 (closes unmatched.1)] at same
    have level (part : Part) (mem : part ∈ (construct registry c chars).1) :
        part.unclosed registry = part.unmatched := by
      by_contra differ
      have less := List.sum_lt_sum (Part.unclosed registry) Part.unmatched (fun part _ => each part)
        ⟨part, mem, Nat.lt_of_le_of_ne (each part) differ⟩
      omega
    rw [close_cons closes, flat_cons, construct_close, finish, flat_cons, behind (by omega),
      List.flatMap_map]
    congr 1
    apply List.flatMap_congr
    intro part mem
    refine Part.actions_close ?_ (level part mem)
    rintro argument rfl
    exact groups argument mem

end Plain

theorem countP_isUnclosed (reading : Reading) :
    reading.events.countP Event.isUnclosed = reading.reports.count .unclosed := by
  rw [Reading.reports, List.count, List.countP_filterMap]
  congr 1
  funext event
  cases event <;> rfl

theorem countP_unclosed_read (registry : Registry) (markup : String) :
    (read registry markup).events.countP Event.isUnclosed =
      Plain.unclosed registry markup.toList := by
  rw [countP_isUnclosed, reports_read, Plain.unclosed]

/-- Where each brace without a match began a group, the groups are read as if they were closed at
the end. -/
theorem parse_close (registry : Registry) {markup : String} {count : Nat}
    (reported : (read registry markup).events.countP Event.isUnclosed = count)
    (left : unmatched markup.toList = count) :
    parse registry (markup ++ String.ofList (closers count)) = parse registry markup ∧
      ∀ event ∈ (read registry (markup ++ String.ofList (closers count))).events,
        event.isUnclosed = false := by
  have whole : (markup ++ String.ofList (closers count)).toList = close markup.toList := by
    rw [String.toList_append, String.toList_ofList, ← left, close]
  rw [countP_unclosed_read, ← left] at reported
  constructor
  · rw [parse_eq_coalesce_flat, parse_eq_coalesce_flat, whole,
      Plain.flat_close registry markup.toList reported]
  · have none := Plain.unclosed_le_unmatched registry (close markup.toList)
    rw [unmatched_of_closed (closed_close _), ← whole, ← countP_unclosed_read] at none
    intro event mem
    exact Bool.eq_false_of_not_eq_true (List.countP_eq_zero.mp (Nat.le_zero.mp none) event mem)

/-- The last brace closes the second argument of the fraction, and the marker still has none. -/
theorem parse_close_starter :
    let markup := "\\frac\x7ba\x7d \x7b\\sqrt\x7bb^"
    (read Registry.starter markup).events.countP Event.isUnclosed = 2 ∧
      unmatched markup.toList = 2 ∧
      parse Registry.starter (markup ++ String.ofList (closers 2)) =
        parse Registry.starter markup ∧
      ∀ event ∈ (read Registry.starter (markup ++ String.ofList (closers 2))).events,
        event.isUnclosed = false := by
  intro markup
  have reported : (read Registry.starter markup).events.countP Event.isUnclosed = 2 := by
    decide +kernel
  have left : unmatched markup.toList = 2 := by decide
  exact ⟨reported, left, parse_close Registry.starter reported left⟩

end Markup

end FormulaKeys
