import FormulaKeys.Proofs.Script.Send
import Mathlib.Data.List.DropRight

/-! Arguments typed as the macro language types them.

The language trims an argument before it reads it key by key. An escaped text reads back as the text
without its carriage returns; a space at an end of it is trimmed only where carriage returns, which
leave nothing behind, kept it from being written as a key.
-/

set_option autoImplicit false

namespace FormulaKeys.Script.Send

/-- What may stand behind a backtick, and what is typed for it. -/
def backticked : List (Char × Char) :=
  [('\x60', '\x60'), ('%', '%'), (';', ';'), ('t', '\t'), ('n', '\n')]

/-- The modifiers and the braces, which are typed only if they stand in braces. -/
def modifiers : List Char := ['\x7b', '\x7d', '^', '!', '+', '#']

/-- What is not typed where it stands bare: it is obeyed, or it ends the argument. -/
def obeyed : List Char := modifiers ++ ['\x60', '%', ';', '\n', '\r']

/-- The characters that are typed for a trimmed argument, none of which may be obeyed. -/
def typed? : List Char → Option (List Char)
  | [] => some []
  | '\x60' :: c :: rest => (backticked.lookup c).bind fun key => (typed? rest).map (key :: ·)
  | '\x7b' :: 'S' :: 'p' :: 'a' :: 'c' :: 'e' :: '\x7d' :: rest => (typed? rest).map (' ' :: ·)
  | '\x7b' :: c :: '\x7d' :: rest =>
    if c ∈ modifiers then (typed? rest).map (c :: ·) else none
  | c :: rest => if c ∈ obeyed then none else (typed? rest).map (c :: ·)

def isTrimmed (c : Char) : Bool := c == ' ' || c == '\t'

/-- The argument without the spaces and tabs at both ends. -/
def trim (argument : List Char) : List Char :=
  (argument.dropWhile isTrimmed).rdropWhile isTrimmed

def types? (argument : String) : Option (List Char) := typed? (trim argument.toList)

def withoutReturns (text : String) : List Char := text.toList.filter (· != '\r')

/-! Every character of a text is written by itself. -/

/-- What a character of a text becomes: a space at an end is written as a key, and every other
character is escaped. -/
inductive Stroke where
  | space
  | char (c : Char)
  deriving DecidableEq, Repr

namespace Stroke

def written : Stroke → List Char
  | space => spaceKey
  | char c => escapeChar c

def types : Stroke → List Char
  | space => [' ']
  | char c => if c = '\r' then [] else [c]

/-- Nothing is written for it but what would be trimmed at an end. -/
def isBare : Stroke → Bool
  | space => false
  | char c => c == ' ' || c == '\r'

end Stroke

theorem typed?_escapeChar (c : Char) (rest : List Char) :
    typed? (escapeChar c ++ rest) = (typed? rest).map ((Stroke.char c).types ++ ·) := by
  fun_cases escapeChar c
  case case12 => simp [Stroke.types]
  case case13 noReturn =>
    have bare : c ∉ obeyed := by
      simp only [obeyed, modifiers, List.mem_append, List.mem_cons, List.not_mem_nil]
      grind
    rw [List.singleton_append, typed?, if_neg bare, Stroke.types, if_neg noReturn]
    · rfl
    all_goals simp_all
  all_goals simp [typed?, backticked, modifiers, Stroke.types, List.lookup_cons]

theorem typed?_written (strokes : List Stroke) :
    typed? (strokes.flatMap Stroke.written) = some (strokes.flatMap Stroke.types) := by
  induction strokes with
  | nil => rfl
  | cons stroke strokes ih =>
    rw [List.flatMap_cons, List.flatMap_cons]
    cases stroke with
    | space =>
      rw [Stroke.written, spaceKey]
      simp [typed?, ih, Stroke.types]
    | char c => rw [Stroke.written, typed?_escapeChar, ih, Option.map_some]

/-! Trimming takes away whole strokes. -/

/-- A stroke is trimmed altogether, or it begins and ends with what is not trimmed. -/
theorem Stroke.written_cases (stroke : Stroke) :
    stroke.isBare = true ∧ (∀ c ∈ stroke.written, isTrimmed c = true) ∨
      stroke.isBare = false ∧
        ∃ first last, stroke.written.head? = some first ∧ stroke.written.getLast? = some last ∧
          isTrimmed first = false ∧ isTrimmed last = false := by
  cases stroke with
  | space => exact .inr ⟨rfl, '\x7b', '\x7d', rfl, rfl, rfl, rfl⟩
  | char c =>
    rw [written]
    fun_cases escapeChar c
    case case12 => exact .inl ⟨rfl, List.forall_mem_nil _⟩
    case case13 noTab _ noReturn =>
      by_cases space : c = ' '
      · subst space
        exact .inl ⟨rfl, by simp [isTrimmed]⟩
      · have bare : isBare (char c) = false := by simpa [isBare, space] using noReturn
        have kept : isTrimmed c = false := by simpa [isTrimmed, space] using noTab
        exact .inr ⟨bare, c, c, rfl, rfl, kept, kept⟩
    all_goals exact .inr ⟨rfl, _, _, rfl, rfl, rfl, rfl⟩

theorem dropWhile_written (strokes : List Stroke) :
    (strokes.flatMap Stroke.written).dropWhile isTrimmed =
      (strokes.dropWhile Stroke.isBare).flatMap Stroke.written := by
  induction strokes with
  | nil => rfl
  | cons stroke strokes ih =>
    rw [List.flatMap_cons]
    rcases stroke.written_cases with ⟨bare, all⟩ | ⟨bare, first, _, head, _, kept, _⟩
    · rw [List.dropWhile_append_of_pos all, List.dropWhile_cons_of_pos bare, ih]
    · obtain ⟨rest, same⟩ := List.head?_eq_some_iff.mp head
      rw [List.dropWhile_cons_of_neg (by simp [bare]), List.flatMap_cons, same, List.cons_append,
        List.dropWhile_cons_of_neg (by simp [kept])]

theorem rdropWhile_written (strokes : List Stroke) :
    (strokes.flatMap Stroke.written).rdropWhile isTrimmed =
      (strokes.rdropWhile Stroke.isBare).flatMap Stroke.written := by
  induction strokes using List.reverseRecOn with
  | nil => rfl
  | append_singleton strokes stroke ih =>
    rw [List.flatMap_append, List.flatMap_singleton]
    rcases stroke.written_cases with ⟨bare, all⟩ | ⟨bare, _, last, _, tail, _, kept⟩
    · have all : ∀ c ∈ stroke.written.reverse, isTrimmed c = true := fun c mem =>
        all c (List.mem_reverse.mp mem)
      rw [List.rdropWhile_concat_pos _ _ _ bare, ← ih, List.rdropWhile, List.reverse_append,
        List.dropWhile_append_of_pos all, List.rdropWhile]
    · obtain ⟨rest, same⟩ := List.getLast?_eq_some_iff.mp tail
      rw [List.rdropWhile_concat_neg _ _ _ (by simp [bare]), List.flatMap_append,
        List.flatMap_singleton, same, ← List.append_assoc,
        List.rdropWhile_concat_neg _ _ _ (by simp [kept])]

/-- The strokes of a text that has so many spaces in front of `inner` and so many behind it. -/
def strokes (leading : Nat) (inner : List Char) (trailing : Nat) : List Stroke :=
  List.replicate leading .space ++ inner.map .char ++ List.replicate trailing .space

theorem types?_of_written {text : String} {strokes : List Stroke}
    (written : (escape text).toList = strokes.flatMap Stroke.written) :
    types? (escape text) =
      some (((strokes.dropWhile Stroke.isBare).rdropWhile Stroke.isBare).flatMap Stroke.types) := by
  rw [types?, trim, written, dropWhile_written, rdropWhile_written, typed?_written]

theorem head?_dropWhile_ne (c : Char) (chars : List Char) :
    (chars.dropWhile (· == c)).head? ≠ some c := by
  intro first
  have other := List.head?_dropWhile_not (· == c) chars
  rw [first] at other
  simp at other

theorem exists_strokes (text : String) :
    ∃ leading inner trailing,
      text.toList = List.replicate leading ' ' ++ inner ++ List.replicate trailing ' ' ∧
      inner.head? ≠ some ' ' ∧ inner.getLast? ≠ some ' ' ∧
      (escape text).toList = (strokes leading inner trailing).flatMap Stroke.written := by
  generalize listed : text.toList = chars
  let isSpace : Char → Bool := (· == ' ')
  let rest := chars.dropWhile isSpace
  have spaces {run : List Char} (all : ∀ c ∈ run, isSpace c = true) :
      run = List.replicate run.length ' ' :=
    List.eq_replicate_of_mem fun c mem => eq_of_beq (all c mem)
  have front := spaces fun c (mem : c ∈ chars.takeWhile isSpace) => List.mem_takeWhile_imp mem
  have back := spaces fun c (mem : c ∈ rest.rtakeWhile isSpace) => List.mem_rtakeWhile_imp mem
  have cut : chars.takeWhile isSpace ++ (body chars ++ rest.rtakeWhile isSpace) = chars := by
    have inner : body chars ++ rest.rtakeWhile isSpace = rest := List.rdropWhile_append_rtakeWhile
    rw [inner, List.takeWhile_append_dropWhile]
  have counted : chars.length - (chars.takeWhile isSpace).length - (body chars).length =
      (rest.rtakeWhile isSpace).length := by
    have := congrArg List.length cut
    rw [List.length_append, List.length_append] at this
    omega
  refine ⟨(chars.takeWhile isSpace).length, body chars, (rest.rtakeWhile isSpace).length,
    ?_, ?_, ?_, ?_⟩
  · rw [← front, ← back, List.append_assoc, cut]
  · intro first
    have initial : body chars <+: rest := List.rdropWhile_prefix isSpace rest
    obtain ⟨more, whole⟩ := initial
    apply head?_dropWhile_ne ' ' chars
    change rest.head? = some ' '
    rw [← whole, List.head?_append, first]
    rfl
  · rw [body, List.getLast?_reverse]
    exact head?_dropWhile_ne ' ' _
  · rw [escape, String.toList_ofList, listed, counted, strokes]
    simp only [List.flatMap_append, List.flatMap_replicate, List.flatMap_map]
    rfl

theorem flatMap_types (leading : Nat) (inner : List Char) (trailing : Nat) :
    (strokes leading inner trailing).flatMap Stroke.types =
      (List.replicate leading ' ' ++ inner ++ List.replicate trailing ' ').filter (· != '\r') := by
  have typed : inner.flatMap (fun c => if c = '\r' then [] else [c]) =
      inner.filter (· != '\r') := by
    induction inner with
    | nil => rfl
    | cons c inner ih => by_cases carriage : c = '\r' <;> simp [carriage, ih]
  have spaces (count : Nat) : (List.replicate count [' ']).flatten = List.replicate count ' ' := by
    simp
  simp [strokes, Stroke.types, List.flatMap_replicate, List.flatMap_map, typed, spaces]

/-- Carriage returns come first, then a space, and something else after it. -/
def Hides (chars : List Char) : Prop :=
  chars.head? = some '\r' ∧
    ∃ rest, chars.dropWhile (· == '\r') = ' ' :: rest ∧ ∃ c ∈ rest, c ≠ ' '

theorem isReturn_of_mem_takeWhile {c : Char} {chars : List Char}
    (mem : c ∈ chars.takeWhile (· == '\r')) : c = '\r' :=
  eq_of_beq (List.mem_takeWhile_imp (p := (· == '\r')) mem)

/-- The carriage returns in front are trimmed and type nothing; what is behind them decides. -/
theorem trimmed_types_ne_nil_iff {inner : List Char} (trailing : Nat) :
    ((strokes 0 inner trailing).takeWhile Stroke.isBare).flatMap Stroke.types ≠ [] ↔
      (inner.dropWhile (· == '\r')).head? = some ' ' := by
  have cut := List.takeWhile_append_dropWhile (p := (· == '\r')) (l := inner)
  have bare : ∀ stroke ∈ (inner.takeWhile (· == '\r')).map Stroke.char,
      stroke.isBare = true := by
    intro stroke mem
    obtain ⟨c, known, rfl⟩ := List.mem_map.mp mem
    rw [isReturn_of_mem_takeWhile known]
    rfl
  have silent : ((inner.takeWhile (· == '\r')).map Stroke.char).flatMap Stroke.types = [] := by
    rw [List.flatMap_map, List.flatMap_eq_nil_iff]
    intro c known
    rw [isReturn_of_mem_takeWhile known]
    rfl
  have behind := head?_dropWhile_ne '\r' inner
  rw [strokes, List.replicate_zero, List.nil_append, ← cut, List.map_append, List.append_assoc,
    List.takeWhile_append_of_pos bare, List.flatMap_append, silent, List.nil_append, cut]
  generalize inner.dropWhile (· == '\r') = more at behind
  cases more with
  | nil => cases trailing <;> simp [List.replicate_succ, Stroke.isBare]
  | cons c more =>
    by_cases space : c = ' '
    · simp [space, Stroke.isBare, Stroke.types]
    · have noReturn : c ≠ '\r' := by simpa using behind
      simp [space, noReturn, Stroke.isBare]

/-- What is trimmed in front types something only if a space is hidden there. -/
theorem hides_iff {inner : List Char} (first : inner.head? ≠ some ' ')
    (last : inner.getLast? ≠ some ' ') (leading trailing : Nat) :
    Hides (List.replicate leading ' ' ++ inner ++ List.replicate trailing ' ') ↔
      ((strokes leading inner trailing).takeWhile Stroke.isBare).flatMap Stroke.types ≠ [] := by
  cases leading with
  | succ leading => simp [Hides, strokes, List.replicate_succ, Stroke.isBare]
  | zero =>
    have cut := List.takeWhile_append_dropWhile (p := (· == '\r')) (l := inner)
    have returns : ∀ c ∈ inner.takeWhile (· == '\r'), (c == '\r') = true := fun c mem =>
      List.mem_takeWhile_imp (p := (· == '\r')) mem
    have behind := head?_dropWhile_ne '\r' inner
    rw [trimmed_types_ne_nil_iff, Hides, List.replicate_zero, List.nil_append]
    constructor
    · rintro ⟨-, rest, same, c, mem, other⟩
      rw [← cut, List.append_assoc, List.dropWhile_append_of_pos returns] at same
      generalize inner.dropWhile (· == '\r') = more at same behind
      cases more with
      | nil =>
        -- Behind the carriage returns there are only spaces, and no character is something else.
        cases trailing with
        | zero => cases same
        | succ trailing =>
          obtain rfl : List.replicate trailing ' ' = rest := by
            simpa [List.replicate_succ] using same
          exact (other (List.eq_of_mem_replicate mem)).elim
      | cons d more =>
        have noReturn : d ≠ '\r' := by simpa using behind
        rw [List.cons_append, List.dropWhile_cons_of_neg (by simp [noReturn])] at same
        rw [List.head?_cons, (List.cons.inj same).1]
    · intro space
      obtain ⟨more, same⟩ := List.head?_eq_some_iff.mp space
      rw [same] at cut
      refine ⟨?_, more ++ List.replicate trailing ' ', ?_, ?_⟩
      · cases run : inner.takeWhile (· == '\r') with
        | nil =>
          rw [run] at cut
          exact (first (by rw [← cut]; rfl)).elim
        | cons c run' =>
          rw [run, List.forall_mem_cons] at returns
          rw [← cut, run, eq_of_beq returns.1]
          rfl
      · rw [← cut, List.append_assoc, List.dropWhile_append_of_pos returns, List.cons_append,
          List.dropWhile_cons_of_neg (by decide)]
      · rw [← cut, List.getLast?_append, List.getLast?_cons] at last
        cases more using List.reverseRecOn with
        | nil => simp at last
        | append_singleton more d => exact ⟨d, by simp, by simpa using last⟩

/-- What is trimmed behind types as much as if nothing silent stood in front of the strokes. -/
theorem rtrimmed_types_eq_nil_iff {front rest : List Stroke}
    (silent : front.flatMap Stroke.types = []) :
    ((front ++ rest).rtakeWhile Stroke.isBare).flatMap Stroke.types = [] ↔
      (rest.rtakeWhile Stroke.isBare).flatMap Stroke.types = [] := by
  rw [List.flatMap_eq_nil_iff] at silent
  simp only [List.flatMap_eq_nil_iff, List.rtakeWhile, List.mem_reverse, List.reverse_append,
    List.takeWhile_append]
  split
  next all =>
    have same := (List.takeWhile_prefix (l := rest.reverse) Stroke.isBare).eq_of_length all
    rw [same, List.forall_mem_append]
    refine and_iff_left fun stroke mem => silent stroke ?_
    exact List.mem_reverse.mp ((List.takeWhile_prefix Stroke.isBare).mem mem)
  next => exact Iff.rfl

theorem exists_spaces_of_bare {strokes : List Stroke}
    (bare : ∀ stroke ∈ strokes, stroke.isBare = true) :
    ∃ count, strokes.flatMap Stroke.types = List.replicate count ' ' := by
  induction strokes with
  | nil => exact ⟨0, rfl⟩
  | cons stroke strokes ih =>
    rw [List.forall_mem_cons] at bare
    obtain ⟨count, same⟩ := ih bare.2
    rw [List.flatMap_cons, same]
    cases stroke with
    | space => cases bare.1
    | char c =>
      by_cases carriage : c = '\r'
      · exact ⟨count, by simp [carriage, Stroke.types]⟩
      · obtain rfl : c = ' ' := by simpa [Stroke.isBare, carriage] using bare.1
        exact ⟨count + 1, rfl⟩

/-- What is trimmed behind types something only if a space is hidden there. -/
theorem hides_reverse_iff {inner : List Char} (first : inner.head? ≠ some ' ')
    (last : inner.getLast? ≠ some ' ') (leading trailing : Nat) :
    Hides (List.replicate leading ' ' ++ inner ++ List.replicate trailing ' ').reverse ↔
      ((strokes leading inner trailing).rtakeWhile Stroke.isBare).flatMap Stroke.types ≠ [] := by
  have text : (List.replicate leading ' ' ++ inner ++ List.replicate trailing ' ').reverse =
      List.replicate trailing ' ' ++ inner.reverse ++ List.replicate leading ' ' := by
    simp
  have mirrored : strokes trailing inner.reverse leading =
      (strokes leading inner trailing).reverse := by
    simp [strokes]
  rw [text, hides_iff (by rwa [List.head?_reverse]) (by rwa [List.getLast?_reverse]), mirrored,
    List.rtakeWhile]
  simp only [ne_eq, List.flatMap_eq_nil_iff, List.mem_reverse]

/-! What an escaped text types. -/

/-- If nothing were trimmed, an escaped text would type all its characters but the returns. -/
theorem typed?_escape (text : String) :
    typed? (escape text).toList = some (withoutReturns text) := by
  obtain ⟨leading, inner, trailing, parts, _, _, written⟩ := exists_strokes text
  rw [written, typed?_written, flatMap_types, withoutReturns, parts]

/-- An escaped text types its characters but the carriage returns and the spaces that these hide at
its ends; it stays on one line, and nothing in it is obeyed. -/
theorem types?_escape (text : String) :
    Text.OneLine (escape text) ∧
      (∃ typed front back, types? (escape text) = some typed ∧
        withoutReturns text = List.replicate front ' ' ++ typed ++ List.replicate back ' ') ∧
      (types? (escape text) = some (withoutReturns text) ↔
        ¬Hides text.toList ∧ ¬Hides text.toList.reverse) := by
  obtain ⟨leading, inner, trailing, parts, first, last, written⟩ := exists_strokes text
  have hidden := hides_iff first last leading trailing
  have hiddenBehind := hides_reverse_iff first last leading trailing
  have all : withoutReturns text = (strokes leading inner trailing).flatMap Stroke.types := by
    rw [withoutReturns, parts, flatMap_types]
  rw [← parts] at hidden hiddenBehind
  rw [types?_of_written written, all, hidden, hiddenBehind]
  generalize strokes leading inner trailing = strokes
  let before := strokes.takeWhile Stroke.isBare
  let rest := strokes.dropWhile Stroke.isBare
  let behind := rest.rtakeWhile Stroke.isBare
  -- The strokes fall into what is trimmed in front, what is typed, and what is trimmed behind.
  have cut : before ++ rest = strokes := List.takeWhile_append_dropWhile
  have whole : strokes.flatMap Stroke.types = before.flatMap Stroke.types ++
      (rest.rdropWhile Stroke.isBare).flatMap Stroke.types ++ behind.flatMap Stroke.types := by
    have inner : rest.rdropWhile Stroke.isBare ++ behind = rest :=
      List.rdropWhile_append_rtakeWhile
    rw [List.append_assoc, ← List.flatMap_append, inner, ← List.flatMap_append, cut]
  obtain ⟨front, spaces⟩ := exists_spaces_of_bare fun stroke (mem : stroke ∈ before) =>
    List.mem_takeWhile_imp mem
  obtain ⟨back, spacesBehind⟩ := exists_spaces_of_bare fun stroke (mem : stroke ∈ behind) =>
    List.mem_rtakeWhile_imp mem
  refine ⟨oneLine_escape text, ⟨_, front, back, rfl, by rw [whole, spaces, spacesBehind]⟩, ?_⟩
  rw [Option.some_inj, not_not, not_not]
  change (rest.rdropWhile Stroke.isBare).flatMap Stroke.types = _ ↔
    before.flatMap Stroke.types = [] ∧ _
  constructor
  · intro same
    have sizes := congrArg List.length (same.trans whole)
    rw [List.length_append, List.length_append] at sizes
    have silent : before.flatMap Stroke.types = [] := List.eq_nil_of_length_eq_zero (by omega)
    have silentBehind : behind.flatMap Stroke.types = [] :=
      List.eq_nil_of_length_eq_zero (by omega)
    refine ⟨silent, ?_⟩
    rwa [← cut, rtrimmed_types_eq_nil_iff silent]
  · rintro ⟨silent, silentBehind⟩
    rw [← cut, rtrimmed_types_eq_nil_iff silent] at silentBehind
    change behind.flatMap Stroke.types = [] at silentBehind
    rw [whole, silent, silentBehind, List.nil_append, List.append_nil]

/-- The space is not written as a key, since the text begins with the carriage return. -/
theorem types?_escape_return :
    types? (escape "\r x") = some ['x'] ∧ withoutReturns "\r x" = [' ', 'x'] := by
  decide

end FormulaKeys.Script.Send
