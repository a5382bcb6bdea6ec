import FormulaKeys.Action
import FormulaKeys.Command.Class
import FormulaKeys.Registry
import FormulaKeys.Text.Blank
import Mathlib.Data.List.TakeWhile

/-! Markup read as a bare list of characters.

This reading knows no offsets. It takes one construct at a time off the front of
the list; a group is cut out of the list and read as if it were the whole markup.
-/

set_option autoImplicit false

namespace FormulaKeys.Markup.Plain

/-- The content of a group and what stands behind its closing brace, `inner` further groups being
open. -/
def splitGroup? : Nat → List Char → Option (List Char × List Char)
  | _, [] => none
  | inner, '{' :: rest => (splitGroup? (inner + 1) rest).map (Prod.map ('{' :: ·) id)
  | 0, '}' :: rest => some ([], rest)
  | inner + 1, '}' :: rest => (splitGroup? inner rest).map (Prod.map ('}' :: ·) id)
  | inner, c :: rest => (splitGroup? inner rest).map (Prod.map (c :: ·) id)

inductive Argument where
  | absent
  | closed (content : List Char)
  /-- No brace closes the group. -/
  | unclosed (content : List Char)
  deriving DecidableEq, Repr

def Argument.content : Argument → List Char
  | absent => []
  | closed content | unclosed content => content

/-- The argument behind the blanks, and what stands behind it. -/
def takeArgument (chars : List Char) : Argument × List Char :=
  match chars.dropWhile Text.isBlank with
  | '{' :: inside =>
    match splitGroup? 0 inside with
    | some (content, rest) => (.closed content, rest)
    | none => (.unclosed inside, [])
  | rest => (.absent, rest)

/-- What a construct adds to the actions, in the order of its parts. -/
inductive Part where
  | text (content : String)
  | command (id : String)
  | nav (key : NavKey)
  /-- Whatever the content adds when it is read by itself. -/
  | argument (argument : Argument)
  /-- The backslash of an unknown command; `name` holds the letters behind it. -/
  | unknown (name : String)
  deriving DecidableEq, Repr

/-- The name of the command whose backslash stands in front of the list. -/
def name (chars : List Char) : String := String.ofList (chars.takeWhile Char.isAlpha)

def behindName (chars : List Char) : List Char := chars.dropWhile Char.isAlpha

/-- The space that ends the name of a symbol belongs to the name. -/
def dropSpace : List Char → List Char
  | ' ' :: rest => rest
  | rest => rest

def bound (mapping : Mapping) (name : String) (chars : List Char) : List Part × List Char :=
  match Command.Class.ofName name with
  | .binary =>
    let (first, middle) := takeArgument chars
    let (second, rest) := takeArgument middle
    ([.command mapping.id, .argument first, .nav mapping.advance, .argument second,
      .nav mapping.exit], rest)
  | .unary =>
    let (argument, rest) := takeArgument chars
    ([.command mapping.id, .argument argument, .nav mapping.exit], rest)
  | .wrapper | .function | .layout | .symbol _ | .unknown => ([.command mapping.id], chars)

/-- The command in front of the list, to which no mapping is bound. -/
def unbound (chars : List Char) : List Part × List Char :=
  match Command.Class.ofName (name chars) with
  | .wrapper =>
    let (payload, rest) := takeArgument (behindName chars)
    ([.argument payload], rest)
  | .function => ([.text (name chars)], behindName chars)
  | .layout => ([], behindName chars)
  | .symbol value => ([.text (String.singleton value)], dropSpace (behindName chars))
  | .binary | .unary | .unknown => ([.unknown (name chars)], chars)

/-- The command whose backslash stands in front of the list. -/
def command (registry : Registry) (chars : List Char) : List Part × List Char :=
  match chars with
  | ',' :: rest => ([.text " "], rest)
  | _ =>
    match registry.byTrigger? (name chars) with
    | some mapping => bound mapping (name chars) (behindName chars)
    | none => unbound chars

/-- The marker that stands in front of the list; bound, it takes a group or else exactly one
character. -/
def marker (registry : Registry) (c : Char) (chars : List Char) : List Part × List Char :=
  match registry.byTrigger? (String.singleton c) with
  | none => ([.text (String.singleton c)], chars)
  | some mapping =>
    match chars with
    | '{' :: _ =>
      let (argument, rest) := takeArgument chars
      ([.command mapping.id, .argument argument, .nav mapping.exit], rest)
    | d :: rest =>
      ([.command mapping.id, .text (String.singleton d), .nav mapping.exit], rest)
    | [] => ([.command mapping.id, .nav mapping.exit], [])

/-- The construct that begins with the character, and what stands behind it. -/
def construct (registry : Registry) (c : Char) (chars : List Char) : List Part × List Char :=
  match c with
  | '\\' => command registry chars
  | '^' => marker registry '^' chars
  | '_' => marker registry '_' chars
  | '$' => ([], chars)
  | c => ([.text (String.singleton c)], chars)

theorem construct_char {registry : Registry} {c : Char} {chars : List Char} (notSlash : c ≠ '\\')
    (notHat : c ≠ '^') (notBar : c ≠ '_') (notDollar : c ≠ '$') :
    construct registry c chars = ([.text (String.singleton c)], chars) := by
  unfold construct
  split <;> first | contradiction | rfl

/-! What the readers take is the list itself, cut at the right places. -/

theorem splitGroup?_cons {c : Char} (notOpening : c ≠ '{') (notClosing : c ≠ '}') (inner : Nat)
    (rest : List Char) :
    splitGroup? inner (c :: rest) = (splitGroup? inner rest).map (Prod.map (c :: ·) id) := by
  cases inner <;> simp [splitGroup?, notClosing]

theorem splitGroup?_eq {inner : Nat} {chars content rest : List Char}
    (found : splitGroup? inner chars = some (content, rest)) :
    chars = content ++ '}' :: rest := by
  induction chars generalizing inner content with
  | nil => simp [splitGroup?] at found
  | cons c chars ih =>
    -- Every branch but the closing brace itself puts `c` in front of a shorter content.
    have step {inner : Nat}
        (found : (splitGroup? inner chars).map (Prod.map (c :: ·) id) = some (content, rest)) :
        c :: chars = content ++ '}' :: rest := by
      obtain ⟨⟨shorter, behind⟩, shorterFound, same⟩ := Option.map_eq_some_iff.mp found
      cases same
      rw [ih shorterFound, List.cons_append]
    unfold splitGroup? at found
    split at found
    next nothing => cases nothing
    next same => cases same; exact step found
    next same => cases same; cases found; rfl
    next same => cases same; exact step found
    next same => cases same; exact step found

/-- An argument is what stands between the blanks and the rest; its braces are left out. -/
inductive Takes : List Char → Argument → List Char → Prop where
  | absent {rest : List Char} (noBrace : rest.head? ≠ some '{') : Takes rest .absent rest
  | closed {content rest : List Char} (split : splitGroup? 0 (content ++ '}' :: rest) =
      some (content, rest)) : Takes ('{' :: content ++ '}' :: rest) (.closed content) rest
  | unclosed {content : List Char} (split : splitGroup? 0 content = none) :
      Takes ('{' :: content) (.unclosed content) []

theorem takeArgument_takes {chars rest : List Char} {argument : Argument}
    (taken : takeArgument chars = (argument, rest)) :
    Takes (chars.dropWhile Text.isBlank) argument rest := by
  unfold takeArgument at taken
  split at taken
  next inside opens =>
    rw [opens]
    split at taken
    next content behind split =>
      cases taken
      have parts := splitGroup?_eq split
      subst parts
      exact .closed split
    next split =>
      cases taken
      exact .unclosed split
  next noBrace =>
    cases taken
    refine .absent fun brace => ?_
    obtain ⟨inside, same⟩ := List.head?_eq_some_iff.mp brace
    exact noBrace inside same

/-- No character is both in the argument and behind it. -/
theorem Takes.sublist {chars rest : List Char} {argument : Argument}
    (takes : Takes chars argument rest) : (argument.content ++ rest).Sublist chars := by
  cases takes with
  | absent => exact List.Sublist.refl _
  | @closed content rest =>
    exact ((List.Sublist.refl content).append (List.sublist_cons_self '}' rest)).cons '{'
  | @unclosed content =>
    rw [Argument.content, List.append_nil]
    exact List.sublist_cons_self '{' content

theorem sublist_of_takeArgument {chars rest : List Char} {argument : Argument}
    (taken : takeArgument chars = (argument, rest)) :
    (argument.content ++ rest).Sublist chars :=
  (takeArgument_takes taken).sublist.trans (List.dropWhile_sublist Text.isBlank)

theorem length_of_takeArgument {chars rest : List Char} {argument : Argument}
    (taken : takeArgument chars = (argument, rest)) :
    argument.content.length + rest.length ≤ chars.length := by
  rw [← List.length_append]
  exact (sublist_of_takeArgument taken).length_le

/-- The name and what stands behind it are all that there is. -/
theorem name_append_behindName (chars : List Char) :
    (name chars).toList ++ behindName chars = chars := by
  rw [name, String.toList_ofList, behindName, List.takeWhile_append_dropWhile]

theorem length_behindName (chars : List Char) : (behindName chars).length ≤ chars.length :=
  (List.dropWhile_suffix Char.isAlpha).length_le

theorem length_dropSpace (chars : List Char) : (dropSpace chars).length ≤ chars.length := by
  unfold dropSpace
  split <;> simp

/-! Everything that a construct can be. -/

/-- The construct in front of the list has these parts, and this stands behind it. -/
inductive Reads (registry : Registry) : List Char → List Part → List Char → Prop where
  | space {rest : List Char} : Reads registry ('\\' :: ',' :: rest) [.text " "] rest
  | binary {chars middle rest : List Char} {mapping : Mapping} {first second : Argument}
      (bound : registry.byTrigger? (name chars) = some mapping)
      (takes : Command.Class.ofName (name chars) = .binary)
      (one : takeArgument (behindName chars) = (first, middle))
      (two : takeArgument middle = (second, rest)) :
      Reads registry ('\\' :: chars)
        [.command mapping.id, .argument first, .nav mapping.advance, .argument second,
          .nav mapping.exit] rest
  | unary {chars rest : List Char} {mapping : Mapping} {argument : Argument}
      (bound : registry.byTrigger? (name chars) = some mapping)
      (takes : Command.Class.ofName (name chars) = .unary)
      (one : takeArgument (behindName chars) = (argument, rest)) :
      Reads registry ('\\' :: chars)
        [.command mapping.id, .argument argument, .nav mapping.exit] rest
  | bare {chars : List Char} {mapping : Mapping}
      (bound : registry.byTrigger? (name chars) = some mapping)
      (notBinary : Command.Class.ofName (name chars) ≠ .binary)
      (notUnary : Command.Class.ofName (name chars) ≠ .unary) :
      Reads registry ('\\' :: chars) [.command mapping.id] (behindName chars)
  | wrapper {chars rest : List Char} {payload : Argument}
      (free : registry.byTrigger? (name chars) = none)
      (takes : Command.Class.ofName (name chars) = .wrapper)
      (one : takeArgument (behindName chars) = (payload, rest)) :
      Reads registry ('\\' :: chars) [.argument payload] rest
  | function {chars : List Char} (free : registry.byTrigger? (name chars) = none)
      (takes : Command.Class.ofName (name chars) = .function) :
      Reads registry ('\\' :: chars) [.text (name chars)] (behindName chars)
  | layout {chars : List Char} (free : registry.byTrigger? (name chars) = none)
      (takes : Command.Class.ofName (name chars) = .layout) :
      Reads registry ('\\' :: chars) [] (behindName chars)
  | symbol {chars : List Char} {value : Char} (free : registry.byTrigger? (name chars) = none)
      (takes : Command.Class.ofName (name chars) = .symbol value) :
      Reads registry ('\\' :: chars) [.text (String.singleton value)]
        (dropSpace (behindName chars))
  | unknown {chars : List Char} (noComma : chars.head? ≠ some ',')
      (free : registry.byTrigger? (name chars) = none)
      (takes : Command.Class.ofName (name chars) = .binary ∨
        Command.Class.ofName (name chars) = .unary ∨
        Command.Class.ofName (name chars) = .unknown) :
      Reads registry ('\\' :: chars) [.unknown (name chars)] chars
  | freeMarker {c : Char} {chars : List Char} (isMarker : c = '^' ∨ c = '_')
      (free : registry.byTrigger? (String.singleton c) = none) :
      Reads registry (c :: chars) [.text (String.singleton c)] chars
  | script {c : Char} {inside rest : List Char} {mapping : Mapping} {argument : Argument}
      (isMarker : c = '^' ∨ c = '_')
      (bound : registry.byTrigger? (String.singleton c) = some mapping)
      (one : takeArgument ('{' :: inside) = (argument, rest)) :
      Reads registry (c :: '{' :: inside)
        [.command mapping.id, .argument argument, .nav mapping.exit] rest
  | scriptChar {c d : Char} {rest : List Char} {mapping : Mapping}
      (isMarker : c = '^' ∨ c = '_')
      (bound : registry.byTrigger? (String.singleton c) = some mapping) (single : d ≠ '{') :
      Reads registry (c :: d :: rest)
        [.command mapping.id, .text (String.singleton d), .nav mapping.exit] rest
  | scriptEnd {c : Char} {mapping : Mapping} (isMarker : c = '^' ∨ c = '_')
      (bound : registry.byTrigger? (String.singleton c) = some mapping) :
      Reads registry [c] [.command mapping.id, .nav mapping.exit] []
  | dollar {chars : List Char} : Reads registry ('$' :: chars) [] chars
  | char {c : Char} {chars : List Char} (notSlash : c ≠ '\\') (notMarker : ¬(c = '^' ∨ c = '_'))
      (notDollar : c ≠ '$') : Reads registry (c :: chars) [.text (String.singleton c)] chars

theorem command_reads (registry : Registry) (chars : List Char) :
    Reads registry ('\\' :: chars) (command registry chars).1 (command registry chars).2 := by
  unfold command
  split
  next rest => exact .space
  next noComma =>
    have noComma : chars.head? ≠ some ',' := by
      cases chars with
      | nil => simp
      | cons c rest => exact fun comma => noComma rest (by cases comma; rfl)
    split
    next mapping bound =>
      unfold Plain.bound
      split
      next takes => exact .binary bound takes rfl rfl
      next takes => exact .unary bound takes rfl
      all_goals
        next takes => exact .bare bound (by simp [takes]) (by simp [takes])
    next free =>
      unfold Plain.unbound
      split
      next takes => exact .wrapper free takes rfl
      next takes => exact .function free takes
      next takes => exact .layout free takes
      next value takes => exact .symbol free takes
      next takes => exact .unknown noComma free (.inl takes)
      next takes => exact .unknown noComma free (.inr (.inl takes))
      next takes => exact .unknown noComma free (.inr (.inr takes))

theorem marker_reads (registry : Registry) {c : Char} (isMarker : c = '^' ∨ c = '_')
    (chars : List Char) :
    Reads registry (c :: chars) (marker registry c chars).1 (marker registry c chars).2 := by
  unfold marker
  split
  next free => exact .freeMarker isMarker free
  next mapping bound =>
    split
    next inside => exact .script isMarker bound rfl
    next d rest single => exact .scriptChar isMarker bound single
    next => exact .scriptEnd isMarker bound

theorem construct_reads (registry : Registry) (c : Char) (chars : List Char) :
    Reads registry (c :: chars) (construct registry c chars).1
      (construct registry c chars).2 := by
  unfold construct
  split
  · exact command_reads registry chars
  · exact marker_reads registry (.inl rfl) chars
  · exact marker_reads registry (.inr rfl) chars
  · exact .dollar
  next notSlash notHat notBar notDollar =>
    exact .char notSlash (fun isMarker => isMarker.elim notHat notBar) notDollar

/-- How many characters of a part are left to be read. -/
def Part.size : Part → Nat
  | argument group => group.content.length
  | text _ | command _ | nav _ | unknown _ => 0

/-- Reading goes on behind the first character at the least, and so do the groups. -/
theorem Reads.length_lt {registry : Registry} {chars rest : List Char} {parts : List Part}
    (reads : Reads registry chars parts rest) :
    rest.length < chars.length ∧ ∀ part ∈ parts, part.size < chars.length := by
  cases reads with
  | @binary chars middle rest mapping first second _ _ one two =>
    have named := length_behindName chars
    have inFirst := length_of_takeArgument one
    have inSecond := length_of_takeArgument two
    simp only [List.forall_mem_cons, List.length_cons, Part.size, List.not_mem_nil, false_implies,
      implies_true, and_true]
    omega
  | @unary chars rest mapping argument _ _ one =>
    have named := length_behindName chars
    have inside := length_of_takeArgument one
    simp only [List.forall_mem_cons, List.length_cons, Part.size, List.not_mem_nil, false_implies,
      implies_true, and_true]
    omega
  | @wrapper chars rest payload _ _ one =>
    have named := length_behindName chars
    have inside := length_of_takeArgument one
    simp only [List.forall_mem_cons, List.length_cons, Part.size, List.not_mem_nil, false_implies,
      implies_true, and_true]
    omega
  | script _ _ one =>
    have inside := length_of_takeArgument one
    simp only [List.forall_mem_cons, List.length_cons, Part.size, List.not_mem_nil, false_implies,
      implies_true, and_true] at inside ⊢
    omega
  | @bare chars | @function chars | @layout chars =>
    have named := length_behindName chars
    exact ⟨by simp only [List.length_cons]; omega, by simp [Part.size]⟩
  | @symbol chars =>
    have named := length_behindName chars
    have spaced := length_dropSpace (behindName chars)
    exact ⟨by simp only [List.length_cons]; omega, by simp [Part.size]⟩
  | space | unknown | freeMarker | scriptChar | scriptEnd | dollar | char =>
    exact ⟨by simp only [List.length_cons, List.length_nil]; omega, by simp [Part.size]⟩

theorem Takes.suffix {chars rest : List Char} {argument : Argument}
    (takes : Takes chars argument rest) : rest <:+ chars := by
  cases takes with
  | absent => exact List.suffix_refl _
  | @closed content => exact ⟨'{' :: content ++ ['}'], by simp⟩
  | unclosed => exact List.nil_suffix

theorem takeArgument_suffix {chars rest : List Char} {argument : Argument}
    (taken : takeArgument chars = (argument, rest)) : rest <:+ chars :=
  (takeArgument_takes taken).suffix.trans (List.dropWhile_suffix Text.isBlank)

theorem dropSpace_suffix (chars : List Char) : dropSpace chars <:+ chars := by
  unfold dropSpace
  split
  next rest => exact List.suffix_cons ' ' rest
  next => exact List.suffix_refl _

/-- Reading goes on somewhere behind, and nothing that stands there has been touched. -/
theorem Reads.suffix {registry : Registry} {chars rest : List Char} {parts : List Part}
    (reads : Reads registry chars parts rest) : rest <:+ chars := by
  have named (chars : List Char) : behindName chars <:+ '\\' :: chars :=
    (List.dropWhile_suffix Char.isAlpha).trans (List.suffix_cons ..)
  cases reads with
  | binary _ _ one two =>
    exact (takeArgument_suffix two).trans ((takeArgument_suffix one).trans (named _))
  | unary _ _ one | wrapper _ _ one => exact (takeArgument_suffix one).trans (named _)
  | bare | function | layout => exact named _
  | symbol => exact (dropSpace_suffix _).trans (named _)
  | script _ _ one => exact (takeArgument_suffix one).trans (List.suffix_cons ..)
  | space | scriptChar => exact (List.suffix_cons ..).trans (List.suffix_cons ..)
  | scriptEnd => exact List.nil_suffix
  | unknown | freeMarker | dollar | char => exact List.suffix_cons ..

/-- The actions of a part, given what the content of an argument comes to. -/
def Part.actions (content : List Char → List Action) : Part → List Action
  | text content => [.text content]
  | command id => [.command id]
  | nav key => [.nav key]
  | argument group => content group.content
  | unknown _ => [.text "\\"]

/-- The actions of the markup, with one text for every piece of it that is typed. -/
def flat (registry : Registry) : List Char → List Action
  | [] => []
  | c :: chars =>
    ((construct registry c chars).1.attach.flatMap fun ⟨part, _mem⟩ =>
      match part, _mem with
      | .argument argument, _mem => flat registry argument.content
      | .text content, _ => [.text content]
      | .command id, _ => [.command id]
      | .nav key, _ => [.nav key]
      | .unknown _, _ => [.text "\\"]) ++
    flat registry (construct registry c chars).2
termination_by chars => chars.length
decreasing_by
  · exact (construct_reads registry c chars).length_lt.2 (.argument argument) _mem
  · exact (construct_reads registry c chars).length_lt.1

theorem flat_nil (registry : Registry) : flat registry [] = [] := by
  rw [flat]

theorem flat_cons (registry : Registry) (c : Char) (chars : List Char) :
    flat registry (c :: chars) =
      (construct registry c chars).1.flatMap (Part.actions (flat registry)) ++
        flat registry (construct registry c chars).2 := by
  rw [flat]
  congr 1
  refine (List.flatMap_subtype ?_).trans (by rw [List.unattach_attach])
  rintro (_ | _ | _ | _ | _) _ <;> rfl

/-- What holds of the markup when it holds of its groups and of what stands behind its first
construct holds of all markup. -/
theorem inductionOnConstructs (registry : Registry) {motive : List Char → Prop} (nil : motive [])
    (cons : ∀ (c : Char) (chars : List Char),
      (∀ argument, .argument argument ∈ (construct registry c chars).1 →
        motive argument.content) →
      motive (construct registry c chars).2 → motive (c :: chars))
    (chars : List Char) : motive chars :=
  match chars with
  | [] => nil
  | c :: chars =>
    cons c chars
      (fun argument _mem => inductionOnConstructs registry nil cons argument.content)
      (inductionOnConstructs registry nil cons (construct registry c chars).2)
termination_by chars.length
decreasing_by
  · exact (construct_reads registry c chars).length_lt.2 (.argument argument) _mem
  · exact (construct_reads registry c chars).length_lt.1

end FormulaKeys.Markup.Plain
