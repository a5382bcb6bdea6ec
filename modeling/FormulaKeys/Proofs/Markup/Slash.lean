import FormulaKeys.Proofs.Markup.Separator
import FormulaKeys.Proofs.Markup.Start
import FormulaKeys.Proofs.Markup.Verbatim
import Mathlib.Data.List.Forall2

/-! Backslashes that are typed.

A backslash is typed for two reasons: it belongs to a command without a meaning, which is
reported, or a bound marker in front of it takes it as its argument.
-/

set_option autoImplicit false

namespace FormulaKeys

open String (utf8Len)

/-- The name of the command that is typed out. -/
def Event.unknownName? : Event → Option String
  | unknownCommand name => some name
  | argumentAbsent _ | groupUnclosed _ | parsed _ _ | generating _ _ | generated _ _ _ => none

theorem Command.ne_slash_of_symbol : ∀ entry ∈ Symbol.table, entry.2 ≠ '\\' := by
  decide +kernel

namespace Action.Builder

def typed (builder : Builder) : List Char :=
  Action.typed builder.done.toList ++ builder.pending.toList

theorem typed_finish (builder : Builder) : Action.typed builder.finish = builder.typed := by
  unfold finish closed typed
  split
  next none => simp [none]
  next => simp [Action.typed, chars]

theorem typed_text (builder : Builder) (content : String) :
    (builder.text content).typed = builder.typed ++ content.toList := by
  simp [text, typed]

theorem typed_char (builder : Builder) (c : Char) :
    (builder.char c).typed = builder.typed ++ [c] := by
  simp [char, typed]

theorem typed_command (builder : Builder) (id : String) :
    (builder.command id).typed = builder.typed := by
  rw [← typed_finish builder]
  simp [command, typed, finish, Action.typed, chars]

theorem typed_nav (builder : Builder) (key : NavKey) :
    (builder.nav key).typed = builder.typed := by
  rw [← typed_finish builder]
  simp [nav, typed, finish, Action.typed, chars]

end Action.Builder

namespace Markup

variable {registry : Registry} {source : String} {pos stop : Nat} {chars rest tail : List Char}
  {c : Char}

def slashes (chars : List Char) : List Char := chars.filter (· == '\\')

theorem slashes_append (first rest : List Char) :
    slashes (first ++ rest) = slashes first ++ slashes rest :=
  List.filter_append ..

theorem slashes_single (notSlash : c ≠ '\\') : slashes [c] = [] := by
  simp [slashes, notSlash]

theorem slashes_name (chars : List Char) : slashes (Plain.name chars).toList = [] := by
  rw [slashes, List.filter_eq_nil_iff]
  intro c mem same
  have letter := Plain.letters_name chars c mem
  rw [beq_iff_eq] at same
  subst same
  exact absurd letter (by decide)

theorem ne_slash_of_isMarker (isMarker : c = '^' ∨ c = '_') : c ≠ '\\' := by
  rcases isMarker with rfl | rfl <;> decide

namespace Plain

/-- The name of the command in front of the list, if it is typed out. -/
def unknownName? (registry : Registry) : List Char → Option String
  | '\\' :: chars =>
    if chars.head? = some ',' ∨ (registry.byTrigger? (name chars)).isSome ∨
        (Command.Class.ofName (name chars)).isBuiltIn then
      none
    else some (name chars)
  | _ => none

/-- Whether a bound marker stands in front of the list and takes a backslash. -/
def takesSlash (registry : Registry) : List Char → Bool
  | c :: chars => (c = '^' ∨ c = '_') ∧ (registry.byTrigger? (String.singleton c)).isSome ∧
      chars.head? = some '\\'
  | [] => false

theorem unknownName?_of_ne (notSlash : c ≠ '\\') (chars : List Char) :
    unknownName? registry (c :: chars) = none := by
  unfold unknownName?
  split
  next same => cases same; exact (notSlash rfl).elim
  next => rfl

theorem unknownName?_eq_some_iff {name : String} :
    unknownName? registry chars = some name ↔
      ∃ rest, chars = '\\' :: rest ∧ rest.head? ≠ some ',' ∧ name = Plain.name rest ∧
        registry.byTrigger? name = none ∧ (Command.Class.ofName name).isBuiltIn = false := by
  constructor
  · intro found
    unfold unknownName? at found
    split at found
    next rest =>
      split at found
      next => cases found
      next free =>
        cases found
        simp only [not_or, Bool.not_eq_true, Option.isSome_eq_false_iff, Option.isNone_iff_eq_none]
          at free
        exact ⟨rest, rfl, free.1, rfl, free.2.1, free.2.2⟩
    next => cases found
  · rintro ⟨rest, rfl, noComma, rfl, free, noMeaning⟩
    exact if_neg (by simp [noComma, free, noMeaning])

theorem takesSlash_of_noMarker (noMarker : ¬(c = '^' ∨ c = '_')) (chars : List Char) :
    takesSlash registry (c :: chars) = false := by
  simp [takesSlash, noMarker]

theorem takesSlash_of_free (free : registry.byTrigger? (String.singleton c) = none)
    (chars : List Char) : takesSlash registry (c :: chars) = false := by
  simp [takesSlash, free]

theorem takesSlash_of_free_markers (noHat : registry.byTrigger? "^" = none)
    (noBar : registry.byTrigger? "_" = none) (chars : List Char) :
    takesSlash registry chars = false := by
  cases chars with
  | nil => rfl
  | cons c chars =>
    by_cases isMarker : c = '^' ∨ c = '_'
    · refine takesSlash_of_free ?_ chars
      rcases isMarker with rfl | rfl
      · exact noHat
      · exact noBar
    · exact takesSlash_of_noMarker isMarker chars

/-! Nothing is changed by what stands behind the end of a range. -/

/-- No command and no marker can take what comes first, the end of a group. -/
def Bounded (tail : List Char) : Prop := ∀ c ∈ tail.head?, c = '}'

theorem name_append_bounded (bounded : Bounded tail) (chars : List Char) :
    name (chars ++ tail) = name chars := by
  cases tail with
  | nil => rw [List.append_nil]
  | cons d tail =>
    cases bounded d rfl
    rw [name, takeWhile_append_stop (by decide), name]

theorem head?_append_bounded (bounded : Bounded tail) (notClosing : c ≠ '}') (chars : List Char) :
    (chars ++ tail).head? = some c ↔ chars.head? = some c := by
  cases chars with
  | cons => rfl
  | nil => exact ⟨fun here => (notClosing (bounded c here)).elim, nofun⟩

theorem unknownName?_append (bounded : Bounded tail) (c : Char) (chars : List Char) :
    unknownName? registry (c :: chars ++ tail) = unknownName? registry (c :: chars) := by
  by_cases slash : c = '\\'
  · subst slash
    have comma := head?_append_bounded bounded (show ',' ≠ '}' by decide) chars
    simp only [List.cons_append, unknownName?, name_append_bounded bounded, comma]
  · rw [List.cons_append, unknownName?_of_ne slash, unknownName?_of_ne slash]

theorem takesSlash_append (bounded : Bounded tail) (c : Char) (chars : List Char) :
    takesSlash registry (c :: chars ++ tail) = takesSlash registry (c :: chars) := by
  have slash := head?_append_bounded bounded (show '\\' ≠ '}' by decide) chars
  simp only [List.cons_append, takesSlash, slash]

end Plain

/-! What a construct types and says by itself. -/

def Piece.names : Piece → List String
  | .event message => message.unknownName?.toList
  | .text _ | .char _ | .command _ | .nav _ | .group _ _ => []

def Piece.slashes : Piece → List Char
  | .text content => Markup.slashes content.toList
  | .char c => Markup.slashes [c]
  | .event _ | .command _ | .nav _ | .group _ _ => []

theorem collects_names :
    Collects (fun transcript => transcript.events.toList.filterMap Event.unknownName?)
      Piece.names := by
  refine ⟨fun _ => rfl, fun _ => rfl, fun _ => rfl, fun _ => rfl, fun _ => rfl, fun _ _ => rfl, ?_⟩
  intro content transcript piece noGroup
  cases piece with
  | group start close => exact (noGroup start close rfl).elim
  | text | char | command | nav => exact (List.append_nil _).symm
  | event event =>
    have last : (transcript.events.push event).toList = transcript.events.toList ++ [event] :=
      Array.toList_push
    simp only [Transcript.piece, Transcript.event, last, List.filterMap_append, Piece.names]
    cases event <;> rfl

theorem collects_slashes :
    Collects (fun transcript => slashes transcript.actions.typed) Piece.slashes := by
  refine ⟨fun c => ?_, fun _ => rfl, fun _ => rfl, fun _ => rfl, fun _ => rfl, fun _ _ => rfl, ?_⟩
  · rw [Piece.slashes, Piece.slashes, String.toList_singleton]
  intro content transcript piece noGroup
  cases piece with
  | group start close => exact (noGroup start close rfl).elim
  | event => exact (List.append_nil _).symm
  | text content =>
    simp only [Transcript.piece, Transcript.text, Action.Builder.typed_text, slashes_append,
      Piece.slashes]
  | char c =>
    simp only [Transcript.piece, Transcript.char, Action.Builder.typed_char, slashes_append,
      Piece.slashes]
  | command id =>
    simp only [Transcript.piece, Transcript.command, Action.Builder.typed_command, Piece.slashes,
      List.append_nil]
  | nav key =>
    simp only [Transcript.piece, Transcript.nav, Action.Builder.typed_nav, Piece.slashes,
      List.append_nil]

/-- What is a part's own, if it is said of the pieces what is theirs. -/
def Plain.Part.own {Found : Type} (own : Piece → List Found) : Plain.Part → List Found
  | text content => own (.text content)
  | command id => own (.command id)
  | nav key => own (.nav key)
  | argument _ => []
  | unknown name => own (.event (.unknownCommand name)) ++ own (.char '\\')

section
variable {Found : Type} {collected : Transcript → List Found} {own : Piece → List Found}
  {pieces : List Piece} {parts : List Plain.Part}

theorem Collects.flatMap_own (collects : Collects collected own)
    (denotes : Denotes source pieces parts) :
    pieces.flatMap own = parts.flatMap (Plain.Part.own own) := by
  induction denotes with
  | nil => rfl
  | text _ ih | command _ ih | nav _ ih => exact congrArg (_ ++ ·) ih
  | char _ ih => simp only [List.flatMap_cons, ih, Plain.Part.own, collects.char]
  | absent _ ih => simp only [List.flatMap_cons, ih, Plain.Part.own, collects.absent]
  | closed _ _ ih => simp only [List.flatMap_cons, ih, Plain.Part.own, collects.group]
  | unclosed _ _ ih =>
    simp only [List.flatMap_cons, ih, Plain.Part.own, collects.unclosed, collects.group,
      List.nil_append]
  | unknown _ ih => simp only [List.flatMap_cons, ih, Plain.Part.own, List.append_assoc]

theorem flatMap_append_of_nil {within : Piece → List Found}
    (alone : pieces.flatMap own = [] ∨ pieces.flatMap within = []) :
    (pieces.flatMap fun piece => own piece ++ within piece) =
      pieces.flatMap own ++ pieces.flatMap within := by
  rcases alone with none | none
  · rw [none, List.nil_append]
    refine List.flatMap_congr fun piece mem => ?_
    rw [List.flatMap_eq_nil_iff.mp none piece mem, List.nil_append]
  · rw [none, List.append_nil]
    refine List.flatMap_congr fun piece mem => ?_
    rw [List.flatMap_eq_nil_iff.mp none piece mem, List.append_nil]

/-- A construct without arguments has no groups. -/
theorem Denotes.within_eq_nil (denotes : Denotes source pieces parts)
    (noArgument : ∀ argument, .argument argument ∉ parts) (content : Nat → Nat → List Found) :
    pieces.flatMap (Piece.within content) = [] := by
  induction denotes with
  | nil => rfl
  | text _ ih | command _ ih | nav _ ih | char _ ih | unknown _ ih =>
    exact ih fun argument mem => noArgument argument (List.mem_cons_of_mem _ mem)
  | absent | closed | unclosed => exact (noArgument _ List.mem_cons_self).elim

end

namespace Plain

variable {parts : List Part}

/-- No construct has both arguments and something of its own. -/
theorem Reads.parted {Found : Type} {own : Piece → List Found}
    (command : ∀ id, own (.command id) = []) (nav : ∀ key, own (.nav key) = [])
    (reads : Reads registry chars parts rest) :
    parts.flatMap (Part.own own) = [] ∨ ∀ argument, .argument argument ∉ parts := by
  cases reads with
  | binary | unary | wrapper | script =>
    left
    simp [Part.own, command, nav]
  | space | bare | function | layout | symbol | unknown | freeMarker | scriptChar | scriptEnd
  | dollar | char =>
    right
    simp

theorem unknownName?_bound {mapping : Mapping}
    (bound : registry.byTrigger? (name chars) = some mapping) :
    unknownName? registry ('\\' :: chars) = none :=
  if_pos (.inr (.inl (by rw [bound]; rfl)))

theorem unknownName?_builtIn (known : (Command.Class.ofName (name chars)).isBuiltIn = true) :
    unknownName? registry ('\\' :: chars) = none :=
  if_pos (.inr (.inr known))

/-- Exactly the commands that are typed out are reported. -/
theorem Reads.names_eq (reads : Reads registry chars parts rest) :
    parts.flatMap (Part.own Piece.names) = (unknownName? registry chars).toList := by
  cases reads with
  | space => rfl
  | binary bound | unary bound | bare bound =>
    rw [unknownName?_bound bound]
    rfl
  | wrapper _ takes | function _ takes | layout _ takes | symbol _ takes =>
    rw [unknownName?_builtIn (by rw [takes]; rfl)]
    rfl
  | unknown noComma free takes =>
    rw [unknownName?_eq_some_iff.mpr
      ⟨_, rfl, noComma, rfl, free, isBuiltIn_of_unknown takes⟩]
    rfl
  | freeMarker isMarker | script isMarker | scriptChar isMarker | scriptEnd isMarker =>
    rw [unknownName?_of_ne (ne_slash_of_isMarker isMarker)]
    rfl
  | dollar =>
    rw [unknownName?_of_ne (by decide)]
    rfl
  | char notSlash =>
    rw [unknownName?_of_ne notSlash]
    rfl

theorem takesSlash_slash (chars : List Char) : takesSlash registry ('\\' :: chars) = false :=
  takesSlash_of_noMarker (by decide) chars

/-- A backslash is typed for a command that is typed out, or else a marker takes it. -/
theorem Reads.slashes_eq (reads : Reads registry chars parts rest) :
    parts.flatMap (Part.own Piece.slashes) =
      ((unknownName? registry chars).toList.map fun _ => '\\') ++
        if takesSlash registry chars then ['\\'] else [] := by
  cases reads with
  | space => rfl
  | binary bound | unary bound | bare bound =>
    rw [unknownName?_bound bound, takesSlash_slash]
    rfl
  | wrapper _ takes | layout _ takes =>
    rw [unknownName?_builtIn (by rw [takes]; rfl), takesSlash_slash]
    rfl
  | function _ takes =>
    rw [unknownName?_builtIn (by rw [takes]; rfl), takesSlash_slash]
    simp [Part.own, Piece.slashes, slashes_name]
  | symbol _ takes =>
    have notSlash := Command.ne_slash_of_symbol _ (Command.mem_table_of_ofName takes)
    rw [unknownName?_builtIn (by rw [takes]; rfl), takesSlash_slash]
    simp [Part.own, Piece.slashes, slashes_single notSlash]
  | unknown noComma free takes =>
    rw [unknownName?_eq_some_iff.mpr
      ⟨_, rfl, noComma, rfl, free, isBuiltIn_of_unknown takes⟩, takesSlash_slash]
    rfl
  | freeMarker isMarker free =>
    have notSlash := ne_slash_of_isMarker isMarker
    rw [unknownName?_of_ne notSlash, takesSlash_of_free free]
    simp [Part.own, Piece.slashes, slashes_single notSlash]
  | script isMarker =>
    rw [unknownName?_of_ne (ne_slash_of_isMarker isMarker)]
    simp [Part.own, Piece.slashes, takesSlash]
  | @scriptChar c d rest mapping isMarker bound =>
    rw [unknownName?_of_ne (ne_slash_of_isMarker isMarker)]
    by_cases slash : d = '\\'
    · simp [Part.own, Piece.slashes, takesSlash, isMarker, bound, slash, slashes]
    · simp [Part.own, Piece.slashes, takesSlash, slash, slashes_single slash]
  | scriptEnd isMarker =>
    rw [unknownName?_of_ne (ne_slash_of_isMarker isMarker)]
    simp [Part.own, Piece.slashes, takesSlash]
  | dollar =>
    rw [unknownName?_of_ne (by decide), takesSlash_of_noMarker (by decide)]
    rfl
  | char notSlash noMarker =>
    rw [unknownName?_of_ne notSlash, takesSlash_of_noMarker noMarker]
    simp [Part.own, Piece.slashes, slashes_single notSlash]

end Plain

/-! What stands behind an offset shows what begins there. -/

/-- The characters from the offset on, if one of them begins there. -/
def behind (markup : String) (pos : Nat) : List Char :=
  (chars? markup pos markup.utf8ByteSize).getD []

theorem Spans.behind_eq (spans : Spans source pos source.utf8ByteSize chars) :
    behind source pos = chars := by
  rw [behind, spans.chars?_eq, Option.getD_some]

theorem spans_of_toList {before : List Char} (text : source.toList = before ++ rest) :
    Spans source (utf8Len before) source.utf8ByteSize rest := by
  have whole := Spans.whole source
  rw [text] at whole
  have parts := whole.split.2
  rwa [Nat.zero_add] at parts

theorem exists_of_behind_ne_nil (notEmpty : behind source pos ≠ []) :
    ∃ before, source.toList = before ++ behind source pos ∧ pos = utf8Len before := by
  by_cases boundary : IsBoundary source pos
  · obtain ⟨before, rest, text, rfl⟩ := isBoundary_iff.mp boundary
    exact ⟨before, by rw [(spans_of_toList text).behind_eq, text], rfl⟩
  · refine (notEmpty ?_).elim
    rw [behind, chars?, if_neg fun inside => boundary inside.2.1, Option.getD_none]

/-- Behind a range either the markup ends, or the brace stands that closes the range. -/
theorem Enclosed.exists_behind (enclosed : Enclosed source pos stop chars) :
    ∃ tail, Plain.Bounded tail ∧ behind source pos = chars ++ tail := by
  obtain ⟨before, tail, text, start⟩ := enclosed.spans.toList_eq
  rw [List.append_assoc] at text
  have spans := start ▸ spans_of_toList text
  refine ⟨tail, fun c first => ?_, spans.behind_eq⟩
  have here := spans.split.2.peek?_eq
  rw [← enclosed.spans.stop_eq, Option.mem_def.mp first] at here
  -- Where the range ends there is a character now, so it is the brace.
  rcases enclosed.ends with whole | ⟨_, passed, rest, sameText, finish⟩
  · exact absurd (lt_of_peek? here) (Nat.not_lt.mpr (Nat.le_of_eq whole.symm))
  · have brace := (spans_of_toList sameText).peek?_eq
    rw [← finish, here] at brace
    cases brace
    rfl

section
variable {Found : Type} {collected : Transcript → List Found} {own : Piece → List Found}

/-- What scanning leaves behind, if what stands in front of a list shows what is a construct's
own. -/
theorem Collects.scan_behind (collects : Collects collected own) {shown : List Char → List Found}
    (shows : ∀ {chars rest : List Char} {parts : List Plain.Part},
      Plain.Reads registry chars parts rest → parts.flatMap (Plain.Part.own own) = shown chars)
    (append : ∀ {tail : List Char}, Plain.Bounded tail → ∀ (c : Char) (chars : List Char),
      shown (c :: chars ++ tail) = shown (c :: chars))
    (enclosed : Enclosed source pos stop chars) (transcript : Transcript) :
    collected (scan registry source pos stop transcript) = collected transcript ++
      (starts registry source pos stop).flatMap fun pos => shown (behind source pos) := by
  refine collects.scan_eq (fun {pos stop chars construct} enclosed found content => ?_) pos stop
    chars enclosed transcript
  cases chars with
  | nil => cases (enclosed.spans.read?_nil registry).symm.trans found
  | cons c chars =>
    obtain ⟨same, foundSame, matched⟩ := enclosed.spans.read?_cons registry
    cases foundSame.symm.trans found
    have reads := Plain.construct_reads registry c chars
    -- The offset shows more than the range holds, but the construct is shown the same.
    obtain ⟨tail, bounded, text⟩ := enclosed.exists_behind
    rw [text, append bounded, ← shows reads, ← collects.flatMap_own matched.denotes]
    refine flatMap_append_of_nil ((reads.parted collects.command collects.nav).imp ?_ ?_)
    · exact (collects.flatMap_own matched.denotes).trans
    · exact fun noArgument => matched.denotes.within_eq_nil noArgument content

end

/-! The markup as a whole. -/

/-- At the offset stands a backslash, and the name is the run of letters behind it. -/
def NamedAt (markup : String) (pos : Nat) (name : String) : Prop :=
  ∃ before rest, markup.toList = before ++ '\\' :: name.toList ++ rest ∧ pos = utf8Len before ∧
    (∀ c ∈ name.toList, c.isAlpha = true) ∧ Plain.EndsName rest

theorem namedAt_of_unknownName? {markup name : String}
    (found : Plain.unknownName? registry (behind markup pos) = some name) :
    NamedAt markup pos name ∧ registry.byTrigger? name = none ∧
      (Command.Class.ofName name).isBuiltIn = false := by
  obtain ⟨rest, here, _, rfl, free, noMeaning⟩ := Plain.unknownName?_eq_some_iff.mp found
  obtain ⟨before, text, start⟩ := exists_of_behind_ne_nil (by rw [here]; exact List.cons_ne_nil _ _)
  refine ⟨⟨before, Plain.behindName rest, ?_, start, Plain.letters_name rest,
    Plain.endsName_behindName rest⟩, free, noMeaning⟩
  rw [text, here, List.append_assoc, List.cons_append, Plain.name_append_behindName]

/-- The offsets at which something is said, beside what is said there. -/
theorem exists_forall₂_filterMap {Found : Type} (said : Nat → Option Found) (offsets : List Nat) :
    ∃ speaking, speaking.Sublist offsets ∧
      List.Forall₂ (fun pos found => said pos = some found) speaking (offsets.filterMap said) := by
  induction offsets with
  | nil => exact ⟨[], .slnil, .nil⟩
  | cons pos offsets ih =>
    obtain ⟨speaking, sub, pairs⟩ := ih
    cases here : said pos with
    | none =>
      rw [List.filterMap_cons_none here]
      exact ⟨speaking, sub.cons pos, pairs⟩
    | some found =>
      rw [List.filterMap_cons_some here]
      exact ⟨pos :: speaking, sub.cons_cons pos, .cons here pairs⟩

theorem length_flatMap_shown {Found : Type} (said : Nat → Option Found) (takes : Nat → Bool)
    (offsets : List Nat) :
    (offsets.flatMap fun pos => ((said pos).toList.map fun _ => '\\') ++
      if takes pos then ['\\'] else []).length =
      (offsets.filterMap said).length + (offsets.filter takes).length := by
  induction offsets with
  | nil => rfl
  | cons pos offsets ih =>
    rw [List.flatMap_cons, List.length_append, ih]
    cases here : said pos <;> cases taken : takes pos <;>
      simp [here, taken] <;> omega

theorem unknownNames_read (registry : Registry) (markup : String) :
    (read registry markup).events.filterMap Event.unknownName? =
      (starts registry markup 0 markup.utf8ByteSize).filterMap fun pos =>
        Plain.unknownName? registry (behind markup pos) := by
  rw [List.filterMap_eq_flatMap_toList (fun pos => Plain.unknownName? registry (behind markup pos)),
    read, List.filterMap_append]
  refine (List.append_nil _).trans (collects_names.scan_behind Plain.Reads.names_eq ?_
    (Enclosed.whole markup) .empty)
  intro tail bounded c chars
  rw [Plain.unknownName?_append bounded]

theorem count_typed_parse (registry : Registry) (markup : String) :
    (Action.typed (parse registry markup)).count '\\' =
      ((read registry markup).events.filterMap Event.unknownName?).length +
        ((starts registry markup 0 markup.utf8ByteSize).filter fun pos =>
          Plain.takesSlash registry (behind markup pos)).length := by
  rw [unknownNames_read, ← length_flatMap_shown, List.count_eq_length_filter, parse, read,
    Action.Builder.typed_finish]
  refine congrArg List.length (collects_slashes.scan_behind Plain.Reads.slashes_eq ?_
    (Enclosed.whole markup) .empty)
  intro tail bounded c chars
  rw [Plain.unknownName?_append bounded, Plain.takesSlash_append bounded]

/-- As many backslashes are typed as commands are reported to be typed out, and one more for each
bound marker that takes a backslash. Each report belongs to a backslash of its own, in the order of
the markup, and names the letters behind it, to which no mapping is bound and which have no meaning
of their own. -/
theorem typed_slashes (registry : Registry) (markup : String) :
    let begins := starts registry markup 0 markup.utf8ByteSize
    let names := (read registry markup).events.filterMap Event.unknownName?
    let count := (Action.typed (parse registry markup)).count '\\'
    begins.Pairwise (· < ·) ∧
      count = names.length + (begins.filter fun pos =>
        Plain.takesSlash registry (behind markup pos)).length ∧
      (registry.byTrigger? "^" = none → registry.byTrigger? "_" = none → count = names.length) ∧
      (∃ slashes, slashes.Sublist begins ∧ List.Forall₂ (NamedAt markup) slashes names) ∧
      ∀ name ∈ names, registry.byTrigger? name = none ∧
        (Command.Class.ofName name).isBuiltIn = false := by
  intro begins names count
  have counted := count_typed_parse registry markup
  have said : names = begins.filterMap fun pos =>
      Plain.unknownName? registry (behind markup pos) := unknownNames_read registry markup
  refine ⟨pairwise_starts registry markup, counted, fun noHat noBar => ?_, ?_, fun name mem => ?_⟩
  · have none : (begins.filter fun pos => Plain.takesSlash registry (behind markup pos)) = [] := by
      rw [List.filter_eq_nil_iff]
      exact fun pos _ => Bool.eq_false_iff.mp (Plain.takesSlash_of_free_markers noHat noBar _)
    rw [none, List.length_nil, Nat.add_zero] at counted
    exact counted
  · obtain ⟨slashes, sub, pairs⟩ := exists_forall₂_filterMap
      (fun pos => Plain.unknownName? registry (behind markup pos)) begins
    refine ⟨slashes, sub, ?_⟩
    rw [← said] at pairs
    exact pairs.imp fun _ _ found => (namedAt_of_unknownName? found).1
  · rw [said] at mem
    obtain ⟨pos, _, found⟩ := List.mem_filterMap.mp mem
    exact (namedAt_of_unknownName? found).2

/-- The marker stands for itself, so the backslash behind it is that of the command. -/
theorem typed_slashes_empty :
    Registry.empty.byTrigger? "^" = none ∧ Registry.empty.byTrigger? "_" = none ∧
      (read Registry.empty "^\\dfrac \\,\\").events.filterMap Event.unknownName? = ["dfrac", ""] ∧
      (Action.typed (parse Registry.empty "^\\dfrac \\,\\")).count '\\' = 2 := by
  have said : (read Registry.empty "^\\dfrac \\,\\").events.filterMap Event.unknownName? =
      ["dfrac", ""] := by
    decide +kernel
  obtain ⟨_, _, unbound, _⟩ := typed_slashes Registry.empty "^\\dfrac \\,\\"
  exact ⟨rfl, rfl, said, (unbound rfl rfl).trans (congrArg List.length said)⟩

end Markup

end FormulaKeys
