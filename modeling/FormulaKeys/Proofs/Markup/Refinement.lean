import FormulaKeys.Markup.Scan
import FormulaKeys.Proofs.Action.Coalesce
import FormulaKeys.Proofs.Markup.Plain
import FormulaKeys.Proofs.Markup.Span

/-! The cursor reads markup as the plain reading does.

Along a range, each reader of the cursor finds what its plain counterpart takes off
the characters of the range. Nothing outside the range is looked at, so a group that
is read in place is read as if it stood alone.
-/

set_option autoImplicit false

namespace FormulaKeys.Markup

open String (utf8Len)

variable {source : String} {pos stop : Nat} {chars rest : List Char}

/-- The search looks at the markup only to see which character comes next. -/
theorem closer?_of_peek? (inner : Nat) (seen : ∀ first rest, chars = first ++ rest →
      peek? source (pos + utf8Len first) stop = rest.head?) :
    closer? source pos stop inner =
      (Plain.splitGroup? inner chars).map fun (content, _) => pos + utf8Len content := by
  have here : peek? source pos stop = chars.head? := seen [] chars rfl
  induction chars generalizing pos inner with
  | nil =>
    unfold closer?
    rw [Plain.splitGroup?]
    split <;> (rename_i found; cases here.symm.trans found)
    rfl
  | cons c chars ih =>
    have behind (first rest : List Char) (same : chars = first ++ rest) :
        peek? source (pos + c.utf8Size + utf8Len first) stop = rest.head? := by
      rw [← seen (c :: first) rest (congrArg (c :: ·) same), String.utf8Len_cons]
      congr 1
      omega
    -- The offset of the brace is the same, counted from the front of the list or from behind `c`.
    have shift (inner : Nat) :
        closer? source (pos + c.utf8Size) stop inner =
          ((Plain.splitGroup? inner chars).map (Prod.map (c :: ·) id)).map
            fun (content, _) => pos + utf8Len content := by
      rw [ih inner behind (behind [] chars rfl), Option.map_map]
      congr 1
      funext parts
      simp only [Function.comp_apply, Prod.map_fst, String.utf8Len_cons]
      omega
    unfold closer?
    split
    next found =>
      cases here.symm.trans found
      exact shift (inner + 1)
    next found =>
      cases here.symm.trans found
      cases inner with
      | zero => rfl
      | succ inner => exact shift inner
    next d notOpening notClosing found =>
      cases here.symm.trans found
      rw [Plain.splitGroup?_cons notOpening notClosing]
      exact shift inner
    next found => cases here.symm.trans found

theorem Spans.closer?_eq (inner : Nat) (spans : Spans source pos stop chars) :
    closer? source pos stop inner =
      (Plain.splitGroup? inner chars).map fun (content, _) => pos + utf8Len content := by
  refine closer?_of_peek? inner fun first rest same => ?_
  subst same
  exact spans.split.2.peek?_eq

/-- The brace that is found stands between the content and the rest. -/
theorem Spans.of_closer? {inner close : Nat} (spans : Spans source pos stop chars)
    (found : closer? source pos stop inner = some close) :
    ∃ content rest, Plain.splitGroup? inner chars = some (content, rest) ∧
      Spans source pos close content ∧ Spans source (close + 1) stop rest := by
  rw [spans.closer?_eq inner] at found
  obtain ⟨⟨content, rest⟩, cut, rfl⟩ := Option.map_eq_some_iff.mp found
  rw [Plain.splitGroup?_eq cut] at spans
  exact ⟨content, rest, cut, spans.split.1, spans.split.2.tail⟩

/-- The pieces say in place what the parts say. -/
inductive Denotes (source : String) : List Piece → List Plain.Part → Prop where
  | nil : Denotes source [] []
  | text {content : String} {pieces : List Piece} {parts : List Plain.Part} :
      Denotes source pieces parts →
      Denotes source (.text content :: pieces) (.text content :: parts)
  | char {c : Char} {pieces : List Piece} {parts : List Plain.Part} :
      Denotes source pieces parts →
      Denotes source (.char c :: pieces) (.text (String.singleton c) :: parts)
  | command {id : String} {pieces : List Piece} {parts : List Plain.Part} :
      Denotes source pieces parts →
      Denotes source (.command id :: pieces) (.command id :: parts)
  | nav {key : NavKey} {pieces : List Piece} {parts : List Plain.Part} :
      Denotes source pieces parts → Denotes source (.nav key :: pieces) (.nav key :: parts)
  | absent {pos : Nat} {pieces : List Piece} {parts : List Plain.Part} :
      Denotes source pieces parts →
      Denotes source (.event (.argumentAbsent pos) :: pieces) (.argument .absent :: parts)
  | closed {start close : Nat} {content : List Char} {pieces : List Piece}
      {parts : List Plain.Part} :
      Spans source start close content → Denotes source pieces parts →
      Denotes source (.group start close :: pieces) (.argument (.closed content) :: parts)
  | unclosed {start stop : Nat} {content : List Char} {pieces : List Piece}
      {parts : List Plain.Part} :
      Spans source start stop content → Denotes source pieces parts →
      Denotes source (.event (.groupUnclosed start) :: .group start stop :: pieces)
        (.argument (.unclosed content) :: parts)
  | unknown {name : String} {pieces : List Piece} {parts : List Plain.Part} :
      Denotes source pieces parts →
      Denotes source (.event (.unknownCommand name) :: .char '\\' :: pieces)
        (.unknown name :: parts)

/-- The cursor's construct is the plain one: its pieces are the parts, and it ends where the rest
begins. -/
structure Construct.Matches (construct : Construct) (source : String) (stop : Nat)
    (plain : List Plain.Part × List Char) : Prop where
  denotes : Denotes source construct.pieces plain.1
  behind : Spans source construct.next stop plain.2

/-- The cursor finds the argument that the plain reading takes. -/
theorem Spans.argument (spans : Spans source pos stop chars) :
    Spans source (Argument.read source pos stop).next stop (Plain.takeArgument chars).2 ∧
      ∀ {pieces : List Piece} {parts : List Plain.Part}, Denotes source pieces parts →
        Denotes source ((Argument.read source pos stop).pieces ++ pieces)
          (.argument (Plain.takeArgument chars).1 :: parts) := by
  -- Blanks are passed over before anything is known of the brace, as the plain reading does.
  have opening := (spans.skip Text.isBlank).2
  have seen := opening.peek?_eq
  unfold Argument.read Plain.takeArgument
  dsimp only
  split
  next found =>
    obtain ⟨inside, same⟩ := List.head?_eq_some_iff.mp (seen.symm.trans found)
    rw [same] at opening ⊢
    have content : Spans source (skipWhile Text.isBlank source pos stop + 1) stop inside :=
      opening.tail
    split
    next close brace =>
      obtain ⟨group, rest, cut, within, behind⟩ := content.of_closer? brace
      simp only [cut]
      exact ⟨behind, fun tail => .closed within tail⟩
    next unclosed =>
      have cut : Plain.splitGroup? 0 inside = none := by
        rwa [content.closer?_eq 0, Option.map_eq_none_iff] at unclosed
      simp only [cut]
      exact ⟨content.finish, fun tail => .unclosed content tail⟩
  next noBrace =>
    have noBrace : ∀ inside, chars.dropWhile Text.isBlank = '{' :: inside → False := by
      intro inside same
      apply noBrace
      rw [seen, same]
      rfl
    split
    next inside same => exact (noBrace inside same).elim
    next => exact ⟨opening, fun tail => .absent tail⟩

namespace Spans

theorem ofMapping (mapping : Mapping) (name : String) (spans : Spans source pos stop chars) :
    (Construct.ofMapping mapping name source pos stop).Matches source stop
      (Plain.bound mapping name chars) := by
  have first := spans.argument
  have second := first.1.argument
  unfold Construct.ofMapping Plain.bound
  cases Command.Class.ofName name with
  | binary =>
    refine ⟨?_, second.1⟩
    simp only [List.append_assoc, List.cons_append]
    exact .command (first.2 (.nav (second.2 (.nav .nil))))
  | unary =>
    refine ⟨?_, first.1⟩
    simp only [List.cons_append]
    exact .command (first.2 (.nav .nil))
  | wrapper | function | layout | symbol | unknown => exact ⟨.command .nil, spans⟩

theorem ofUnbound {slash : Nat} (letters : Spans source (slash + 1) stop chars)
    (behind : Spans source pos stop (Plain.behindName chars)) :
    (Construct.ofUnbound (Plain.name chars) source slash pos stop).Matches source stop
      (Plain.unbound chars) := by
  unfold Construct.ofUnbound Plain.unbound
  cases Command.Class.ofName (Plain.name chars) with
  | wrapper =>
    have payload := behind.argument
    refine ⟨?_, payload.1⟩
    simpa only [List.append_nil] using payload.2 .nil
  | function => exact ⟨.text .nil, behind⟩
  | layout => exact ⟨.nil, behind⟩
  | symbol value =>
    refine ⟨.char .nil, ?_⟩
    have seen := behind.peek?_eq
    dsimp only
    unfold Plain.dropSpace
    split
    next space =>
      obtain ⟨rest, same⟩ := List.head?_eq_some_iff.mp (seen.symm.trans space)
      rw [same] at behind ⊢
      exact behind.tail
    next noSpace =>
      split
      next rest same =>
        apply (noSpace _).elim
        rw [seen, same]
        rfl
      next => exact behind
  | binary | unary | unknown => exact ⟨.unknown .nil, letters⟩

theorem ofCommand (registry : Registry) {slash : Nat}
    (spans : Spans source slash stop ('\\' :: chars)) :
    (Construct.ofCommand registry source slash stop).Matches source stop
      (Plain.command registry chars) := by
  have letters : Spans source (slash + 1) stop chars := spans.tail
  obtain ⟨named, behind⟩ := letters.skip Char.isAlpha
  have seen := letters.peek?_eq
  unfold Construct.ofCommand
  split
  next comma =>
    obtain ⟨rest, same⟩ := List.head?_eq_some_iff.mp (seen.symm.trans comma)
    subst same
    exact ⟨.char .nil, letters.tail⟩
  next noComma =>
    unfold Plain.command
    split
    next rest =>
      apply (noComma _).elim
      rw [seen]
      rfl
    next =>
      dsimp only
      rw [named.slice_eq, ← Plain.name]
      cases registry.byTrigger? (Plain.name chars) with
      | some mapping => exact behind.ofMapping mapping _
      | none => exact letters.ofUnbound behind

theorem ofMarker (registry : Registry) {c : Char} (single : c.utf8Size = 1)
    (spans : Spans source pos stop (c :: chars)) :
    (Construct.ofMarker registry c source pos stop).Matches source stop
      (Plain.marker registry c chars) := by
  have behind : Spans source (pos + 1) stop chars := single ▸ spans.tail
  have seen := behind.peek?_eq
  unfold Construct.ofMarker Plain.marker
  cases registry.byTrigger? (String.singleton c) with
  | none => exact ⟨.char .nil, behind⟩
  | some mapping =>
    cases chars with
    | nil =>
      rw [List.head?_nil] at seen
      simp only [seen]
      exact ⟨.command (.nav .nil), behind⟩
    | cons d rest =>
      rw [List.head?_cons] at seen
      by_cases brace : d = '{'
      · subst brace
        have argument := behind.argument
        simp only [seen]
        refine ⟨?_, argument.1⟩
        simp only [List.cons_append]
        exact .command (argument.2 (.nav .nil))
      · have unopened : Construct.Matches
            ⟨[.command mapping.id, .char d, .nav mapping.exit], pos + 1 + d.utf8Size⟩ source stop
            ([.command mapping.id, .text (String.singleton d), .nav mapping.exit], rest) :=
          ⟨.command (.char (.nav .nil)), behind.tail⟩
        simpa [seen, brace] using unopened

theorem read?_cons (registry : Registry) {c : Char} (spans : Spans source pos stop (c :: chars)) :
    ∃ construct, Construct.read? registry source pos stop = some construct ∧
      construct.Matches source stop (Plain.construct registry c chars) := by
  have seen := spans.peek?_eq
  unfold Construct.read?
  split
  next found =>
    cases seen.symm.trans found
    exact ⟨_, rfl, spans.ofCommand registry⟩
  next found =>
    cases seen.symm.trans found
    exact ⟨_, rfl, spans.ofMarker registry rfl⟩
  next found =>
    cases seen.symm.trans found
    exact ⟨_, rfl, spans.ofMarker registry rfl⟩
  next found =>
    cases seen.symm.trans found
    exact ⟨_, rfl, .nil, spans.tail⟩
  next d notSlash notHat notBar notDollar found =>
    cases seen.symm.trans found
    refine ⟨_, rfl, ?_⟩
    rw [Plain.construct_char notSlash notHat notBar notDollar]
    exact ⟨.char .nil, spans.tail⟩
  next found => cases seen.symm.trans found

theorem read?_nil (registry : Registry) (spans : Spans source pos stop []) :
    Construct.read? registry source pos stop = none := by
  have seen := spans.peek?_eq
  rw [List.head?_nil] at seen
  simp only [Construct.read?, seen]

end Spans

/-- Add a piece; `content` scans what is between two offsets. -/
def Transcript.piece (content : Nat → Nat → Transcript → Transcript) (transcript : Transcript) :
    Piece → Transcript
  | .text content => transcript.text content
  | .char c => transcript.char c
  | .command id => transcript.command id
  | .nav key => transcript.nav key
  | .event event => transcript.event event
  | .group start close => content start close transcript

theorem scan_of_read?_none {registry : Registry} (transcript : Transcript)
    (found : Construct.read? registry source pos stop = none) :
    scan registry source pos stop transcript = transcript := by
  rw [scan]
  split
  next => rfl
  next construct other => cases found.symm.trans other

theorem scan_of_read? {registry : Registry} {construct : Construct} (transcript : Transcript)
    (found : Construct.read? registry source pos stop = some construct) :
    scan registry source pos stop transcript =
      scan registry source construct.next stop
        (construct.pieces.foldl (Transcript.piece (scan registry source)) transcript) := by
  rw [scan]
  split
  next other => cases found.symm.trans other
  next same other =>
    cases found.symm.trans other
    rw [List.foldl_subtype (g := Transcript.piece (scan registry source)), List.unattach_attach]
    rintro transcript (_ | _ | _ | _ | _ | _) _ <;> rfl

/-- A construct adds the actions of its parts, as soon as its groups do. -/
theorem Denotes.actions_foldl {pieces : List Piece} {parts : List Plain.Part}
    (denotes : Denotes source pieces parts) {content : Nat → Nat → Transcript → Transcript}
    {plain : List Char → List Action}
    (groups : ∀ argument, .argument argument ∈ parts → ∀ start close,
      Spans source start close argument.content → ∀ transcript,
        (content start close transcript).actions =
          (plain argument.content).foldl Action.Builder.add transcript.actions)
    (absent : plain [] = []) (transcript : Transcript) :
    (pieces.foldl (Transcript.piece content) transcript).actions =
      (parts.flatMap (Plain.Part.actions plain)).foldl Action.Builder.add transcript.actions := by
  -- The transcript grows with every piece; what the tail adds to it is the same from any start.
  induction denotes generalizing transcript with
  | nil => rfl
  | text tail ih | command tail ih | nav tail ih =>
    rw [List.foldl_cons, ih fun argument mem => groups argument (List.mem_cons_of_mem _ mem)]
    rfl
  | char tail ih =>
    rw [List.foldl_cons, ih fun argument mem => groups argument (List.mem_cons_of_mem _ mem)]
    simp only [Transcript.piece, Transcript.char, Action.Builder.char_eq_add]
    rfl
  | unknown tail ih =>
    rw [List.foldl_cons, List.foldl_cons,
      ih fun argument mem => groups argument (List.mem_cons_of_mem _ mem)]
    simp only [Transcript.piece, Transcript.char, Transcript.event, Action.Builder.char_eq_add]
    rfl
  | absent tail ih =>
    rw [List.foldl_cons, ih fun argument mem => groups argument (List.mem_cons_of_mem _ mem),
      List.flatMap_cons, Plain.Part.actions, Plain.Argument.content, absent]
    rfl
  | closed spans tail ih =>
    rw [List.foldl_cons, ih fun argument mem => groups argument (List.mem_cons_of_mem _ mem),
      List.flatMap_cons, List.foldl_append]
    congr 1
    exact groups _ (by simp) _ _ spans _
  | unclosed spans tail ih =>
    rw [List.foldl_cons, List.foldl_cons,
      ih fun argument mem => groups argument (List.mem_cons_of_mem _ mem), List.flatMap_cons,
      List.foldl_append]
    congr 1
    exact groups _ (by simp) _ _ spans _

/-- Scanning a range adds what the plain reading of its characters comes to. -/
theorem actions_scan (registry : Registry) (source : String) (chars : List Char) :
    ∀ {pos stop : Nat}, Spans source pos stop chars → ∀ transcript,
      (scan registry source pos stop transcript).actions =
        (Plain.flat registry chars).foldl Action.Builder.add transcript.actions := by
  induction chars using Plain.inductionOnConstructs registry with
  | nil =>
    intro pos stop spans transcript
    rw [scan_of_read?_none transcript (spans.read?_nil registry), Plain.flat]
    rfl
  | cons c chars groups behind =>
    intro pos stop spans transcript
    obtain ⟨construct, found, same⟩ := spans.read?_cons registry
    -- What stands behind is scanned last, on a transcript that already holds the construct.
    rw [scan_of_read? transcript found, behind same.behind, Plain.flat_cons, List.foldl_append]
    congr 1
    apply same.denotes.actions_foldl
    · intro argument mem start close inside
      exact groups argument mem inside
    · rw [Plain.flat]

theorem parse_eq_finish (registry : Registry) (markup : String) :
    parse registry markup =
      ((Plain.flat registry markup.toList).foldl Action.Builder.add .empty).finish :=
  congrArg Action.Builder.finish
    (actions_scan registry markup markup.toList (Spans.whole markup) .empty)

/-- Reading markup with the cursor is reading its characters plainly, with neighbouring texts
joined at the end. -/
theorem parse_eq_coalesce_flat (registry : Registry) (markup : String) :
    parse registry markup = Action.coalesce (Plain.flat registry markup.toList) := by
  rw [parse_eq_finish, Action.Builder.finish_foldl_add_empty]

end FormulaKeys.Markup
