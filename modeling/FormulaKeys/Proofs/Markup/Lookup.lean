import FormulaKeys.Proofs.Markup.Refinement
import FormulaKeys.Proofs.Registry

/-! What the scanner looks up, and what it finds.

A construct is looked up by the text that stands at its beginning. Scanning fires the
mappings that were found, in the order in which they were found, and no others.
-/

set_option autoImplicit false

namespace FormulaKeys

namespace Action

def id? : Action → Option String
  | .command id => some id
  | .text _ | .nav _ => none

/-- The ids of the mappings that the actions fire. -/
def ids (actions : List Action) : List String := actions.filterMap id?

namespace Builder

/-- Open text fires nothing, so it makes no difference whether it is closed. -/
def ids (builder : Builder) : List String := Action.ids builder.done.toList

theorem ids_closed (builder : Builder) : Action.ids builder.closed.toList = builder.ids := by
  unfold closed
  split
  · rfl
  · simp [Action.ids, ids, id?]

theorem ids_command (builder : Builder) (id : String) :
    (builder.command id).ids = builder.ids ++ [id] := by
  rw [← ids_closed builder]
  simp [command, ids, Action.ids, id?]

theorem ids_nav (builder : Builder) (key : NavKey) : (builder.nav key).ids = builder.ids := by
  rw [← ids_closed builder]
  simp [nav, ids, Action.ids, id?]

end Builder

end Action

namespace Markup

variable {registry : Registry} {source : String} {pos stop : Nat}

/-- What holds of a range when it holds of the groups of its first construct and of the range behind
that construct holds of all ranges. -/
theorem inductionOnRanges (registry : Registry) (source : String) {motive : Nat → Nat → Prop}
    (none : ∀ pos stop, Construct.read? registry source pos stop = none → motive pos stop)
    (some : ∀ pos stop construct, Construct.read? registry source pos stop = some construct →
      (∀ start close, .group start close ∈ construct.pieces → motive start close) →
      motive construct.next stop → motive pos stop)
    (pos stop : Nat) : motive pos stop :=
  match found : Construct.read? registry source pos stop with
  | .none => none pos stop found
  | .some construct =>
    some pos stop construct found
      (fun start close _mem => inductionOnRanges registry source none some start close)
      (inductionOnRanges registry source none some construct.next stop)
termination_by stop - pos
decreasing_by
  · have := Construct.lt_of_read? found
    have := (Construct.within_of_read? found).groups start close _mem
    omega
  · have := Construct.lt_of_read? found
    have := (Construct.within_of_read? found).lt_next
    omega

namespace Construct

/-- The name of the command whose backslash stands at `slash`. A thin space has none. -/
def name? (source : String) (slash stop : Nat) : Option String :=
  if peek? source (slash + 1) stop = some ',' then none
  else some (slice source (slash + 1) (skipWhile Char.isAlpha source (slash + 1) stop))

/-- The text that the construct at `pos` is looked up by. -/
def lookup? (source : String) (pos stop : Nat) : Option String :=
  match peek? source pos stop with
  | some '\\' => name? source pos stop
  | some '^' => some (String.singleton '^')
  | some '_' => some (String.singleton '_')
  | _ => none

end Construct

/-- What is found between two offsets, if the piece is a group. -/
def Piece.within {Found : Type} (content : Nat → Nat → List Found) : Piece → List Found
  | .group start close => content start close
  | .text _ | .char _ | .command _ | .nav _ | .event _ => []

/-- The texts that scanning looks up, from left to right. -/
def lookups (registry : Registry) (source : String) (pos stop : Nat) : List String :=
  match _found : Construct.read? registry source pos stop with
  | none => []
  | some construct =>
    (Construct.lookup? source pos stop).toList ++
      (construct.pieces.attach.flatMap fun ⟨piece, _mem⟩ =>
        match piece, _mem with
        | .group start close, _mem => lookups registry source start close
        | .text _, _ | .char _, _ | .command _, _ | .nav _, _ | .event _, _ => []) ++
      lookups registry source construct.next stop
termination_by stop - pos
decreasing_by
  · have := Construct.lt_of_read? _found
    have := (Construct.within_of_read? _found).groups start close _mem
    omega
  · have := Construct.lt_of_read? _found
    have := (Construct.within_of_read? _found).lt_next
    omega

theorem lookups_of_read?_none (found : Construct.read? registry source pos stop = none) :
    lookups registry source pos stop = [] := by
  rw [lookups]
  split
  next => rfl
  next other => cases found.symm.trans other

theorem lookups_of_read? {construct : Construct}
    (found : Construct.read? registry source pos stop = some construct) :
    lookups registry source pos stop =
      (Construct.lookup? source pos stop).toList ++
        construct.pieces.flatMap (Piece.within (lookups registry source)) ++
        lookups registry source construct.next stop := by
  rw [lookups]
  split
  next other => cases found.symm.trans other
  next same other =>
    cases found.symm.trans other
    congr 2
    refine (List.flatMap_subtype ?_).trans (by rw [List.unattach_attach])
    rintro (_ | _ | _ | _ | _ | _) _ <;> rfl

/-- The mappings that are bound to what is looked up. -/
def matched (registry : Registry) (source : String) (pos stop : Nat) : List Mapping :=
  (lookups registry source pos stop).filterMap registry.byTrigger?

theorem mem_mappings_of_matched {mapping : Mapping}
    (found : mapping ∈ matched registry source pos stop) : mapping ∈ registry.mappings := by
  obtain ⟨text, _, bound⟩ := List.mem_filterMap.mp found
  exact (Registry.byTrigger?_eq_some_iff.mp bound).1

theorem matched_of_read? {construct : Construct}
    (read : Construct.read? registry source pos stop = some construct) :
    matched registry source pos stop =
      ((Construct.lookup? source pos stop).bind registry.byTrigger?).toList ++
        construct.pieces.flatMap (Piece.within (matched registry source)) ++
        matched registry source construct.next stop := by
  have first : (Construct.lookup? source pos stop).toList.filterMap registry.byTrigger? =
      ((Construct.lookup? source pos stop).bind registry.byTrigger?).toList := by
    cases Construct.lookup? source pos stop with
    | none => rfl
    | some text => cases bound : registry.byTrigger? text <;> simp [bound]
  have inside (piece : Piece) :
      (piece.within (lookups registry source)).filterMap registry.byTrigger? =
        piece.within (matched registry source) := by
    cases piece <;> rfl
  unfold matched
  rw [lookups_of_read? read, List.filterMap_append, List.filterMap_append, first,
    List.filterMap_flatMap]
  simp only [inside]
  rfl

/-- The pieces begin with the command of the mapping, if there is one, and fire nothing else. -/
def Opens (mapping? : Option Mapping) (pieces : List Piece) : Prop :=
  ∃ rest, pieces = (mapping?.map fun mapping => Piece.command mapping.id).toList ++ rest ∧
    ∀ id, Piece.command id ∉ rest

theorem Argument.command_notMem (argument : Argument) (id : String) :
    Piece.command id ∉ argument.pieces := by
  cases argument <;> simp [pieces]

namespace Construct

theorem opens_ofMapping (mapping : Mapping) (name source : String) (pos stop : Nat) :
    Opens (some mapping) (ofMapping mapping name source pos stop).pieces := by
  unfold ofMapping
  split
  next => exact ⟨_, rfl, by simp [Argument.command_notMem]⟩
  next => exact ⟨_, rfl, by simp [Argument.command_notMem]⟩
  all_goals exact ⟨[], rfl, by simp⟩

theorem opens_ofUnbound (name source : String) (slash pos stop : Nat) :
    Opens none (ofUnbound name source slash pos stop).pieces := by
  unfold ofUnbound
  split
  next => exact ⟨_, rfl, Argument.command_notMem _⟩
  all_goals exact ⟨_, rfl, by simp⟩

theorem opens_ofMarker (registry : Registry) (marker : Char) (source : String) (pos stop : Nat) :
    Opens (registry.byTrigger? (String.singleton marker))
      (ofMarker registry marker source pos stop).pieces := by
  unfold ofMarker
  split
  next free =>
    rw [free]
    exact ⟨_, rfl, by simp⟩
  next mapping bound =>
    rw [bound]
    split
    next => exact ⟨_, rfl, by simp [Argument.command_notMem]⟩
    all_goals exact ⟨_, rfl, by simp⟩

theorem opens_ofCommand (registry : Registry) (source : String) (slash stop : Nat) :
    Opens ((name? source slash stop).bind registry.byTrigger?)
      (ofCommand registry source slash stop).pieces := by
  unfold ofCommand name?
  split
  next => exact ⟨_, rfl, by simp⟩
  next =>
    rw [Option.bind_some]
    dsimp only
    split
    next mapping bound =>
      rw [bound]
      exact opens_ofMapping ..
    next free =>
      rw [free]
      exact opens_ofUnbound ..

/-- A construct fires the mapping that its lookup finds, before anything else happens. -/
theorem opens_of_read? {construct : Construct}
    (found : read? registry source pos stop = some construct) :
    Opens ((lookup? source pos stop).bind registry.byTrigger?) construct.pieces := by
  unfold read? at found
  unfold lookup?
  split at found
  next seen =>
    cases found
    simp only [seen]
    exact opens_ofCommand ..
  next seen =>
    cases found
    simp only [seen]
    exact opens_ofMarker ..
  next seen =>
    cases found
    simp only [seen]
    exact opens_ofMarker ..
  next seen =>
    cases found
    simp only [seen]
    exact ⟨_, rfl, by simp⟩
  next notSlash notHat notBar notDollar seen =>
    cases found
    simp only [seen]
    split
    next same => cases same; exact (notSlash rfl).elim
    next same => cases same; exact (notHat rfl).elim
    next same => cases same; exact (notBar rfl).elim
    next => exact ⟨_, rfl, by simp⟩
  next => cases found

end Construct

/-- The ids of the mappings that a piece fires; `content` knows those of what is between two
offsets. -/
def Piece.ids (content : Nat → Nat → List String) : Piece → List String
  | .command id => [id]
  | .group start close => content start close
  | .text _ | .char _ | .nav _ | .event _ => []

theorem Opens.flatMap_ids {mapping? : Option Mapping} {pieces : List Piece}
    (opens : Opens mapping? pieces) (content : Nat → Nat → List Mapping) :
    pieces.flatMap (Piece.ids fun start close => (content start close).map Mapping.id) =
      (mapping?.toList ++ pieces.flatMap (Piece.within content)).map Mapping.id := by
  obtain ⟨rest, rfl, silent⟩ := opens
  have same : ∀ piece ∈ rest,
      Piece.ids (fun start close => (content start close).map Mapping.id) piece =
        (piece.within content).map Mapping.id := by
    intro piece mem
    cases piece with
    | command id => exact (silent id mem).elim
    | text | char | nav | group | event => rfl
  rw [List.map_append, List.map_flatMap]
  cases mapping? <;>
    simp [Piece.ids, Piece.within, List.flatMap_congr same]

theorem Transcript.ids_foldl_piece {scanned : Nat → Nat → Transcript → Transcript}
    {content : Nat → Nat → List String} (pieces : List Piece)
    (groups : ∀ start close, .group start close ∈ pieces → ∀ transcript,
      (scanned start close transcript).actions.ids =
        transcript.actions.ids ++ content start close) (transcript : Transcript) :
    (pieces.foldl (Transcript.piece scanned) transcript).actions.ids =
      transcript.actions.ids ++ pieces.flatMap (Piece.ids content) := by
  induction pieces generalizing transcript with
  | nil => simp
  | cons piece pieces ih =>
    have here : (transcript.piece scanned piece).actions.ids =
        transcript.actions.ids ++ piece.ids content := by
      cases piece with
      | group start close => exact groups start close List.mem_cons_self transcript
      | command id => exact Action.Builder.ids_command ..
      | nav key => exact (Action.Builder.ids_nav ..).trans (List.append_nil _).symm
      | text | char | event => exact (List.append_nil _).symm
    rw [List.foldl_cons, ih fun start close mem => groups start close (List.mem_cons_of_mem _ mem),
      here, List.flatMap_cons, List.append_assoc]

/-- What is found while a range is scanned is fired, and nothing else. -/
theorem ids_scan (registry : Registry) (source : String) (pos stop : Nat) :
    ∀ transcript, (scan registry source pos stop transcript).actions.ids =
      transcript.actions.ids ++ (matched registry source pos stop).map Mapping.id := by
  induction pos, stop using inductionOnRanges registry source with
  | none pos stop ends =>
    intro transcript
    rw [scan_of_read?_none transcript ends, matched, lookups_of_read?_none ends]
    simp
  | some pos stop construct read groups behind =>
    intro transcript
    -- The command of a construct comes in front of its groups, as its lookup does.
    rw [scan_of_read? transcript read, behind, Transcript.ids_foldl_piece _ groups,
      (Construct.opens_of_read? read).flatMap_ids, matched_of_read? read, List.append_assoc,
      ← List.map_append]

/-- Each command of the actions has the id of the mapping that was found for it. -/
theorem ids_parse (registry : Registry) (markup : String) :
    Action.ids (parse registry markup) =
      (matched registry markup 0 markup.utf8ByteSize).map Mapping.id :=
  (Action.Builder.ids_closed _).trans (ids_scan registry markup 0 markup.utf8ByteSize .empty)

/-- The ids come from mappings of the registry, so each of them can be looked up again. -/
theorem isSome_byId?_of_mem_parse {markup id : String}
    (mem : .command id ∈ parse registry markup) : (registry.byId? id).isSome := by
  have fires : id ∈ Action.ids (parse registry markup) :=
    List.mem_filterMap.mpr ⟨.command id, mem, rfl⟩
  rw [ids_parse] at fires
  obtain ⟨mapping, found, rfl⟩ := List.mem_map.mp fires
  rw [Registry.byId?_eq_some_iff.mpr ⟨mem_mappings_of_matched found, rfl⟩]
  rfl

end Markup

end FormulaKeys
