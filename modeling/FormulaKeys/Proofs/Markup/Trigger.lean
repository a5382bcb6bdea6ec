import FormulaKeys.Proofs.Markup.Binding
import FormulaKeys.Proofs.Markup.Group
import FormulaKeys.Proofs.Markup.Lookup
import FormulaKeys.Proofs.Registry.Fault

/-! Triggers and what the scanner looks up.

A registry takes as triggers exactly the texts that some markup is looked up by, apart from the
empty one, which stands behind a lone backslash. So every mapping can fire, and no trigger that is
refused could have fired.
-/

set_option autoImplicit false

namespace FormulaKeys.Markup

variable {registry first second : Registry} {source trigger : String} {pos stop : Nat}
  {c : Char} {chars : List Char} {mapping : Mapping}

/-! The texts that are looked up. -/

theorem Plain.name_empty_or_isTrigger (chars : List Char) :
    name chars = "" ∨ IsTrigger (name chars) := by
  by_cases empty : name chars = ""
  · exact .inl empty
  · exact .inr (.inr (.inr ⟨empty, letters_name chars⟩))

namespace Construct

theorem lookup?_slash (spans : Spans source pos stop ('\\' :: chars)) :
    lookup? source pos stop =
      if chars.head? = some ',' then none else some (Plain.name chars) := by
  have letters : Spans source (pos + 1) stop chars := spans.tail
  have seen := spans.peek?_eq
  have next := letters.peek?_eq
  rw [List.head?_cons] at seen
  rw [lookup?, seen]
  simp only [name?, next, (letters.skip Char.isAlpha).1.slice_eq, Plain.name]

theorem lookup?_marker (isMarker : c = '^' ∨ c = '_') (spans : Spans source pos stop (c :: chars)) :
    lookup? source pos stop = some (String.singleton c) := by
  have seen := spans.peek?_eq
  rw [List.head?_cons] at seen
  rw [lookup?, seen]
  rcases isMarker with rfl | rfl <;> rfl

/-- Whatever the registry holds, a construct is looked up by a text that could be a trigger, or by
the empty one. -/
theorem empty_or_isTrigger_of_lookup? (spans : Spans source pos stop chars)
    (found : lookup? source pos stop = some trigger) : trigger = "" ∨ IsTrigger trigger := by
  cases chars with
  | nil =>
    have seen := spans.peek?_eq
    rw [List.head?_nil] at seen
    rw [lookup?, seen] at found
    cases found
  | cons c chars =>
    by_cases slash : c = '\\'
    · subst slash
      rw [lookup?_slash spans] at found
      split at found
      next => cases found
      next =>
        cases found
        exact Plain.name_empty_or_isTrigger chars
    by_cases isMarker : c = '^' ∨ c = '_'
    · rw [lookup?_marker isMarker spans] at found
      cases found
      rcases isMarker with rfl | rfl
      · exact .inr (.inl rfl)
      · exact .inr (.inr (.inl rfl))
    · have seen := spans.peek?_eq
      rw [List.head?_cons] at seen
      rw [lookup?, seen] at found
      grind

end Construct

/-- The groups of a construct are ranges of their own. -/
theorem Denotes.exists_spans {pieces : List Piece} {parts : List Plain.Part} {start close : Nat}
    (denotes : Denotes source pieces parts) (mem : .group start close ∈ pieces) :
    ∃ content, Spans source start close content := by
  induction denotes with
  | nil => cases mem
  | text _ ih | char _ ih | command _ ih | nav _ ih | absent _ ih =>
    exact ih ((List.mem_cons.mp mem).resolve_left nofun)
  | closed spans _ ih =>
    rcases List.mem_cons.mp mem with same | mem
    · cases same
      exact ⟨_, spans⟩
    · exact ih mem
  | unclosed spans _ ih =>
    rcases List.mem_cons.mp ((List.mem_cons.mp mem).resolve_left nofun) with same | mem
    · cases same
      exact ⟨_, spans⟩
    · exact ih mem
  | unknown _ ih =>
    exact ih ((List.mem_cons.mp ((List.mem_cons.mp mem).resolve_left nofun)).resolve_left nofun)

theorem empty_or_isTrigger_of_mem_lookups (registry : Registry) (source : String) (pos stop : Nat) :
    ∀ chars, Spans source pos stop chars → ∀ trigger ∈ lookups registry source pos stop,
      trigger = "" ∨ IsTrigger trigger := by
  induction pos, stop using inductionOnRanges registry source with
  | none pos stop ends =>
    intro chars spans trigger mem
    rw [lookups_of_read?_none ends] at mem
    cases mem
  | some pos stop construct read groups behind =>
    intro chars spans trigger mem
    cases chars with
    | nil => cases (spans.read?_nil registry).symm.trans read
    | cons c chars =>
      obtain ⟨construct, found, same⟩ := spans.read?_cons registry
      cases read.symm.trans found
      rw [lookups_of_read? read, List.mem_append, List.mem_append, List.mem_flatMap] at mem
      rcases mem with (here | ⟨piece, inside, mem⟩) | mem
      · exact Construct.empty_or_isTrigger_of_lookup? spans (Option.mem_toList.mp here)
      · cases piece with
        | group start close =>
          obtain ⟨content, within⟩ := same.denotes.exists_spans inside
          exact groups start close inside content within trigger mem
        | text | char | command | nav | event => cases mem
      · exact behind _ same.behind trigger mem

theorem mem_lookups_of_lookup? (registry : Registry) (spans : Spans source pos stop (c :: chars))
    (found : Construct.lookup? source pos stop = some trigger) :
    trigger ∈ lookups registry source pos stop := by
  obtain ⟨construct, read, _⟩ := spans.read?_cons registry
  simp [lookups_of_read? read, found]

theorem exists_mem_lookups (registry : Registry) (usable : trigger = "" ∨ IsTrigger trigger) :
    ∃ markup, trigger ∈ lookups registry markup 0 markup.utf8ByteSize := by
  have named (letters : ∀ c ∈ trigger.toList, c.isAlpha = true) :
      trigger ∈ lookups registry ("\\" ++ trigger) 0 ("\\" ++ trigger).utf8ByteSize := by
    have spans := Spans.whole ("\\" ++ trigger)
    rw [String.toList_append] at spans
    have ends : Plain.EndsName [] := nofun
    have noComma : trigger.toList.head? ≠ some ',' := by
      intro comma
      exact absurd (letters ',' (List.mem_of_head? comma)) (by decide)
    apply mem_lookups_of_lookup? registry spans
    rw [Construct.lookup?_slash spans]
    change (if trigger.toList.head? = some ',' then none else some (Plain.name trigger.toList)) = _
    rw [if_neg noComma, ← List.append_nil trigger.toList, Plain.name_letters letters ends]
  rcases usable with rfl | rfl | rfl | ⟨_, letters⟩
  · exact ⟨_, named nofun⟩
  · exact ⟨"^", mem_lookups_of_lookup? registry (Spans.whole "^")
      (Construct.lookup?_marker (.inl rfl) (Spans.whole "^"))⟩
  · exact ⟨"_", mem_lookups_of_lookup? registry (Spans.whole "_")
      (Construct.lookup?_marker (.inr rfl) (Spans.whole "_"))⟩
  · exact ⟨_, named letters⟩

/-! Nothing else is looked up: the reading follows from what these texts are bound to. -/

theorem Construct.read?_congr
    (alike : ∀ trigger, lookup? source pos stop = some trigger →
      second.byTrigger? trigger = first.byTrigger? trigger) :
    read? second source pos stop = read? first source pos stop := by
  unfold lookup? at alike
  unfold read?
  split
  next seen =>
    simp only [seen, name?] at alike
    unfold ofCommand
    split
    next => rfl
    next noComma =>
      rw [if_neg noComma] at alike
      simp only [alike _ rfl]
  next seen =>
    simp only [seen] at alike
    simp only [ofMarker, alike _ rfl]
  next seen =>
    simp only [seen] at alike
    simp only [ofMarker, alike _ rfl]
  next => rfl
  next => rfl
  next => rfl

theorem Construct.lookup?_of_read?_none (ends : read? registry source pos stop = none) :
    lookup? source pos stop = none := by
  unfold read? at ends
  split at ends
  case h_6 seen => rw [lookup?, seen]
  all_goals cases ends

theorem scan_congr (first second : Registry) (source : String) (pos stop : Nat) :
    (∀ trigger ∈ lookups first source pos stop,
      second.byTrigger? trigger = first.byTrigger? trigger) →
    ∀ transcript,
      scan second source pos stop transcript = scan first source pos stop transcript := by
  induction pos, stop using inductionOnRanges first source with
  | none pos stop ends =>
    intro _ transcript
    have endsToo : Construct.read? second source pos stop = none := by
      rw [Construct.read?_congr fun trigger found => ?_, ends]
      cases (Construct.lookup?_of_read?_none ends).symm.trans found
    rw [scan_of_read?_none transcript ends, scan_of_read?_none transcript endsToo]
  | some pos stop construct read groups behind =>
    intro alike transcript
    rw [lookups_of_read? read] at alike
    simp only [List.forall_mem_append, List.forall_mem_flatMap] at alike
    obtain ⟨⟨here, inside⟩, after⟩ := alike
    have readToo : Construct.read? second source pos stop = some construct := by
      rw [Construct.read?_congr fun trigger found => ?_, read]
      exact here trigger (Option.mem_toList.mpr found)
    have pieces : construct.pieces.foldl (Transcript.piece (scan second source)) transcript =
        construct.pieces.foldl (Transcript.piece (scan first source)) transcript := by
      apply List.foldl_ext
      intro transcript piece mem
      cases piece with
      | group start close => exact groups start close mem (inside _ mem) transcript
      | text | char | command | nav | event => rfl
    rw [scan_of_read? transcript read, scan_of_read? transcript readToo, pieces, behind after]

theorem read_congr {first second : Registry} {markup : String}
    (alike : ∀ trigger ∈ lookups first markup 0 markup.utf8ByteSize,
      second.byTrigger? trigger = first.byTrigger? trigger) :
    read second markup = read first markup := by
  unfold read
  rw [scan_congr first second markup 0 markup.utf8ByteSize alike]

/-! Every mapping can fire. -/

theorem parse_marker (isMarker : c = '^' ∨ c = '_')
    (bound : registry.byTrigger? (String.singleton c) = some mapping) :
    parse registry (String.singleton c) = [.command mapping.id, .nav mapping.exit] := by
  rw [parse_eq_finish, Action.Builder.finish_foldl_add_empty, String.toList_singleton,
    Plain.flat_cons, Plain.construct_marker registry isMarker]
  simp only [Plain.marker, bound, Plain.flat_nil, List.flatMap_cons, List.flatMap_nil,
    Plain.Part.actions, List.append_nil, List.singleton_append, Action.coalesce]

theorem parse_name (isName : Command.IsName trigger)
    (bound : registry.byTrigger? trigger = some mapping) :
    parse registry ("\\" ++ trigger) = .command mapping.id ::
      match Command.Class.ofName trigger with
      | .binary => [.nav mapping.advance, .nav mapping.exit]
      | .unary => [.nav mapping.exit]
      | .wrapper | .function | .layout | .symbol _ | .unknown => [] := by
  have ends : Plain.EndsName [] := nofun
  have alone := Plain.construct_bound isName ends bound
  rw [List.append_nil] at alone
  have absent : Plain.takeArgument [] = (.absent, []) := rfl
  rw [parse_eq_finish, Action.Builder.finish_foldl_add_empty, String.toList_append]
  change Action.coalesce (Plain.flat registry ('\\' :: trigger.toList)) = _
  rw [Plain.flat_cons, alone, Plain.bound]
  cases Command.Class.ofName trigger <;>
    simp [absent, Plain.flat_nil, Plain.Part.actions, Plain.Argument.content, Action.coalesce]

/-! What is refused as a trigger. -/

/-- An empty trigger is told before an invalid one, so what is told to be invalid is not empty. -/
theorem not_isTrigger_of_ofList {mappings : List Mapping} {index : Nat}
    (refused : Registry.ofList mappings = .error ⟨index, .invalidTrigger trigger⟩) :
    trigger ≠ "" ∧ ¬IsTrigger trigger := by
  obtain ⟨mapping, _, fault⟩ := (Registry.isFirst_of_ofList refused).first
  cases fault.has with
  | invalidTrigger unusable =>
    refine ⟨fun empty => ?_, unusable⟩
    have least := fault.least _ (.emptyTrigger empty)
    simp [Registry.Fault.rank] at least

theorem exists_ofList_singleton_iff (hasId : mapping.id ≠ "") :
    (∃ accepted, Registry.ofList [mapping] = .ok accepted) ↔ IsTrigger mapping.trigger := by
  constructor
  · rintro ⟨accepted, made⟩
    exact accepted.isTrigger mapping (by simp [Registry.ofList_eq_ok_iff.mp made])
  · intro usable
    obtain ⟨accepted, made, _⟩ := Registry.exists_ofList_singleton hasId usable
    exact ⟨accepted, made⟩

/-- A mapping is accepted only with a trigger that some markup is looked up by, and then it fires
where its trigger stands alone. Apart from the empty text, which no registry binds, nothing else is
looked up, whatever the registry holds. -/
theorem triggers_match_lookups (registry : Registry) :
    (∀ mapping ∈ registry.mappings,
      (mapping.trigger = "^" ∨ mapping.trigger = "_" →
        parse registry mapping.trigger = [.command mapping.id, .nav mapping.exit]) ∧
      (¬(mapping.trigger = "^" ∨ mapping.trigger = "_") →
        parse registry ("\\" ++ mapping.trigger) = .command mapping.id ::
          match Command.Class.ofName mapping.trigger with
          | .binary => [.nav mapping.advance, .nav mapping.exit]
          | .unary => [.nav mapping.exit]
          | .wrapper | .function | .layout | .symbol _ | .unknown => [])) ∧
    (∀ source pos stop chars, Spans source pos stop chars →
      ∀ trigger, Construct.lookup? source pos stop = some trigger →
        trigger = "" ∨ IsTrigger trigger) ∧
    (∀ trigger, (∃ markup, trigger ∈ lookups registry markup 0 markup.utf8ByteSize) ↔
      trigger = "" ∨ IsTrigger trigger) ∧
    (∀ markup other, (∀ trigger ∈ lookups registry markup 0 markup.utf8ByteSize,
        other.byTrigger? trigger = registry.byTrigger? trigger) →
      read other markup = read registry markup) ∧
    (∀ mapping : Mapping, mapping.id ≠ "" →
      ((∃ accepted, Registry.ofList [mapping] = .ok accepted) ↔ IsTrigger mapping.trigger)) ∧
    (∀ mappings index trigger,
      Registry.ofList mappings = .error ⟨index, .invalidTrigger trigger⟩ →
      ∀ markup, trigger ∉ lookups registry markup 0 markup.utf8ByteSize) ∧
    registry.byTrigger? "" = none := by
  have looked (markup : String) := empty_or_isTrigger_of_mem_lookups registry markup 0
    markup.utf8ByteSize markup.toList (Spans.whole markup)
  refine ⟨fun mapping mem => ⟨?marker, ?name⟩,
    fun source pos stop chars spans trigger => Construct.empty_or_isTrigger_of_lookup? spans,
    fun trigger => ⟨fun ⟨markup, mem⟩ => looked markup trigger mem, exists_mem_lookups registry⟩,
    fun markup other => read_congr, fun mapping => exists_ofList_singleton_iff, ?refused,
    Registry.byTrigger?_empty registry⟩
  case marker =>
    have bound := Registry.byTrigger?_eq_some_iff.mpr ⟨mem, rfl⟩
    rintro (same | same) <;> rw [same] at bound ⊢
    · exact parse_marker (.inl rfl) bound
    · exact parse_marker (.inr rfl) bound
  case name =>
    intro noMarker
    exact parse_name (Command.isName_of_isTrigger (registry.isTrigger mapping mem) noMarker)
      (Registry.byTrigger?_eq_some_iff.mpr ⟨mem, rfl⟩)
  case refused =>
    intro mappings index trigger refused markup mem
    obtain ⟨hasTrigger, unusable⟩ := not_isTrigger_of_ofList refused
    exact (looked markup trigger mem).elim hasTrigger unusable

/-- The name of a symbol fires as any other does, and a name with a digit cannot be met. -/
theorem triggers_match_lookups_symbol :
    ∃ (registry : Registry) (mapping : Mapping), mapping ∈ registry.mappings ∧
      mapping.trigger = "pi" ∧
      parse registry ("\\" ++ mapping.trigger) = [.command mapping.id] ∧
      Registry.ofList [{ mapping with trigger := "log2" }] =
        .error ⟨0, .invalidTrigger "log2"⟩ ∧
      ∀ markup, "log2" ∉ lookups registry markup 0 markup.utf8ByteSize := by
  let mapping : Mapping := ⟨"pi", "", "pi", .sequence "/pi ", none, none, none⟩
  have usable : IsTrigger mapping.trigger := by simp [mapping, IsTrigger]
  obtain ⟨registry, _, same⟩ := Registry.exists_ofList_singleton (by simp [mapping]) usable
  have mem : mapping ∈ registry.mappings := by simp [same]
  have refused : Registry.ofList [{ mapping with trigger := "log2" }] =
      .error ⟨0, .invalidTrigger "log2"⟩ :=
    Registry.ofList_singleton_of_not_isTrigger (by simp [mapping]) (by simp) (by simp [IsTrigger])
  have fires := ((triggers_match_lookups registry).1 mapping mem).2 (by decide)
  have takes : Command.Class.ofName mapping.trigger = .symbol 'π' := by decide
  rw [takes] at fires
  exact ⟨registry, mapping, mem, rfl, fires, refused,
    (triggers_match_lookups registry).2.2.2.2.2.1 _ _ _ refused⟩

end FormulaKeys.Markup
