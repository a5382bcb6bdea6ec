import FormulaKeys.Proofs.Markup.Trace

/-! Where constructs begin.

Constructs begin at ascending offsets, also where one lies in a group of another. What
scanning leaves behind can be looked up at these offsets, if every construct leaves
behind what its beginning shows.
-/

set_option autoImplicit false

namespace FormulaKeys.Markup

open String (utf8Len)

variable {registry : Registry} {source : String} {low mid high pos stop : Nat}
  {chars : List Char}

/-- The offsets at which constructs begin. A construct comes in front of those in its groups. -/
def starts (registry : Registry) (source : String) (pos stop : Nat) : List Nat :=
  match _found : Construct.read? registry source pos stop with
  | none => []
  | some construct =>
    pos :: (construct.pieces.attach.flatMap fun ⟨piece, _mem⟩ =>
      match piece, _mem with
      | .group start close, _mem => starts registry source start close
      | .text _, _ | .char _, _ | .command _, _ | .nav _, _ | .event _, _ => []) ++
    starts registry source construct.next stop
termination_by stop - pos
decreasing_by
  · have := Construct.lt_of_read? _found
    have := (Construct.within_of_read? _found).groups start close _mem
    omega
  · have := Construct.lt_of_read? _found
    have := (Construct.within_of_read? _found).lt_next
    omega

theorem starts_of_read?_none (found : Construct.read? registry source pos stop = none) :
    starts registry source pos stop = [] := by
  rw [starts]
  split
  next => rfl
  next other => cases found.symm.trans other

theorem starts_of_read? {construct : Construct}
    (found : Construct.read? registry source pos stop = some construct) :
    starts registry source pos stop =
      pos :: construct.pieces.flatMap (Piece.within (starts registry source)) ++
        starts registry source construct.next stop := by
  rw [starts]
  split
  next other => cases found.symm.trans other
  next same other =>
    cases found.symm.trans other
    congr 2
    refine (List.flatMap_subtype ?_).trans (by rw [List.unattach_attach])
    rintro (_ | _ | _ | _ | _ | _) _ <;> rfl

/-! The order of the offsets. -/

/-- The offsets ascend, from `low` to below `high`. -/
inductive Ascends : Nat → List Nat → Nat → Prop where
  | done {low high : Nat} (le : low ≤ high) : Ascends low [] high
  | next {low pos high : Nat} {offsets : List Nat} (le : low ≤ pos)
      (behind : Ascends (pos + 1) offsets high) : Ascends low (pos :: offsets) high

namespace Ascends

variable {offsets more : List Nat}

theorem widen (le : low ≤ mid) (ascends : Ascends mid offsets high) :
    Ascends low offsets high := by
  cases ascends with
  | done further => exact .done (Nat.le_trans le further)
  | next further behind => exact .next (Nat.le_trans le further) behind

theorem narrow (ascends : Ascends low offsets high) (le : mid ≤ high)
    (behind : ∀ pos ∈ offsets, mid ≤ pos) : Ascends mid offsets high := by
  cases ascends with
  | done => exact .done le
  | next _ further => exact .next (behind _ List.mem_cons_self) further

theorem append (ascends : Ascends low offsets mid) (behind : Ascends mid more high) :
    Ascends low (offsets ++ more) high := by
  induction ascends with
  | done le => exact behind.widen le
  | next le _ ih => exact .next le (ih behind)

theorem le_of_mem (ascends : Ascends low offsets high) (mem : pos ∈ offsets) : low ≤ pos := by
  induction ascends with
  | done => cases mem
  | next le _ ih =>
    rcases List.mem_cons.mp mem with rfl | mem
    · exact le
    · exact Nat.le_of_succ_le (Nat.le_trans (Nat.succ_le_succ le) (ih mem))

theorem pairwise (ascends : Ascends low offsets high) : offsets.Pairwise (· < ·) := by
  induction ascends with
  | done => exact .nil
  | next _ behind ih => exact .cons (fun _ => behind.le_of_mem) ih

end Ascends

section
variable {pieces : List Piece} {content : Nat → Nat → List Nat}

theorem Finds.ascends {argument : Argument} (finds : Finds source pos stop argument)
    (groups : ∀ start close, .group start close ∈ argument.pieces →
      Ascends start (content start close) close) :
    Ascends pos (argument.pieces.flatMap (Piece.within content)) argument.next := by
  cases finds with
  | absent le => exact .done le
  | @closed start close _ lt =>
    have within := groups start close List.mem_cons_self
    exact (within.append (.done (Nat.le_succ close))).widen (Nat.le_of_lt lt)
  | @unclosed start _ lt =>
    have within := groups start stop (by simp [Argument.pieces])
    exact (within.append (.done (Nat.le_refl stop))).widen (Nat.le_of_lt lt)

/-- The groups of a construct lie one behind the other. -/
theorem Along.ascends (along : Along source stop low pieces high)
    (groups : ∀ start close, .group start close ∈ pieces →
      Ascends start (content start close) close) :
    Ascends low (pieces.flatMap (Piece.within content)) high := by
  induction along with
  | done le => exact .done le
  | @silent _ _ piece _ silent _ ih =>
    have none : piece.within content = [] := by
      cases piece with
      | group => cases silent
      | text | char | command | nav | event => rfl
    rw [List.flatMap_cons, none]
    exact ih fun start close mem => groups start close (List.mem_cons_of_mem _ mem)
  | argument le enclosed _ ih =>
    rw [List.flatMap_append]
    refine ((enclosed.finds.ascends fun start close mem => ?_).widen le).append
      (ih fun start close mem => ?_)
    · exact groups start close (List.mem_append_left _ mem)
    · exact groups start close (List.mem_append_right _ mem)

theorem Finds.exists_enclosed {argument : Argument} {start close : Nat}
    (finds : Finds source pos stop argument) (mem : .group start close ∈ argument.pieces) :
    ∃ chars, Enclosed source start close chars := by
  cases finds with
  | absent => simp [Argument.pieces] at mem
  | closed _ inside | unclosed _ _ inside =>
    simp only [Argument.pieces, List.mem_cons, List.not_mem_nil, or_false, reduceCtorEq, false_or,
      Piece.group.injEq] at mem
    obtain ⟨rfl, rfl⟩ := mem
    exact ⟨_, inside⟩

/-- Groups are enclosed by their braces, or they reach to the end of the markup. -/
theorem Along.exists_enclosed {start close : Nat} (along : Along source stop low pieces high)
    (mem : .group start close ∈ pieces) : ∃ chars, Enclosed source start close chars := by
  induction along with
  | done => cases mem
  | silent silent _ ih =>
    rcases List.mem_cons.mp mem with rfl | mem
    · cases silent
    · exact ih mem
  | argument _ enclosed _ ih =>
    rcases List.mem_append.mp mem with mem | mem
    · exact enclosed.finds.exists_enclosed mem
    · exact ih mem

end

theorem ascends_starts (registry : Registry) (source : String) (pos stop : Nat) :
    ∀ chars, Enclosed source pos stop chars →
      Ascends pos (starts registry source pos stop) stop := by
  induction pos, stop using inductionOnRanges registry source with
  | none pos stop ends =>
    intro chars enclosed
    rw [starts_of_read?_none ends]
    exact .done enclosed.spans.start_le
  | some pos stop construct found groups behind =>
    intro chars enclosed
    obtain ⟨rest, enclosedRest⟩ := enclosed.behindConstruct found
    have along := enclosed.along_read? found
    have within := Construct.within_of_read? found
    have each (start close : Nat) (mem : .group start close ∈ construct.pieces) :
        Ascends start (starts registry source start close) close := by
      obtain ⟨content, inside⟩ := along.exists_enclosed mem
      exact groups start close mem content inside
    -- The first byte of the construct is its own, so its groups begin behind it.
    have inside := (along.ascends each).narrow within.lt_next fun other mem => by
      obtain ⟨piece, here, mem⟩ := List.mem_flatMap.mp mem
      cases piece with
      | group start close =>
        have inner := (each start close here).le_of_mem mem
        exact Nat.le_trans (within.groups start close here).1 inner
      | text | char | command | nav | event => cases mem
    rw [starts_of_read? found, List.cons_append]
    exact .next (Nat.le_refl pos) (inside.append (behind rest enclosedRest))

theorem pairwise_starts (registry : Registry) (markup : String) :
    (starts registry markup 0 markup.utf8ByteSize).Pairwise (· < ·) :=
  (ascends_starts registry markup 0 markup.utf8ByteSize _ (Enclosed.whole markup)).pairwise

/-! What is left behind. -/

section
variable {Found : Type}

/-- Something is collected in the transcript, to which a piece adds what is its own. Of an argument
nothing is its own, and a character is a text. -/
structure Collects (collected : Transcript → List Found) (own : Piece → List Found) : Prop where
  char (c : Char) : own (.char c) = own (.text (String.singleton c))
  command (id : String) : own (.command id) = []
  nav (key : NavKey) : own (.nav key) = []
  absent (pos : Nat) : own (.event (.argumentAbsent pos)) = []
  unclosed (start : Nat) : own (.event (.groupUnclosed start)) = []
  group (start close : Nat) : own (.group start close) = []
  piece (content : Nat → Nat → Transcript → Transcript) (transcript : Transcript) (piece : Piece)
    (noGroup : ∀ start close, piece ≠ .group start close) :
    collected (transcript.piece content piece) = collected transcript ++ own piece

variable {collected : Transcript → List Found} {own : Piece → List Found}

theorem Collects.foldl_piece (collects : Collects collected own)
    {scanned : Nat → Nat → Transcript → Transcript} {content : Nat → Nat → List Found}
    (pieces : List Piece)
    (groups : ∀ start close, .group start close ∈ pieces → ∀ transcript,
      collected (scanned start close transcript) = collected transcript ++ content start close)
    (transcript : Transcript) :
    collected (pieces.foldl (Transcript.piece scanned) transcript) =
      collected transcript ++ pieces.flatMap fun piece => own piece ++ piece.within content := by
  induction pieces generalizing transcript with
  | nil => exact (List.append_nil _).symm
  | cons piece pieces ih =>
    have here : collected (transcript.piece scanned piece) =
        collected transcript ++ (own piece ++ piece.within content) := by
      cases piece with
      | group start close =>
        rw [collects.group]
        exact groups start close List.mem_cons_self transcript
      | text | char | command | nav | event =>
        rw [Piece.within, List.append_nil]
        exact collects.piece scanned transcript _ fun _ _ same => by cases same
    rw [List.foldl_cons, ih fun start close mem => groups start close (List.mem_cons_of_mem _ mem),
      here, List.flatMap_cons, List.append_assoc]

/-- What scanning leaves behind, if a construct shows at its beginning what it adds. -/
theorem Collects.scan_eq (collects : Collects collected own) {shown : Nat → List Found}
    (shows : ∀ {pos stop : Nat} {chars : List Char} {construct : Construct},
      Enclosed source pos stop chars →
      Construct.read? registry source pos stop = some construct →
      ∀ content : Nat → Nat → List Found,
        (construct.pieces.flatMap fun piece => own piece ++ piece.within content) =
          shown pos ++ construct.pieces.flatMap (Piece.within content))
    (pos stop : Nat) :
    ∀ chars, Enclosed source pos stop chars → ∀ transcript,
      collected (scan registry source pos stop transcript) =
        collected transcript ++ (starts registry source pos stop).flatMap shown := by
  induction pos, stop using inductionOnRanges registry source with
  | none pos stop ends =>
    intro chars enclosed transcript
    rw [scan_of_read?_none transcript ends, starts_of_read?_none ends]
    exact (List.append_nil _).symm
  | some pos stop construct found groups behind =>
    intro chars enclosed transcript
    obtain ⟨rest, enclosedRest⟩ := enclosed.behindConstruct found
    have along := enclosed.along_read? found
    have inside (content : Nat → Nat → List Nat) (piece : Piece) :
        (piece.within content).flatMap shown =
          piece.within fun start close => (content start close).flatMap shown := by
      cases piece <;> rfl
    rw [scan_of_read? transcript found, behind rest enclosedRest,
      collects.foldl_piece construct.pieces fun start close mem transcript => by
        obtain ⟨content, enclosedGroup⟩ := along.exists_enclosed mem
        exact groups start close mem content enclosedGroup transcript,
      shows enclosed found, starts_of_read? found, List.cons_append, List.flatMap_cons,
      List.flatMap_append, List.flatMap_assoc]
    simp only [inside, List.append_assoc]

end

end FormulaKeys.Markup
