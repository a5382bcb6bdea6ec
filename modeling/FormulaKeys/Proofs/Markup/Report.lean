import FormulaKeys.Proofs.Markup.Refinement

/-! What is reported while markup is read.

Where something is reported depends on where the markup stands; what is reported does
not, so the plain reading knows it.
-/

set_option autoImplicit false

namespace FormulaKeys.Markup

/-- What an event says about the markup, wherever it is. -/
inductive Report where
  /-- A backslash is typed out; `name` holds the letters behind it. -/
  | unknown (name : String)
  | absent
  | unclosed
  deriving DecidableEq, Repr

def Report.ofEvent? : Event → Option Report
  | .unknownCommand name => some (.unknown name)
  | .argumentAbsent _ => some .absent
  | .groupUnclosed _ => some .unclosed
  | .parsed _ _ | .generating _ _ | .generated _ _ _ => none

/-- What has been reported so far. -/
def Transcript.reports (transcript : Transcript) : List Report :=
  transcript.events.toList.filterMap Report.ofEvent?

def Reading.reports (reading : Reading) : List Report :=
  reading.events.filterMap Report.ofEvent?

namespace Plain

/-- The reports of an argument, given those of its content. -/
def Argument.reports (content : List Char → List Report) : Argument → List Report
  | absent => [.absent]
  | closed inside => content inside
  | unclosed inside => .unclosed :: content inside

def Part.reports (content : List Char → List Report) : Part → List Report
  | argument group => group.reports content
  | unknown name => [.unknown name]
  | text _ | command _ | nav _ => []

/-- What is reported while the list is read, from first to last. -/
def reports (registry : Registry) : List Char → List Report
  | [] => []
  | c :: chars =>
    ((construct registry c chars).1.attach.flatMap fun ⟨part, _mem⟩ =>
      match part, _mem with
      | .argument .absent, _ => [.absent]
      | .argument (.closed inside), _mem => reports registry inside
      | .argument (.unclosed inside), _mem => .unclosed :: reports registry inside
      | .unknown name, _ => [.unknown name]
      | .text _, _ | .command _, _ | .nav _, _ => []) ++
    reports registry (construct registry c chars).2
termination_by chars => chars.length
decreasing_by
  · exact (construct_reads registry c chars).length_lt.2 (.argument (.closed inside)) _mem
  · exact (construct_reads registry c chars).length_lt.2 (.argument (.unclosed inside)) _mem
  · exact (construct_reads registry c chars).length_lt.1

theorem reports_nil (registry : Registry) : reports registry [] = [] := by
  rw [reports]

theorem reports_cons (registry : Registry) (c : Char) (chars : List Char) :
    reports registry (c :: chars) =
      (construct registry c chars).1.flatMap (Part.reports (reports registry)) ++
        reports registry (construct registry c chars).2 := by
  rw [reports]
  congr 1
  refine (List.flatMap_subtype ?_).trans (by rw [List.unattach_attach])
  rintro (_ | _ | _ | (_ | _ | _) | _) _ <;> rfl

end Plain

variable {source : String} {pos stop : Nat} {chars : List Char}

/-- A construct reports what its parts do, as soon as its groups do. -/
theorem Denotes.reports_foldl {pieces : List Piece} {parts : List Plain.Part}
    (denotes : Denotes source pieces parts) {content : Nat → Nat → Transcript → Transcript}
    {plain : List Char → List Report}
    (groups : ∀ argument, .argument argument ∈ parts → ∀ start close,
      Spans source start close argument.content → ∀ transcript,
        (content start close transcript).reports = transcript.reports ++ plain argument.content)
    (transcript : Transcript) :
    (pieces.foldl (Transcript.piece content) transcript).reports =
      transcript.reports ++ parts.flatMap (Plain.Part.reports plain) := by
  have event (transcript : Transcript) (event : Event) :
      (transcript.event event).reports = transcript.reports ++ (Report.ofEvent? event).toList := by
    cases h : Report.ofEvent? event <;> simp [Transcript.reports, Transcript.event, h]
  -- A group without an end is reported before anything in it is.
  induction denotes generalizing transcript with
  | nil => simp
  | text tail ih | char tail ih | command tail ih | nav tail ih =>
    rw [List.foldl_cons, ih fun argument mem => groups argument (List.mem_cons_of_mem _ mem)]
    rfl
  | absent tail ih =>
    rw [List.foldl_cons, ih fun argument mem => groups argument (List.mem_cons_of_mem _ mem),
      Transcript.piece, event, List.append_assoc]
    rfl
  | unknown tail ih =>
    rw [List.foldl_cons, List.foldl_cons,
      ih fun argument mem => groups argument (List.mem_cons_of_mem _ mem)]
    change (transcript.event _).reports ++ _ = _
    rw [event, List.append_assoc]
    rfl
  | closed spans tail ih =>
    rw [List.foldl_cons, ih fun argument mem => groups argument (List.mem_cons_of_mem _ mem),
      Transcript.piece, groups _ List.mem_cons_self _ _ spans, List.append_assoc]
    rfl
  | unclosed spans tail ih =>
    rw [List.foldl_cons, List.foldl_cons,
      ih fun argument mem => groups argument (List.mem_cons_of_mem _ mem), Transcript.piece,
      Transcript.piece, groups _ List.mem_cons_self _ _ spans, event, List.append_assoc,
      List.append_assoc]
    rfl

/-- Scanning a range reports what the plain reading of its characters does. -/
theorem reports_scan (registry : Registry) (source : String) (chars : List Char) :
    ∀ {pos stop : Nat}, Spans source pos stop chars → ∀ transcript,
      (scan registry source pos stop transcript).reports =
        transcript.reports ++ Plain.reports registry chars := by
  induction chars using Plain.inductionOnConstructs registry with
  | nil =>
    intro pos stop spans transcript
    rw [scan_of_read?_none transcript (spans.read?_nil registry), Plain.reports_nil,
      List.append_nil]
  | cons c chars groups behind =>
    intro pos stop spans transcript
    obtain ⟨construct, found, same⟩ := spans.read?_cons registry
    rw [scan_of_read? transcript found, behind same.behind, Plain.reports_cons,
      ← List.append_assoc]
    congr 1
    apply same.denotes.reports_foldl
    intro argument mem start close inside
    exact groups argument mem inside

theorem reports_read (registry : Registry) (markup : String) :
    (read registry markup).reports = Plain.reports registry markup.toList := by
  have scanned := reports_scan registry markup markup.toList (Spans.whole markup) .empty
  rw [Reading.reports, read, List.filterMap_append]
  exact (List.append_nil _).trans scanned

end FormulaKeys.Markup
