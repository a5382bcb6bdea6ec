import FormulaKeys.Page.Converter
import FormulaKeys.Proofs.Registry.Fault
import Mathlib.Data.List.Forall2

/-! What a page refuses, and where.

The drafts of a page are refused for the first one that cannot be understood, whatever
ids and triggers they have, and the page tells what could not be. The registry is asked
only when all of them are mappings, and then the page refuses what the registry refuses.
-/

set_option autoImplicit false

namespace FormulaKeys

theorem NavKey.ofName?_eq_none_iff {name : String} :
    ofName? name = none ↔ ∀ key : NavKey, key.name ≠ name := by
  rw [ofName?, List.find?_eq_none]
  constructor
  · intro unknown key same
    exact unknown key (mem_all key) (beq_iff_eq.mpr same)
  · intro unknown key _ same
    exact unknown key (beq_iff_eq.mp same)

theorem NavKey.ofName?_eq_some_iff {name : String} {key : NavKey} :
    ofName? name = some key ↔ key.name = name := by
  constructor
  · exact name_of_ofName?
  · rintro rfl
    exact ofName?_name key

namespace Page

/-- What can keep a draft from becoming a mapping. -/
inductive DraftFault.Of (draft : MappingDraft) : DraftFault → Prop where
  | invalidKind (noShortcut : draft.kind ≠ some "shortcut")
      (noSequence : draft.kind ≠ some "sequence") : Of draft .invalidKind
  | missingKey (shortcut : draft.kind = some "shortcut") (missing : draft.key = none) :
      Of draft .missingKey
  | keyLength {key : String} (shortcut : draft.kind = some "shortcut")
      (given : draft.key = some key) (several : key.length ≠ 1) : Of draft .keyLength
  | advanceKey {name : String} (given : draft.advanceKey = some name)
      (unknown : ∀ key : NavKey, key.name ≠ name) : Of draft (.invalidNavKey "advanceKey" name)
  | exitKey {name : String} (given : draft.exitKey = some name)
      (unknown : ∀ key : NavKey, key.name ≠ name) : Of draft (.invalidNavKey "exitKey" name)

/-- The place of a fault in the order in which faults are looked for. -/
def DraftFault.rank : DraftFault → Nat
  | invalidKind => 0
  | missingKey => 1
  | keyLength => 2
  | invalidNavKey property _ => if property = "advanceKey" then 3 else 4

/-- The draft has this fault and none that is looked for before. -/
structure DraftFault.IsFirst (draft : MappingDraft) (fault : DraftFault) : Prop where
  has : fault.Of draft
  least : ∀ other, Of draft other → fault.rank ≤ other.rank

/-- The words for what is wrong with a draft. -/
inductive DraftFault.Words : DraftFault → String → Prop where
  | invalidKind :
      Words .invalidKind "Invalid value for kind, expected \"shortcut\" or \"sequence\""
  | missingKey : Words .missingKey "A shortcut needs a key"
  | keyLength : Words .keyLength "The key must be a single character"
  | advanceKey (name : String) :
      Words (.invalidNavKey "advanceKey" name) ("Invalid value for advanceKey: \"" ++ name ++ "\"")
  | exitKey (name : String) :
      Words (.invalidNavKey "exitKey" name) ("Invalid value for exitKey: \"" ++ name ++ "\"")

/-- The effect that the draft describes. Flags that were left out are not set, and a text that was
left out is empty. -/
inductive MappingDraft.Means (draft : MappingDraft) : Effect → Prop where
  | shortcut {c : Char} (kind : draft.kind = some "shortcut")
      (key : draft.key = some (String.singleton c)) :
      Means draft (.shortcut
        ⟨c, draft.ctrl.getD false, draft.shift.getD false, draft.alt.getD false⟩)
  | sequence (kind : draft.kind = some "sequence") :
      Means draft (.sequence (draft.text.getD ""))

/-- The mapping that a draft describes. Texts that were left out are empty. -/
structure MappingDraft.Converts (draft : MappingDraft) (mapping : Mapping) : Prop where
  id : mapping.id = draft.id.getD ""
  name : mapping.name = draft.name.getD ""
  trigger : mapping.trigger = draft.trigger.getD ""
  effect : draft.Means mapping.effect
  delay : mapping.delay = draft.delay
  advanceKey : mapping.advanceKey.map NavKey.name = draft.advanceKey
  exitKey : mapping.exitKey.map NavKey.name = draft.exitKey

variable {draft : MappingDraft} {mapping : Mapping} {fault : DraftFault} {effect : Effect}

theorem DraftFault.IsFirst.unique {other : DraftFault} (first : IsFirst draft fault)
    (second : IsFirst draft other) : fault = other := by
  have same : fault.rank = other.rank :=
    Nat.le_antisymm (first.least other second.has) (second.least fault first.has)
  cases first.has with
  | invalidKind | missingKey | keyLength =>
    cases second.has <;> first | rfl | cases same
  | advanceKey given =>
    cases second.has with
    | advanceKey otherGiven => cases given.symm.trans otherGiven; rfl
    | invalidKind | missingKey | keyLength | exitKey => cases same
  | exitKey given =>
    cases second.has with
    | exitKey otherGiven => cases given.symm.trans otherGiven; rfl
    | invalidKind | missingKey | keyLength | advanceKey => cases same

theorem DraftFault.Of.words (has : fault.Of draft) : fault.Words fault.message := by
  cases has with
  | invalidKind => exact .invalidKind
  | missingKey => exact .missingKey
  | keyLength => exact .keyLength
  | advanceKey => exact .advanceKey _
  | exitKey => exact .exitKey _

namespace MappingDraft

theorem key?_eq_ok_iff {c : Char} :
    draft.key? = .ok c ↔ draft.key = some (String.singleton c) := by
  unfold key?
  cases draft.key with
  | none => simp
  | some key =>
    dsimp only
    rw [Option.some_inj, ← String.toList_inj, String.toList_singleton]
    rcases key.toList with _ | ⟨d, _ | ⟨e, rest⟩⟩ <;> simp

theorem isFirst_of_key? (kind : draft.kind = some "shortcut")
    (refused : draft.key? = .error fault) : fault.IsFirst draft := by
  have notInvalid {other : DraftFault} (has : other.Of draft) : 1 ≤ other.rank := by
    cases has with
    | invalidKind noShortcut => exact (noShortcut kind).elim
    | missingKey | keyLength | advanceKey | exitKey => simp [DraftFault.rank]
  unfold key? at refused
  split at refused
  next missing =>
    cases refused
    exact ⟨.missingKey kind missing, fun _ => notInvalid⟩
  next key given =>
    split at refused
    next => cases refused
    next several =>
      cases refused
      refine ⟨.keyLength kind given fun single => ?_, fun other has => ?_⟩
      · obtain ⟨c, same⟩ := List.length_eq_one_iff.mp single
        exact several c same
      · cases has with
        | invalidKind noShortcut => exact (noShortcut kind).elim
        | missingKey _ missing => cases given.symm.trans missing
        | keyLength | advanceKey | exitKey => simp [DraftFault.rank]

theorem effect?_eq_ok_iff : draft.effect? = .ok effect ↔ draft.Means effect := by
  constructor
  · intro made
    unfold effect? at made
    split at made
    next kind =>
      split at made
      next key found =>
        cases made
        exact .shortcut kind (key?_eq_ok_iff.mp found)
      next => cases made
    next kind =>
      cases made
      exact .sequence kind
    next => cases made
  · rintro (⟨kind, key⟩ | kind)
    · simp only [effect?, kind, key?_eq_ok_iff.mpr key]
    · simp only [effect?, kind]

theorem isFirst_of_effect? (refused : draft.effect? = .error fault) : fault.IsFirst draft := by
  unfold effect? at refused
  split at refused
  next kind =>
    split at refused
    next => cases refused
    next unread =>
      cases refused
      exact isFirst_of_key? kind unread
  next => cases refused
  next noShortcut noSequence =>
    cases refused
    exact ⟨.invalidKind noShortcut noSequence, fun _ _ => Nat.zero_le _⟩

/-- Where the effect is understood, only the navigation keys can be wrong. -/
theorem Means.rank_ge (means : draft.Means effect) (has : fault.Of draft) : 3 ≤ fault.rank := by
  cases has with
  | invalidKind noShortcut noSequence =>
    cases means with
    | shortcut kind => exact (noShortcut kind).elim
    | sequence kind => exact (noSequence kind).elim
  | missingKey shortcut missing =>
    cases means with
    | shortcut _ given => cases given.symm.trans missing
    | sequence kind => exact absurd (kind.symm.trans shortcut) (by decide)
  | keyLength shortcut given several =>
    cases means with
    | shortcut _ single =>
      cases given.symm.trans single
      exact (several (String.length_singleton ..)).elim
    | sequence kind => exact absurd (kind.symm.trans shortcut) (by decide)
  | advanceKey | exitKey => simp [DraftFault.rank]

theorem navKey?_eq_ok_iff {property : String} {value : Option String} {key? : Option NavKey} :
    navKey? property value = .ok key? ↔ key?.map NavKey.name = value := by
  unfold navKey?
  cases value with
  | none => simp [eq_comm]
  | some name =>
    dsimp only
    rw [Option.map_eq_some_iff]
    split
    next key found =>
      simp only [← NavKey.ofName?_eq_some_iff, found, Option.some_inj, Except.ok.injEq]
      simp [eq_comm]
    next unknown =>
      simp only [← NavKey.ofName?_eq_some_iff, unknown]
      simp

theorem navKey?_eq_error_iff {property : String} {value : Option String} :
    navKey? property value = .error fault ↔
      ∃ name, value = some name ∧ (∀ key : NavKey, key.name ≠ name) ∧
        fault = .invalidNavKey property name := by
  unfold navKey?
  cases value with
  | none => simp
  | some name =>
    simp only [Option.some_inj, ← NavKey.ofName?_eq_none_iff, exists_eq_left']
    split
    next found => simp [found]
    next unknown => simp [unknown, eq_comm]

theorem exists_key {name : String} {key? : Option NavKey}
    (same : key?.map NavKey.name = some name) : ∃ key : NavKey, key.name = name := by
  obtain ⟨key, _, here⟩ := Option.map_eq_some_iff.mp same
  exact ⟨key, here⟩

theorem mapping?_eq_ok_iff : draft.mapping? = .ok mapping ↔ draft.Converts mapping := by
  constructor
  · intro made
    unfold mapping? at made
    cases effect : draft.effect? with
    | error => rw [effect] at made; cases made
    | ok =>
      rw [effect] at made
      cases advance : navKey? "advanceKey" draft.advanceKey with
      | error => rw [advance] at made; cases made
      | ok =>
        rw [advance] at made
        cases exit : navKey? "exitKey" draft.exitKey with
        | error => rw [exit] at made; cases made
        | ok =>
          rw [exit] at made
          cases made
          exact ⟨rfl, rfl, rfl, effect?_eq_ok_iff.mp effect, rfl, navKey?_eq_ok_iff.mp advance,
            navKey?_eq_ok_iff.mp exit⟩
  · intro converts
    rw [mapping?, effect?_eq_ok_iff.mpr converts.effect,
      navKey?_eq_ok_iff.mpr converts.advanceKey, navKey?_eq_ok_iff.mpr converts.exitKey,
      ← converts.id, ← converts.name, ← converts.trigger, ← converts.delay]
    rfl

theorem isFirst_of_mapping? (refused : draft.mapping? = .error fault) : fault.IsFirst draft := by
  -- What is read before the fault has been understood, so no fault of a lower rank is there.
  unfold mapping? at refused
  cases effect : draft.effect? with
  | error =>
    rw [effect] at refused
    cases refused
    exact isFirst_of_effect? effect
  | ok =>
    rw [effect] at refused
    have means := effect?_eq_ok_iff.mp effect
    cases advance : navKey? "advanceKey" draft.advanceKey with
    | error =>
      rw [advance] at refused
      cases refused
      obtain ⟨name, given, unknown, rfl⟩ := navKey?_eq_error_iff.mp advance
      exact ⟨.advanceKey given unknown, fun _ => means.rank_ge⟩
    | ok =>
      rw [advance] at refused
      cases exit : navKey? "exitKey" draft.exitKey with
      | ok => rw [exit] at refused; cases refused
      | error =>
        rw [exit] at refused
        cases refused
        obtain ⟨name, given, unknown, rfl⟩ := navKey?_eq_error_iff.mp exit
        refine ⟨.exitKey given unknown, fun other has => ?_⟩
        have late := means.rank_ge has
        cases has with
        | exitKey => exact Nat.le_refl _
        | advanceKey given unknown =>
          obtain ⟨key, here⟩ := exists_key ((navKey?_eq_ok_iff.mp advance).trans given)
          exact (unknown key here).elim
        | invalidKind | missingKey | keyLength => exact absurd late (by decide)

theorem Converts.not_of (converts : draft.Converts mapping) : ¬fault.Of draft := by
  intro has
  have late := converts.effect.rank_ge has
  cases has with
  | invalidKind | missingKey | keyLength => exact absurd late (by decide)
  | advanceKey given unknown =>
    obtain ⟨key, here⟩ := exists_key (converts.advanceKey.trans given)
    exact unknown key here
  | exitKey given unknown =>
    obtain ⟨key, here⟩ := exists_key (converts.exitKey.trans given)
    exact unknown key here

theorem mapping?_eq_error_iff : draft.mapping? = .error fault ↔ fault.IsFirst draft := by
  refine ⟨isFirst_of_mapping?, fun first => ?_⟩
  cases outcome : draft.mapping? with
  | error other => rw [(isFirst_of_mapping? outcome).unique first]
  | ok mapping => exact ((mapping?_eq_ok_iff.mp outcome).not_of first.has).elim

end MappingDraft

/-! Lists of drafts. -/

/-- The draft at this position of the list cannot become a mapping. -/
def Unfit (drafts : List MappingDraft) (index : Nat) : Prop :=
  ∃ draft fault, drafts[index]? = some draft ∧ DraftFault.Of draft fault

/-- The position of the first draft that cannot become a mapping, and its first fault. -/
structure IsFirstFault (drafts : List MappingDraft) (index : Nat) (fault : DraftFault) :
    Prop where
  first : ∃ draft, drafts[index]? = some draft ∧ fault.IsFirst draft
  least : ∀ other, Unfit drafts other → index ≤ other

variable {drafts : List MappingDraft} {mappings : List Mapping} {index start : Nat}
  {error : Error}

theorem IsFirstFault.unfit (first : IsFirstFault drafts index fault) : Unfit drafts index := by
  obtain ⟨draft, found, isFirst⟩ := first.first
  exact ⟨draft, fault, found, isFirst.has⟩

theorem IsFirstFault.unique {other : Nat} {otherFault : DraftFault}
    (first : IsFirstFault drafts index fault) (second : IsFirstFault drafts other otherFault) :
    index = other ∧ fault = otherFault := by
  obtain rfl : index = other :=
    Nat.le_antisymm (first.least other second.unfit) (second.least index first.unfit)
  obtain ⟨draft, found, isFirst⟩ := first.first
  obtain ⟨otherDraft, otherFound, otherFirst⟩ := second.first
  cases found.symm.trans otherFound
  exact ⟨rfl, isFirst.unique otherFirst⟩

theorem mappings?_eq_ok_iff :
    mappings? start drafts = .ok mappings ↔
      List.Forall₂ MappingDraft.Converts drafts mappings := by
  induction drafts generalizing start mappings with
  | nil => simp [mappings?, eq_comm]
  | cons draft rest ih =>
    constructor
    · intro made
      rw [mappings?] at made
      split at made
      next => cases made
      next mapping first =>
        cases behind : mappings? (start + 1) rest with
        | error => rw [behind] at made; cases made
        | ok others =>
          rw [behind] at made
          cases made
          exact .cons (MappingDraft.mapping?_eq_ok_iff.mp first) (ih.mp behind)
    · rintro (_ | ⟨first, behind⟩)
      rw [mappings?, MappingDraft.mapping?_eq_ok_iff.mpr first]
      dsimp only
      rw [ih.mpr behind]
      rfl

/-- Where all drafts are mappings, none of them has a fault. -/
theorem not_unfit_of_converts (converts : List.Forall₂ MappingDraft.Converts drafts mappings) :
    ∀ index, ¬Unfit drafts index := by
  induction converts with
  | nil =>
    rintro index ⟨draft, fault, found, _⟩
    cases found
  | cons first _ ih =>
    rintro (_ | index) ⟨draft, fault, found, has⟩
    · cases found
      exact first.not_of has
    · exact ih index ⟨draft, fault, found, has⟩

theorem isFirstFault_of_mappings? (refused : mappings? start drafts = .error error) :
    ∃ index fault, error = ⟨start + index, .draft fault⟩ ∧ IsFirstFault drafts index fault := by
  induction drafts generalizing start with
  | nil => cases refused
  | cons draft rest ih =>
    rw [mappings?] at refused
    split at refused
    next fault unread =>
      cases refused
      exact ⟨0, fault, rfl, ⟨draft, rfl, MappingDraft.isFirst_of_mapping? unread⟩,
        fun _ _ => Nat.zero_le _⟩
    next mapping made =>
      have converts := MappingDraft.mapping?_eq_ok_iff.mp made
      cases behind : mappings? (start + 1) rest with
      | ok => rw [behind] at refused; cases refused
      | error other =>
        rw [behind] at refused
        cases refused
        obtain ⟨index, fault, rfl, first⟩ := ih behind
        refine ⟨index + 1, fault, by rw [Nat.add_right_comm, Nat.add_assoc], first.first, ?_⟩
        rintro (_ | other) ⟨unfit, otherFault, found, has⟩
        · cases found
          exact (converts.not_of has).elim
        · exact Nat.succ_le_succ (first.least other ⟨unfit, otherFault, found, has⟩)

theorem mappings?_eq_error_iff :
    mappings? 0 drafts = .error error ↔
      ∃ index fault, error = ⟨index, .draft fault⟩ ∧ IsFirstFault drafts index fault := by
  constructor
  · intro refused
    obtain ⟨index, fault, same, first⟩ := isFirstFault_of_mappings? refused
    rw [Nat.zero_add] at same
    exact ⟨index, fault, same, first⟩
  · rintro ⟨index, fault, rfl, first⟩
    cases outcome : mappings? 0 drafts with
    | ok mappings =>
      exact (not_unfit_of_converts (mappings?_eq_ok_iff.mp outcome) index first.unfit).elim
    | error other =>
      obtain ⟨otherIndex, otherFault, rfl, otherFirst⟩ := isFirstFault_of_mappings? outcome
      obtain ⟨rfl, rfl⟩ := first.unique otherFirst
      rw [Nat.zero_add]

/-! Pages. -/

variable {options : Option OptionsDraft}

theorem converter?_of_error (refused : mappings? 0 drafts = .error error) :
    converter? (some drafts) options = .error error := by
  simp only [converter?, config?, refused]
  rfl

theorem converter?_of_ok (made : mappings? 0 drafts = .ok mappings) :
    converter? (some drafts) options =
      match Registry.ofList mappings with
      | .ok registry => .ok ⟨registry, (options.getD {}).options⟩
      | .error refused => .error ⟨refused.index, .registry refused.fault⟩ := by
  have config : config? (some drafts) options = .ok ⟨mappings, (options.getD {}).options⟩ := by
    simp only [config?, made]
    rfl
  rw [converter?, config]
  dsimp only [Converter.ofConfig]
  cases Registry.ofList mappings <;> rfl

theorem Unfit.lt_length (unfit : Unfit drafts index) : index < drafts.length := by
  obtain ⟨draft, _, found, _⟩ := unfit
  exact (List.getElem?_eq_some_iff.mp found).1

theorem exists_of_unfit (unfit : Unfit drafts index) :
    ∃ first fault, mappings? 0 drafts = .error ⟨first, .draft fault⟩ ∧
      IsFirstFault drafts first fault := by
  cases outcome : mappings? 0 drafts with
  | ok mappings =>
    exact (not_unfit_of_converts (mappings?_eq_ok_iff.mp outcome) index unfit).elim
  | error error =>
    obtain ⟨first, fault, rfl, isFirst⟩ := mappings?_eq_error_iff.mp outcome
    exact ⟨first, fault, rfl, isFirst⟩

theorem exists_converts_iff :
    (∃ mappings, List.Forall₂ MappingDraft.Converts drafts mappings) ↔
      ∀ index, ¬Unfit drafts index := by
  refine ⟨fun ⟨mappings, converts⟩ => not_unfit_of_converts converts, fun fit => ?_⟩
  cases outcome : mappings? 0 drafts with
  | ok mappings => exact ⟨mappings, mappings?_eq_ok_iff.mp outcome⟩
  | error error =>
    obtain ⟨index, fault, _, first⟩ := mappings?_eq_error_iff.mp outcome
    exact (fit index first.unfit).elim

/-- The first draft that cannot become a mapping is refused with the first of its faults, whatever
ids and triggers there are, and the message says which fault it is. If there is no such draft, the
page refuses what the registry refuses, in the same place and in the same words, of which only the
place is left out. No place is outside the list. -/
theorem converter?_refuses (drafts : List MappingDraft) (options : Option OptionsDraft) :
    (∀ index, Unfit drafts index → ∃ fault error,
      converter? (some drafts) options = .error error ∧ error.fault = .draft fault ∧
        IsFirstFault drafts error.index fault ∧ fault.Words error.message) ∧
    ((∃ mappings, List.Forall₂ MappingDraft.Converts drafts mappings) ↔
      ∀ index, ¬Unfit drafts index) ∧
    (∀ mappings, List.Forall₂ MappingDraft.Converts drafts mappings →
      (∀ error, converter? (some drafts) options = .error error ↔
        ∃ refused, Registry.ofList mappings = .error refused ∧ error.index = refused.index ∧
          error.fault = .registry refused.fault ∧ refused.fault.Words error.message ∧
          refused.message = "mapping #" ++ toString error.index ++ ": " ++ error.message) ∧
      ∀ converter, converter? (some drafts) options = .ok converter ↔
        ∃ registry, Registry.ofList mappings = .ok registry ∧
          converter = ⟨registry, (options.getD {}).options⟩) ∧
    ∀ error, converter? (some drafts) options = .error error → error.index < drafts.length := by
  refine ⟨?unfit, exists_converts_iff, ?fit, ?inside⟩
  case unfit =>
    intro index unfit
    obtain ⟨first, fault, refused, isFirst⟩ := exists_of_unfit unfit
    obtain ⟨draft, _, ofDraft⟩ := isFirst.first
    exact ⟨fault, ⟨first, .draft fault⟩, converter?_of_error refused, rfl, isFirst,
      ofDraft.has.words⟩
  case fit =>
    intro mappings converts
    rw [converter?_of_ok (mappings?_eq_ok_iff.mpr converts)]
    cases Registry.ofList mappings with
    | ok registry => simp [eq_comm]
    | error refused =>
      refine ⟨fun error => ⟨fun same => ?_, ?_⟩, fun converter => by simp⟩
      · cases same
        exact ⟨refused, rfl, rfl, rfl, refused.fault.words, rfl⟩
      · rintro ⟨_, same, index, fault, _⟩
        cases same
        cases error
        cases index
        cases fault
        rfl
  case inside =>
    intro error refused
    cases outcome : mappings? 0 drafts with
    | error other =>
      cases (converter?_of_error outcome).symm.trans refused
      obtain ⟨index, fault, rfl, first⟩ := mappings?_eq_error_iff.mp outcome
      exact first.unfit.lt_length
    | ok mappings =>
      rw [converter?_of_ok outcome] at refused
      have length := (mappings?_eq_ok_iff.mp outcome).length_eq
      cases asked : Registry.ofList mappings with
      | ok registry =>
        rw [asked] at refused
        cases refused
      | error other =>
        rw [asked] at refused
        cases refused
        rw [length]
        exact (Registry.isFirst_of_ofList asked).lt_length

/-- In front of the draft that is refused the id is missing, and the trigger cannot occur. -/
def unreadableDrafts : List MappingDraft :=
  [{ trigger := some "2nd", kind := some "sequence" },
    { id := some "root", trigger := some "sqrt", kind := some "shortcut", key := some "F2",
      exitKey := some "Home" }]

theorem converter?_refuses_unreadable :
    Unfit unreadableDrafts 1 ∧ ∃ fault error,
      converter? (some unreadableDrafts) none = .error error ∧ error.fault = .draft fault ∧
        IsFirstFault unreadableDrafts error.index fault ∧ fault.Words error.message := by
  have unfit : Unfit unreadableDrafts 1 :=
    ⟨_, .keyLength, rfl, .keyLength rfl rfl (by decide)⟩
  exact ⟨unfit, (converter?_refuses unreadableDrafts none).1 1 unfit⟩

example : converter? (some unreadableDrafts) none = .error ⟨1, .draft .keyLength⟩ := by rfl

end Page

end FormulaKeys
