import FormulaKeys.Proofs.Markup.Refinement
import Mathlib.Data.List.SplitBy

/-! What a builder makes of the calls that it gets.

The actions of the calls fall into runs: neighbouring texts belong together, any other
action stands alone. A builder makes one text of a run of texts, or nothing if there is
nothing in them, and leaves everything else as it is.
-/

set_option autoImplicit false

namespace FormulaKeys.Action

def isText : Action → Bool
  | text _ => true
  | command _ | nav _ => false

/-! Runs of texts. -/

/-- The actions, cut between any two that are not both texts. -/
def runs (actions : List Action) : List (List Action) :=
  actions.splitBy fun first second => first.isText && second.isText

/-- One text with this content, unless there is none. -/
def textOf (content : List Char) : List Action :=
  if content = [] then [] else [.text (String.ofList content)]

/-- A run of texts as one text; any other run as it is. -/
def joined (run : List Action) : List Action :=
  if run.all isText then textOf (typed run) else run

/-- What stands between two cuts. -/
inductive IsRun : List Action → Prop where
  | texts {run : List Action} (notEmpty : run ≠ []) (all : run.all isText = true) : IsRun run
  | single {action : Action} (other : action.isText = false) : IsRun [action]

theorem IsRun.ne_nil {run : List Action} (isRun : IsRun run) : run ≠ [] := by
  cases isRun with
  | texts notEmpty => exact notEmpty
  | single => exact List.cons_ne_nil _ _

theorem isRun_of_isChain {run : List Action} (notEmpty : run ≠ [])
    (chain : run.IsChain fun first second => (first.isText && second.isText) = true) :
    IsRun run := by
  induction run with
  | nil => exact (notEmpty rfl).elim
  | cons action rest ih =>
    cases rest with
    | nil =>
      cases kind : action.isText with
      | true => exact .texts notEmpty (by simp [kind])
      | false => exact .single kind
    | cons next rest =>
      rw [List.isChain_cons_cons, Bool.and_eq_true] at chain
      obtain ⟨⟨here, there⟩, behind⟩ := chain
      cases ih (List.cons_ne_nil _ _) behind with
      | texts _ all => exact .texts notEmpty (by rw [List.all_cons, here, all]; rfl)
      | single other => cases there.symm.trans other

theorem isRun_of_mem_runs {actions run : List Action} (mem : run ∈ runs actions) : IsRun run :=
  isRun_of_isChain (List.ne_nil_of_mem_splitBy mem) (List.isChain_of_mem_splitBy mem)

/-- Behind a run of texts there is no text. -/
def Apart (run next : List Action) : Prop :=
  run.all isText = true → ∀ action ∈ next.head?, action.isText = false

theorem isChain_runs (actions : List Action) : (runs actions).IsChain Apart := by
  refine (List.isChain_getLast_head_splitBy _ actions).imp fun run next meet texts action here => ?_
  obtain ⟨_, _, apart⟩ := meet
  have last := List.all_eq_true.mp texts _ (List.getLast_mem ‹run ≠ []›)
  rw [last, Bool.true_and] at apart
  rwa [← List.head_of_mem_head? here]

/-- Texts in a row come to one text, whatever stands behind them. -/
theorem coalesce_texts_append {run : List Action} (texts : run.all isText = true)
    (rest : List Action) :
    coalesce (run ++ rest) = coalesce (.text (String.ofList (typed run)) :: rest) := by
  induction run with
  | nil => exact (coalesce_text_empty rest).symm
  | cons action run ih =>
    rw [List.all_cons, Bool.and_eq_true] at texts
    cases action with
    | text content =>
      rw [List.cons_append, coalesce_text_congr _ (ih texts.2), coalesce_text_text, typed_cons,
        String.ofList_append, chars, String.ofList_toList]
    | command | nav => cases texts.1

/-- A text is not joined to an action of another kind. -/
theorem coalesce_text_of_head? {content : List Char} {rest : List Action}
    (apart : ∀ action ∈ rest.head?, action.isText = false) :
    coalesce (.text (String.ofList content) :: rest) = textOf content ++ coalesce rest := by
  cases rest with
  | nil => simp [coalesce, textOf]
  | cons action rest =>
    cases action with
    | text => cases apart _ rfl
    | command id =>
      rw [coalesce_text_command, textOf, coalesce]
      simp only [String.ofList_eq_empty_iff]
    | nav key =>
      rw [coalesce_text_nav, textOf, coalesce]
      simp only [String.ofList_eq_empty_iff]

theorem coalesce_flatten {runs : List (List Action)} (each : ∀ run ∈ runs, IsRun run)
    (apart : runs.IsChain Apart) : coalesce runs.flatten = runs.flatMap joined := by
  induction runs with
  | nil => rfl
  | cons run rest ih =>
    rw [List.forall_mem_cons] at each
    rw [List.isChain_cons] at apart
    rw [List.flatten_cons, List.flatMap_cons, ← ih each.2 apart.2]
    cases each.1 with
    | @single action other =>
      rw [joined, if_neg (by simp [other])]
      cases action with
      | text => cases other
      | command | nav => rfl
    | texts _ texts =>
      rw [joined, if_pos texts, coalesce_texts_append texts, coalesce_text_of_head?]
      cases rest with
      | nil => nofun
      | cons next rest =>
        have filled := (each.2 next List.mem_cons_self).ne_nil
        rw [List.flatten_cons, List.head?_append_of_ne_nil _ filled]
        exact apart.1 next rfl texts

/-- Coalescing joins each run by itself. -/
theorem coalesce_eq_flatMap_runs (actions : List Action) :
    coalesce actions = (runs actions).flatMap joined := by
  have whole := coalesce_flatten (fun _ => isRun_of_mem_runs) (isChain_runs actions)
  rwa [runs, List.flatten_splitBy] at whole

/-! What is kept, and what is left of the order. -/

/-- No text is empty, and none stands next to another. -/
structure Coalesced (actions : List Action) : Prop where
  noEmpty : .text "" ∉ actions
  apart : actions.IsChain fun first second => (first.isText && second.isText) = false

/-- A single thing that happens in the destination editor. -/
inductive Stroke where
  | char (c : Char)
  | command (id : String)
  | nav (key : NavKey)
  deriving DecidableEq, Repr

/-- The action by which only this happens. -/
def Stroke.action : Stroke → Action
  | char c => .text (String.singleton c)
  | command id => .command id
  | nav key => .nav key

/-- What the action does, one thing after the other. -/
def strokes : Action → List Stroke
  | text content => content.toList.map .char
  | command id => [.command id]
  | nav key => [.nav key]

theorem strokes_coalesce (actions : List Action) :
    (coalesce actions).flatMap strokes = actions.flatMap strokes := by
  induction actions with
  | nil => rfl
  | cons action rest ih =>
    cases action with
    | text content =>
      rw [List.flatMap_cons, ← ih, coalesce]
      split
      next more others same => simp [same, strokes]
      next =>
        split
        next none => simp [none, strokes]
        next => exact List.flatMap_cons
    | command | nav => rw [coalesce, List.flatMap_cons, List.flatMap_cons, ih]

/-- What the actions do is all that coalescing depends on. -/
theorem coalesce_strokes (actions : List Action) :
    coalesce ((actions.flatMap strokes).map Stroke.action) = coalesce actions := by
  induction actions with
  | nil => rfl
  | cons action rest ih =>
    rw [List.flatMap_cons, List.map_append]
    cases action with
    | text content =>
      rw [strokes, List.map_map]
      refine (coalesce_chars content.toList _).trans ?_
      rw [String.ofList_toList, coalesce_text_congr content ih]
    | command id => exact congrArg (Action.command id :: ·) ih
    | nav key => exact congrArg (Action.nav key :: ·) ih

theorem coalesced_cons_iff {action : Action} {rest : List Action} :
    Coalesced (action :: rest) ↔ action ≠ .text "" ∧
      (∀ next ∈ rest.head?, (action.isText && next.isText) = false) ∧ Coalesced rest := by
  constructor
  · rintro ⟨noEmpty, apart⟩
    rw [List.mem_cons, not_or] at noEmpty
    rw [List.isChain_cons] at apart
    exact ⟨Ne.symm noEmpty.1, apart.1, noEmpty.2, apart.2⟩
  · rintro ⟨here, next, noEmpty, apart⟩
    exact ⟨List.not_mem_cons_of_ne_of_not_mem here.symm noEmpty,
      List.isChain_cons.mpr ⟨next, apart⟩⟩

theorem coalesced_coalesce (actions : List Action) : Coalesced (coalesce actions) := by
  induction actions with
  | nil => exact ⟨List.not_mem_nil, .nil⟩
  | cons action rest ih =>
    cases action with
    | command | nav => exact coalesced_cons_iff.mpr ⟨nofun, fun _ _ => rfl, ih⟩
    | text content =>
      rw [coalesce]
      split
      next more others same =>
        -- The text that is there already takes the new one in.
        rw [same, coalesced_cons_iff] at ih
        refine coalesced_cons_iff.mpr ⟨fun empty => ih.1 ?_, ih.2⟩
        rw [text.injEq, String.append_eq_empty_iff] at empty
        rw [empty.2]
      next apart =>
        split
        next => exact ih
        next notEmpty =>
          refine coalesced_cons_iff.mpr ⟨by simpa using notEmpty, fun next here => ?_, ih⟩
          obtain ⟨others, same⟩ := List.head?_eq_some_iff.mp here
          cases next with
          | text more => exact (apart more others same).elim
          | command | nav => rfl

/-- Nothing is left to be joined. -/
theorem Coalesced.coalesce_eq {actions : List Action} (coalesced : Coalesced actions) :
    coalesce actions = actions := by
  induction actions with
  | nil => rfl
  | cons action rest ih =>
    obtain ⟨notEmpty, apart, behind⟩ := coalesced_cons_iff.mp coalesced
    cases action with
    | command | nav => rw [coalesce, ih behind]
    | text content =>
      have alone : coalesce (.text (String.ofList content.toList) :: rest) =
          textOf content.toList ++ coalesce rest :=
        coalesce_text_of_head? (by simpa [isText] using apart)
      rwa [ih behind, textOf, if_neg (by simpa using notEmpty), String.ofList_toList] at alone

/-- There is one way only to do these things in this order. -/
theorem Coalesced.eq_coalesce {actions other : List Action} (coalesced : Coalesced other)
    (same : other.flatMap strokes = actions.flatMap strokes) : other = coalesce actions := by
  rw [← coalesced.coalesce_eq, ← coalesce_strokes other, same, coalesce_strokes]

/-! Calls. -/

/-- What a builder can be asked for. -/
inductive Operation where
  | text (content : String)
  | char (c : Char)
  | command (id : String)
  | nav (key : NavKey)
  deriving DecidableEq, Repr

/-- The action that the call comes to by itself. -/
def Operation.action : Operation → Action
  | text content => .text content
  | char c => .text (String.singleton c)
  | command id => .command id
  | nav key => .nav key

namespace Builder

def call (builder : Builder) : Operation → Builder
  | .text content => builder.text content
  | .char c => builder.char c
  | .command id => builder.command id
  | .nav key => builder.nav key

theorem call_eq_add (builder : Builder) (operation : Operation) :
    builder.call operation = builder.add operation.action := by
  cases operation with
  | char c => exact builder.char_eq_add c
  | text | command | nav => rfl

theorem foldl_call (builder : Builder) (operations : List Operation) :
    operations.foldl call builder = (operations.map Operation.action).foldl add builder := by
  rw [List.foldl_map]
  exact congrArg (List.foldl · builder operations) (funext₂ call_eq_add)

/-- A builder joins the texts of each run of its calls and does what the calls say, nothing less
and nothing more; a list without empty and neighbouring texts that does the same is the same. So no
markup comes to a list with such texts. -/
theorem finish_foldl_call (operations : List Operation) (registry : Registry) (markup : String) :
    let calls := operations.map Operation.action
    let built := (operations.foldl call empty).finish
    built = (runs calls).flatMap joined ∧
      built.flatMap strokes = calls.flatMap strokes ∧
      Coalesced built ∧
      (∀ other, Coalesced other → other.flatMap strokes = calls.flatMap strokes → other = built) ∧
      Coalesced (Markup.parse registry markup) := by
  intro calls built
  have same : built = coalesce calls := by
    rw [← finish_foldl_add_empty, ← foldl_call]
  refine ⟨?_, ?_, ?_, fun other coalesced strokes => ?_, ?_⟩
  · rw [same, coalesce_eq_flatMap_runs]
  · rw [same, strokes_coalesce]
  · rw [same]
    exact coalesced_coalesce calls
  · rw [same]
    exact coalesced.eq_coalesce strokes
  · rw [Markup.parse_eq_finish, finish_foldl_add_empty]
    exact coalesced_coalesce _

end Builder

end FormulaKeys.Action
