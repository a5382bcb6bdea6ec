import FormulaKeys.Action.Builder

/-! Coalescing: a list of actions in which neighbouring texts are one text.

A builder coalesces while it grows. What it has built at the end depends only on
the list of actions that went into it.
-/

set_option autoImplicit false

namespace FormulaKeys.Action

/-- Neighbouring texts joined into one, and empty texts left out. -/
def coalesce : List Action → List Action
  | [] => []
  | .text content :: rest =>
    match coalesce rest with
    | .text more :: others => .text (content ++ more) :: others
    | others => if content = "" then others else .text content :: others
  | .command id :: rest => .command id :: coalesce rest
  | .nav key :: rest => .nav key :: coalesce rest

/-- The characters that an action types. A mapping may type more when it fires. -/
def chars : Action → List Char
  | .text content => content.toList
  | .command _ | .nav _ => []

/-- The contents of all texts, one behind the other. -/
def typed (actions : List Action) : List Char := actions.flatMap chars

theorem typed_cons (action : Action) (rest : List Action) :
    typed (action :: rest) = action.chars ++ typed rest :=
  List.flatMap_cons

theorem typed_append (first rest : List Action) :
    typed (first ++ rest) = typed first ++ typed rest :=
  List.flatMap_append

theorem coalesce_text_empty (rest : List Action) : coalesce (.text "" :: rest) = coalesce rest := by
  rw [coalesce]
  split
  next more others same => rw [same, String.empty_append]
  next => rfl

theorem coalesce_text_single {content : String} (notEmpty : content ≠ "") :
    coalesce [.text content] = [.text content] := by
  simp [coalesce, notEmpty]

theorem coalesce_text_text (first second : String) (rest : List Action) :
    coalesce (.text first :: .text second :: rest) =
      coalesce (.text (first ++ second) :: rest) := by
  simp only [coalesce]
  cases same : coalesce rest with
  | nil =>
    by_cases none : second = ""
    · simp [none]
    · simp [none, String.append_eq_empty_iff]
  | cons head others =>
    cases head with
    | text more => simp [String.append_assoc]
    | command | nav =>
      by_cases none : second = ""
      · simp [none]
      · simp [none, String.append_eq_empty_iff]

theorem coalesce_text_congr (content : String) {first rest : List Action}
    (same : coalesce first = coalesce rest) :
    coalesce (.text content :: first) = coalesce (.text content :: rest) := by
  simp only [coalesce, same]

/-- Characters that are typed one by one are one text. -/
theorem coalesce_chars (chars : List Char) (rest : List Action) :
    coalesce (chars.map (fun c => .text (String.singleton c)) ++ rest) =
      coalesce (.text (String.ofList chars) :: rest) := by
  induction chars with
  | nil => exact (coalesce_text_empty rest).symm
  | cons c chars ih =>
    have whole : String.singleton c ++ String.ofList chars = String.ofList (c :: chars) := by
      simp [String.ofList_cons]
    rw [List.map_cons, List.cons_append, coalesce_text_congr _ ih, coalesce_text_text, whole]

theorem coalesce_text_command (content id : String) (rest : List Action) :
    coalesce (.text content :: .command id :: rest) =
      (if content = "" then [] else [.text content]) ++ .command id :: coalesce rest := by
  simp only [coalesce]
  split <;> rfl

theorem coalesce_text_nav (content : String) (key : NavKey) (rest : List Action) :
    coalesce (.text content :: .nav key :: rest) =
      (if content = "" then [] else [.text content]) ++ .nav key :: coalesce rest := by
  simp only [coalesce]
  split <;> rfl

/-- No text reaches across a navigation key. -/
theorem coalesce_append_nav (first rest : List Action) (key : NavKey) :
    coalesce (first ++ .nav key :: rest) = coalesce first ++ .nav key :: coalesce rest := by
  induction first with
  | nil => rfl
  | cons head first ih =>
    cases head with
    | text content =>
      simp only [List.cons_append, coalesce, ih]
      cases coalesce first with
      | nil => by_cases none : content = "" <;> simp [none]
      | cons head others =>
        cases head with
        | text more => simp
        | command | nav => by_cases none : content = "" <;> simp [none]
    | command | nav => simp only [List.cons_append, coalesce, ih]

/-- One list behind the other; where two texts meet, they become one. -/
def join : List Action → List Action → List Action
  | [], rest => rest
  | [.text content], .text more :: rest => .text (content ++ more) :: rest
  | action :: first, rest => action :: join first rest

/-- What is coalesced in two pieces is joined at the seam. -/
theorem coalesce_append (first rest : List Action) :
    coalesce (first ++ rest) = join (coalesce first) (coalesce rest) := by
  induction first with
  | nil => simp only [List.nil_append, coalesce, join]
  | cons head first ih =>
    cases head with
    | text content =>
      simp only [List.cons_append, coalesce, ih]
      generalize coalesce first = before
      generalize coalesce rest = behind
      -- The text meets what is behind the seam only when nothing, or one text, stands between.
      cases before with
      | nil =>
        by_cases none : content = ""
        · cases behind with
          | nil => simp [join, none]
          | cons next others => cases next <;> simp [join, none]
        · cases behind with
          | nil => simp [join, none]
          | cons next others => cases next <;> simp [join, none]
      | cons action others =>
        cases action with
        | text more =>
          cases others with
          | nil =>
            cases behind with
            | nil => simp [join]
            | cons next others => cases next <;> simp [join, String.append_assoc]
          | cons => simp [join]
        | command | nav => by_cases none : content = "" <;> simp [join, none]
    | command | nav => simp only [List.cons_append, coalesce, ih, join]

theorem typed_coalesce (actions : List Action) : typed (coalesce actions) = typed actions := by
  induction actions with
  | nil => rfl
  | cons head rest ih =>
    cases head with
    | text content =>
      rw [typed_cons, ← ih, coalesce]
      split
      next more others same => simp [same, typed_cons, chars, List.append_assoc]
      next =>
        split
        next none => simp [none, chars]
        next => exact typed_cons (.text content) (coalesce rest)
    | command | nav => rw [coalesce, typed_cons, typed_cons, ih]

namespace Builder

def add (builder : Builder) : Action → Builder
  | .text content => builder.text content
  | .command id => builder.command id
  | .nav key => builder.nav key

theorem char_eq_add (builder : Builder) (c : Char) :
    builder.char c = builder.add (.text (String.singleton c)) := by
  simp only [char, add, text, String.push_eq_append]

/-- The open text comes in front of what is added and is joined to it. -/
theorem finish_foldl_add (builder : Builder) (actions : List Action) :
    (actions.foldl add builder).finish =
      builder.done.toList ++ coalesce (.text builder.pending :: actions) := by
  induction actions generalizing builder with
  | nil =>
    rw [List.foldl_nil, finish, closed, coalesce, coalesce]
    split <;> simp
  | cons action rest ih =>
    rw [List.foldl_cons, ih]
    -- A text joins the open one; anything else closes it, and an empty one leaves no trace.
    cases action with
    | text content => rw [coalesce_text_text]; rfl
    | command id =>
      rw [coalesce_text_command]
      simp only [add, command, closed, coalesce_text_empty]
      split <;> simp
    | nav key =>
      rw [coalesce_text_nav]
      simp only [add, nav, closed, coalesce_text_empty]
      split <;> simp

theorem finish_foldl_add_empty (actions : List Action) :
    (actions.foldl add empty).finish = coalesce actions := by
  rw [finish_foldl_add]
  exact coalesce_text_empty actions

end Builder

end FormulaKeys.Action
