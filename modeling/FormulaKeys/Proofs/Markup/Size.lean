import FormulaKeys.Page.Converter
import FormulaKeys.Proofs.Markup.Trigger

/-! How much comes of markup.

A construct is paid for by the bytes that it takes off the markup and leaves to none of its
groups. One byte pays for a byte of text and for two actions, and no byte pays twice.
-/

set_option autoImplicit false

namespace FormulaKeys

open String (utf8Len)

/-- The name of a symbol and its backslash are as long as the symbol. -/
theorem Command.utf8Size_symbol :
    ∀ entry ∈ Symbol.table, entry.2.utf8Size ≤ 1 + entry.1.utf8ByteSize := by
  decide +kernel

namespace Markup

open FormulaKeys.Action (typed typed_append)

namespace Plain

variable {registry : Registry} {chars rest : List Char} {parts : List Part}

theorem utf8Len_name (chars : List Char) :
    (name chars).utf8ByteSize + utf8Len (behindName chars) = utf8Len chars := by
  rw [← String.utf8Len_toList, ← String.utf8Len_append, name_append_behindName]

theorem utf8Len_of_takeArgument {argument : Argument}
    (taken : takeArgument chars = (argument, rest)) :
    utf8Len argument.content + utf8Len rest ≤ utf8Len chars := by
  rw [← String.utf8Len_append]
  exact String.utf8Len_le_of_sublist (sublist_of_takeArgument taken)

/-! What the parts of a construct come to, and who pays. -/

def total (size : Part → Nat) : List Part → Nat
  | [] => 0
  | part :: parts => size part + total size parts

/-- The bytes that a part types by itself. -/
def Part.bytes : Part → Nat
  | text content => content.utf8ByteSize
  | unknown _ => 1
  | command _ | nav _ | argument _ => 0

/-- The actions that a part is by itself. -/
def Part.count : Part → Nat
  | text _ | command _ | nav _ | unknown _ => 1
  | argument _ => 0

/-- What a part leaves to be read. -/
def Part.inside : Part → List Char
  | argument group => group.content
  | text _ | command _ | nav _ | unknown _ => []

def Part.left (part : Part) : Nat := utf8Len part.inside

/-- Of what a construct takes off the list, enough is left over for its own texts and actions. -/
theorem Reads.pays (reads : Reads registry chars parts rest) :
    total Part.bytes parts + total Part.left parts + utf8Len rest ≤ utf8Len chars ∧
      total Part.count parts + 2 * (total Part.left parts + utf8Len rest) ≤ 2 * utf8Len chars := by
  have slash : '\\'.utf8Size = 1 := rfl
  cases reads with
  | @binary chars middle rest mapping first second bound takes one two =>
    -- Two keys are pressed besides the command, so the name has to pay for one of them.
    have known : Command.Class.ofName (name chars) ≠ .unknown := by simp [takes]
    have notEmpty := (Command.isName_of_ofName known).1
    rw [Ne, ← String.utf8ByteSize_eq_zero_iff] at notEmpty
    have named := utf8Len_name chars
    have inFirst := utf8Len_of_takeArgument one
    have inSecond := utf8Len_of_takeArgument two
    simp only [total, Part.bytes, Part.count, Part.left, Part.inside, String.utf8Len_cons,
      String.utf8Len_nil]
    omega
  | @unary chars rest mapping argument bound takes one
  | @wrapper chars rest argument free takes one =>
    have named := utf8Len_name chars
    have inArgument := utf8Len_of_takeArgument one
    simp only [total, Part.bytes, Part.count, Part.left, Part.inside, String.utf8Len_cons,
      String.utf8Len_nil]
    omega
  | @script c content rest mapping argument isMarker bound one =>
    have marked := c.utf8Size_pos
    have inArgument := utf8Len_of_takeArgument one
    rw [String.utf8Len_cons]
    simp only [total, Part.bytes, Part.count, Part.left, Part.inside, String.utf8Len_nil]
    omega
  | @bare chars | @layout chars | @function chars =>
    have named := utf8Len_name chars
    simp only [total, Part.bytes, Part.count, Part.left, Part.inside, String.utf8Len_cons,
      String.utf8Len_nil]
    omega
  | @symbol chars value free takes =>
    have named := utf8Len_name chars
    have spaced := String.utf8Len_le_of_suffix (dropSpace_suffix (behindName chars))
    have short := Command.utf8Size_symbol _ (Command.mem_table_of_ofName takes)
    simp only [total, Part.bytes, Part.count, Part.left, Part.inside, String.utf8Len_cons,
      String.utf8Len_nil, String.utf8ByteSize_singleton] at short ⊢
    omega
  | @scriptChar c d =>
    have marked := c.utf8Size_pos
    have taken := d.utf8Size_pos
    simp only [total, Part.bytes, Part.count, Part.left, Part.inside, String.utf8Len_cons,
      String.utf8Len_nil, String.utf8ByteSize_singleton]
    omega
  | @scriptEnd c | @freeMarker c | @char c =>
    have taken := c.utf8Size_pos
    simp only [total, Part.bytes, Part.count, Part.left, Part.inside, String.utf8Len_cons,
      String.utf8Len_nil, String.utf8ByteSize_singleton]
    omega
  | space =>
    have blank : " ".utf8ByteSize = 1 := rfl
    simp only [total, Part.bytes, Part.count, Part.left, Part.inside, String.utf8Len_cons,
      String.utf8Len_nil, blank]
    omega
  | dollar | unknown =>
    simp only [total, Part.bytes, Part.count, Part.left, Part.inside, String.utf8Len_cons,
      String.utf8Len_nil]
    omega

/-- A size of actions that is made up of what the parts are by themselves. -/
structure Sizes (size : List Action → Nat) (own : Part → Nat) : Prop where
  append (first rest : List Action) : size (first ++ rest) = size first + size rest
  part (content : List Char → List Action) (nothing : content [] = []) (part : Part) :
    size (part.actions content) = own part + size (content part.inside)

namespace Sizes

variable {size : List Action → Nat} {own : Part → Nat}

theorem typed : Sizes (fun actions => utf8Len (Action.typed actions)) Part.bytes where
  append first rest := by rw [typed_append, String.utf8Len_append]
  part content nothing part := by
    cases part with
    | argument => exact (Nat.zero_add _).symm
    | unknown name =>
      rw [Part.inside, nothing]
      rfl
    | text | command | nav =>
      simp [Part.actions, Part.inside, Part.bytes, nothing, Action.typed, Action.chars]

theorem length : Sizes List.length Part.count where
  append _ _ := List.length_append
  part content nothing part := by
    cases part with
    | argument => exact (Nat.zero_add _).symm
    | text | command | nav | unknown =>
      simp [Part.actions, Part.inside, Part.count, nothing]

theorem nil (sizes : Sizes size own) : size [] = 0 := by
  have twice := sizes.append [] []
  rw [List.append_nil] at twice
  omega

/-- A construct comes to what its parts are by themselves and to no more than its groups pay. -/
theorem parts_le (sizes : Sizes size own) {rate : Nat} {content : List Char → List Action}
    (nothing : content [] = [])
    (groups : ∀ argument, .argument argument ∈ parts →
      size (content argument.content) ≤ rate * utf8Len argument.content) :
    size (parts.flatMap (Part.actions content)) ≤
      total own parts + rate * total Part.left parts := by
  induction parts with
  | nil => exact Nat.le_of_eq sizes.nil
  | cons part parts ih =>
    have behind := ih fun argument mem => groups argument (List.mem_cons_of_mem part mem)
    have here : size (content part.inside) ≤ rate * part.left := by
      cases part with
      | argument argument => exact groups argument List.mem_cons_self
      | text | command | nav | unknown =>
        rw [Part.inside, nothing, sizes.nil]
        exact Nat.zero_le _
    rw [List.flatMap_cons, sizes.append, sizes.part content nothing, total, total, Nat.mul_add]
    omega

/-- What every construct can pay for, the whole list can. -/
theorem flat_le (sizes : Sizes size own) {rate : Nat}
    (pays : ∀ {chars rest parts}, Reads registry chars parts rest →
      total own parts + rate * (total Part.left parts + utf8Len rest) ≤ rate * utf8Len chars)
    (chars : List Char) : size (flat registry chars) ≤ rate * utf8Len chars := by
  induction chars using inductionOnConstructs registry with
  | nil =>
    rw [flat_nil, sizes.nil]
    exact Nat.zero_le _
  | cons c chars groups behind =>
    have parts := sizes.parts_le (flat_nil registry) groups
    have paid := pays (construct_reads registry c chars)
    rw [flat_cons, sizes.append]
    rw [Nat.mul_add] at paid
    omega

end Sizes

theorem utf8Len_typed_flat_le (registry : Registry) (chars : List Char) :
    utf8Len (Action.typed (flat registry chars)) ≤ utf8Len chars := by
  have paid : utf8Len (Action.typed (flat registry chars)) ≤ 1 * utf8Len chars := by
    refine Sizes.typed.flat_le (fun reads => ?_) chars
    have enough := reads.pays.1
    omega
  rwa [Nat.one_mul] at paid

theorem length_flat_le (registry : Registry) (chars : List Char) :
    (flat registry chars).length ≤ 2 * utf8Len chars :=
  Sizes.length.flat_le (fun reads => reads.pays.2) chars

end Plain

end Markup

theorem Action.length_coalesce_le (actions : List Action) :
    (coalesce actions).length ≤ actions.length := by
  induction actions with
  | nil => exact Nat.le_refl 0
  | cons action rest ih =>
    cases action with
    | command | nav => exact Nat.succ_le_succ ih
    | text content =>
      rw [coalesce]
      split
      next same =>
        rw [same] at ih
        exact Nat.le_succ_of_le ih
      next =>
        split
        · exact Nat.le_succ_of_le ih
        · exact Nat.succ_le_succ ih

namespace Converter

open FormulaKeys.Action (typed)

/-- No more bytes are typed than are written, and a byte of markup comes to two actions at the
most, as a bound marker without an argument does. So the count of a page is the number of actions
as long as the markup is shorter than two gibibytes. -/
theorem parse_never_inflates (converter : Converter) (markup : String) :
    utf8Len (typed (converter.parse markup)) ≤ markup.utf8ByteSize ∧
      (converter.parse markup).length ≤ 2 * markup.utf8ByteSize ∧
      (∀ marker, marker = '^' ∨ marker = '_' →
        (converter.registry.byTrigger? (String.singleton marker)).isSome →
        (converter.parse (String.singleton marker)).length =
          2 * (String.singleton marker).utf8ByteSize) ∧
      (markup.utf8ByteSize < 2 ^ 31 →
        (Page.actionCount converter markup).toNat = (converter.parse markup).length) := by
  have same : converter.parse markup =
      Action.coalesce (Markup.Plain.flat converter.registry markup.toList) := by
    rw [parse, Markup.parse_eq_finish, Action.Builder.finish_foldl_add_empty]
  have length : (converter.parse markup).length ≤ 2 * markup.utf8ByteSize := by
    rw [same, ← String.utf8Len_toList]
    exact (Action.length_coalesce_le _).trans (Markup.Plain.length_flat_le _ _)
  refine ⟨?_, length, fun marker isMarker bound => ?_, fun small => ?_⟩
  · rw [same, Action.typed_coalesce, ← String.utf8Len_toList]
    exact Markup.Plain.utf8Len_typed_flat_le _ _
  · obtain ⟨mapping, bound⟩ := Option.isSome_iff_exists.mp bound
    rw [parse, Markup.parse_marker isMarker bound]
    rcases isMarker with rfl | rfl <;> rfl
  · exact UInt32.toNat_ofNat_of_lt' (by rw [UInt32.size]; omega)

theorem parse_never_inflates_marker :
    (standard.registry.byTrigger? "^").isSome ∧ (standard.parse "^").length = 2 ∧
      "^".utf8ByteSize < 2 ^ 31 ∧
      (Page.actionCount standard "^").toNat = (standard.parse "^").length := by
  have bound : (standard.registry.byTrigger? "^").isSome := by decide
  obtain ⟨_, _, reached, counted⟩ := parse_never_inflates standard "^"
  exact ⟨bound, reached '^' (.inl rfl) bound, by decide, counted (by decide)⟩

end Converter

end FormulaKeys
