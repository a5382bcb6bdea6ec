import FormulaKeys.Config.Decode
import FormulaKeys.Config.Encode

/-! Fields that are written and read again.

A field is written for a value that is there, and left out otherwise. Reading it gives
the value back, or whatever the field comes to when it is absent.
-/

set_option autoImplicit false

namespace FormulaKeys

namespace Document

theorem str?_str (text : String) : (str text).str? = some text := rfl

theorem bool?_bool (value : Bool) : (bool value).bool? = some value := rfl

section
variable {Read Value : Type} {fields : List (String × Document)} {name : String}
  {value : Option Value} {write : Value → Document}

/-- A field that was written if there was a value, and that is read again. -/
theorem field?_written (known : fields.lookup name = value.map write)
    (read : Document → Option Read) (absent : Option Read) :
    field? fields name read absent = value.elim absent fun value => read (write value) := by
  rw [field?, known]
  cases value <;> rfl

theorem field?_required {read : Document → Option Value}
    (reads : ∀ value, read (write value) = some value)
    (known : fields.lookup name = value.map write) : field? fields name read none = value := by
  rw [field?_written known]
  cases value with
  | none => rfl
  | some value => exact reads value

theorem field?_default {read : Document → Option Value}
    (reads : ∀ value, read (write value) = some value)
    (known : fields.lookup name = value.map write) (standard : Value) :
    field? fields name read (some standard) = some (value.getD standard) := by
  rw [field?_written known]
  cases value with
  | none => rfl
  | some value => exact reads value

theorem field?_unlessNull {read : Document → Option Value}
    (reads : ∀ value, read (write value) = some value) (notNull : ∀ value, write value ≠ null)
    (known : fields.lookup name = value.map write) :
    field? fields name (Config.unlessNull read) (some none) = some value := by
  rw [field?_written known]
  cases value with
  | none => rfl
  | some value =>
    rw [Option.elim_some, Config.unlessNull, reads]
    · rfl
    · exact notNull value

end

end Document

namespace Config

theorem millis?_encodeMillis (time : Millis) : millis? (encodeMillis time) = some time := by
  have bounded : time.toNat < UInt32.size := time.toNat_lt_size
  simp [encodeMillis, millis?, bounded]

theorem char?_singleton (c : Char) : char? (.str (String.singleton c)) = some c := by
  simp [char?]

theorem navKey?_encodeKey (format : Document.Format) (key : NavKey) :
    navKey? format (encodeKey key) = some key :=
  NavKey.ofName?_name key

theorem lookup_encodeOptional {Value : Type} {name other : String} {write : Value → Document}
    {value : Option Value} :
    (encodeOptional name write value).lookup other =
      if other = name then value.map write else none := by
  cases value with
  | none => simp [encodeOptional]
  | some value =>
    rw [encodeOptional, List.lookup_cons, List.lookup_nil]
    by_cases same : other = name
    · rw [if_pos same, beq_iff_eq.mpr same]
      rfl
    · rw [if_neg same, beq_false_of_ne same]

end Config

end FormulaKeys
