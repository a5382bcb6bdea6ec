import Mathlib.Data.String.Basic

/-! Bytes of UTF-8 and the characters they encode.

A byte below 128 stands for the ASCII character of this number, and for no part of
another character. Readers that look for ASCII characters among bytes therefore find
them where the characters are.
-/

set_option autoImplicit false

namespace FormulaKeys.Text

open String (utf8Len)

/-- The bytes of the characters, one behind the other. -/
def encoded (chars : List Char) : List UInt8 := chars.flatMap String.utf8EncodeChar

theorem encoded_cons (c : Char) (rest : List Char) :
    encoded (c :: rest) = String.utf8EncodeChar c ++ encoded rest :=
  List.flatMap_cons

theorem encoded_append (first rest : List Char) :
    encoded (first ++ rest) = encoded first ++ encoded rest :=
  List.flatMap_append

theorem length_encoded (chars : List Char) : (encoded chars).length = utf8Len chars := by
  induction chars with
  | nil => rfl
  | cons c chars ih =>
    rw [encoded_cons, List.length_append, ih, String.length_utf8EncodeChar, String.utf8Len_cons,
      Nat.add_comm]

theorem length_le_length_encoded (chars : List Char) : chars.length ≤ (encoded chars).length := by
  rw [length_encoded]
  induction chars with
  | nil => exact Nat.le_refl 0
  | cons c chars ih =>
    have := c.utf8Size_pos
    rw [List.length_cons, String.utf8Len_cons]
    omega

/-- The bytes that a text is made of. -/
def bytes (source : String) : List UInt8 := source.toByteArray.data.toList

theorem bytes_ofList (chars : List Char) : bytes (String.ofList chars) = encoded chars := by
  rw [bytes, String.toByteArray_ofList, List.utf8Encode, List.data_toByteArray]
  rfl

theorem utf8EncodeChar_ascii {c : Char} (ascii : c.toNat < 128) :
    String.utf8EncodeChar c = [UInt8.ofNat c.toNat] :=
  if_pos (Nat.le_of_lt_succ ascii)

theorem encoded_cons_ascii {c : Char} (ascii : c.toNat < 128) (rest : List Char) :
    encoded (c :: rest) = UInt8.ofNat c.toNat :: encoded rest := by
  rw [encoded_cons, utf8EncodeChar_ascii ascii, List.singleton_append]

theorem utf8Size_ascii {c : Char} (ascii : c.toNat < 128) : c.utf8Size = 1 :=
  Char.utf8Size_eq_one_iff.mpr (UInt32.le_iff_toNat_le.mpr (Nat.le_of_lt_succ ascii))

theorem ofUInt8_ascii {c : Char} (ascii : c.toNat < 128) :
    Char.ofUInt8 (UInt8.ofNat c.toNat) = c := by
  apply Char.toNat_inj.mp
  change (UInt8.ofNat c.toNat).toUInt32.toNat = c.toNat
  rw [UInt8.toNat_toUInt32, UInt8.toNat_ofNat_of_lt' (Nat.lt_trans ascii (by decide))]

/-- The bytes of other characters are no ASCII characters. -/
theorem le_of_mem_utf8EncodeChar {c : Char} (other : 128 ≤ c.toNat) {byte : UInt8}
    (mem : byte ∈ String.utf8EncodeChar c) : 128 ≤ byte.toNat := by
  have leading {n : Nat} (low : 128 ≤ n) (high : n < 256) : 128 ≤ (UInt8.ofNat n).toNat := by
    rwa [UInt8.toNat_ofNat_of_lt' high]
  unfold String.utf8EncodeChar at mem
  dsimp only at mem
  rw [if_neg (show ¬c.val.toNat ≤ 127 from Nat.not_le_of_lt other)] at mem
  split at mem
  next =>
    rcases List.mem_pair.mp mem with rfl | rfl <;> apply leading <;> omega
  next =>
    split at mem
    all_goals
      simp only [List.mem_cons, List.not_mem_nil, or_false] at mem
      rcases mem with rfl | rfl | rfl | rfl <;> apply leading <;> omega

theorem isAlpha_ascii (c : Char) (letter : c.isAlpha = true) : c.toNat < 128 := by
  have small : c.val ≤ 122 := by
    rcases Bool.or_eq_true_iff.mp letter with upper | lower
    · have upTo : c.val ≤ 90 := (of_decide_eq_true upper).2
      exact UInt32.le_trans upTo (by decide)
    · exact of_decide_eq_true (Bool.and_eq_true_iff.mp lower).2
  exact Nat.lt_of_le_of_lt (UInt32.le_iff_toNat_le.mp small) (by decide)

variable {inClass : Char → Bool} {c : Char}

/-- A byte is in a class of ASCII characters if the character that it is a part of is. -/
theorem inClass_byte (ascii : ∀ c, inClass c = true → c.toNat < 128) {byte : UInt8}
    (mem : byte ∈ String.utf8EncodeChar c) : inClass (Char.ofUInt8 byte) = inClass c := by
  by_cases small : c.toNat < 128
  · rw [utf8EncodeChar_ascii small, List.mem_singleton] at mem
    rw [mem, ofUInt8_ascii small]
  · have large := le_of_mem_utf8EncodeChar (Nat.le_of_not_lt small) mem
    have notByte : inClass (Char.ofUInt8 byte) = false :=
      Bool.eq_false_of_not_eq_true fun inside => Nat.not_lt_of_le large (ascii _ inside)
    have notChar : inClass c = false :=
      Bool.eq_false_of_not_eq_true fun inside => small (ascii c inside)
    rw [notByte, notChar]

theorem exists_first_byte (ascii : ∀ c, inClass c = true → c.toNat < 128) (c : Char) :
    ∃ byte more, String.utf8EncodeChar c = byte :: more ∧
      inClass (Char.ofUInt8 byte) = inClass c := by
  obtain ⟨byte, more, same⟩ :=
    List.exists_cons_of_ne_nil (String.utf8EncodeChar_ne_nil (c := c))
  exact ⟨byte, more, same, inClass_byte ascii (same ▸ List.mem_cons_self)⟩

theorem head?_encoded (ascii : c.toNat < 128) (chars : List Char) :
    (encoded chars).head?.map Char.ofUInt8 = some c ↔ chars.head? = some c := by
  cases chars with
  | nil => simp [encoded]
  | cons d chars =>
    have isAscii (e : Char) (equal : decide (e = c) = true) : e.toNat < 128 :=
      of_decide_eq_true equal ▸ ascii
    obtain ⟨byte, more, same, sameClass⟩ := exists_first_byte isAscii d
    rw [encoded_cons, same]
    simpa using sameClass

/-- A run of ASCII characters is found among the bytes. -/
theorem takeWhile_encoded (ascii : ∀ c, inClass c = true → c.toNat < 128) (chars : List Char) :
    (encoded chars).takeWhile (fun byte => inClass (Char.ofUInt8 byte)) =
      encoded (chars.takeWhile inClass) := by
  induction chars with
  | nil => rfl
  | cons c chars ih =>
    rw [encoded_cons]
    by_cases inside : inClass c = true
    · rw [List.takeWhile_append_of_pos fun byte mem => (inClass_byte ascii mem).trans inside, ih,
        List.takeWhile_cons_of_pos inside, encoded_cons]
    · obtain ⟨byte, more, same, sameClass⟩ := exists_first_byte ascii c
      rw [same, List.cons_append, List.takeWhile_cons_of_neg (by rwa [sameClass]),
        List.takeWhile_cons_of_neg inside]
      rfl

/-- The first byte in the class is the one that the first character in the class begins with. -/
theorem findIdx?_encoded (ascii : ∀ c, inClass c = true → c.toNat < 128) (chars : List Char) :
    (encoded chars).findIdx? (fun byte => inClass (Char.ofUInt8 byte)) =
      (chars.findIdx? inClass).map fun index => utf8Len (chars.take index) := by
  induction chars with
  | nil => rfl
  | cons c chars ih =>
    rw [encoded_cons, List.findIdx?_cons]
    by_cases inside : inClass c = true
    · obtain ⟨byte, more, same, sameClass⟩ := exists_first_byte ascii c
      simp [same, List.findIdx?_cons, sameClass, inside]
    · have outside : (String.utf8EncodeChar c).findIdx?
          (fun byte => inClass (Char.ofUInt8 byte)) = none := by
        rw [List.findIdx?_eq_none_iff]
        intro byte mem
        rwa [inClass_byte ascii mem, ← Bool.not_eq_true]
      rw [List.findIdx?_append, outside, ih, if_neg inside]
      simp [String.length_utf8EncodeChar, Function.comp_def, Nat.add_comm]

/-- Either no character is in the class, or the list is cut at the first that is. -/
theorem plain_or_cut (inClass : Char → Bool) (chars : List Char) :
    (∀ d ∈ chars, inClass d = false) ∨ ∃ first c rest, chars = first ++ c :: rest ∧
      (∀ d ∈ first, inClass d = false) ∧ inClass c = true := by
  cases found : chars.find? inClass with
  | none => exact .inl (by simpa using List.find?_eq_none.mp found)
  | some c =>
    obtain ⟨inside, first, rest, same, outside⟩ := List.find?_eq_some_iff_append.mp found
    exact .inr ⟨first, c, rest, same, by simpa using outside, inside⟩

/-- The first byte in the class, where the first character in the class is known. -/
theorem findIdx?_encoded_append (ascii : ∀ c, inClass c = true → c.toNat < 128) {first : List Char}
    (outside : ∀ d ∈ first, inClass d = false) (inside : inClass c = true) (rest : List Char) :
    (encoded (first ++ c :: rest)).findIdx? (fun byte => inClass (Char.ofUInt8 byte)) =
      some (utf8Len first) := by
  have found : (first ++ c :: rest).findIdx? inClass = some first.length := by
    rw [List.findIdx?_append, List.findIdx?_eq_none_iff.mpr outside]
    simp [List.findIdx?_cons, inside]
  rw [findIdx?_encoded ascii, found, Option.map_some, List.take_left]

/-- The byte of an ASCII character stands where the character does. -/
theorem getElem?_encoded (ascii : c.toNat < 128) (first rest : List Char) :
    (encoded (first ++ c :: rest))[utf8Len first]? = some (UInt8.ofNat c.toNat) := by
  rw [encoded_append, encoded_cons_ascii ascii, ← length_encoded,
    List.getElem?_append_right (Nat.le_refl _), Nat.sub_self, List.getElem?_cons_zero]

end FormulaKeys.Text
