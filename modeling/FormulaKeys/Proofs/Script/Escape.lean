import FormulaKeys.Proofs.Markup.Slice
import FormulaKeys.Proofs.Script.Literal

/-! Literals escaped in jumps.

The escaper writes behind what has been written so far. Along the bytes of a text it
jumps from one backslash, quote or line feed to the next; carriage returns are rare, and
are looked for in what has been jumped over. No jump ends inside a character, so what is
written is what escaping one character after the other gives.
-/

set_option autoImplicit false

namespace FormulaKeys.Script.Literal

open Markup (Spans chars?)
open String (utf8Len)

/-- The characters that a jump ends at. -/
def isStop (c : Char) : Bool := c == '\\' || c == '\'' || c == '\n'

theorem isStop_iff {c : Char} : isStop c = true ↔ c = '\\' ∨ c = '\'' ∨ c = '\n' := by
  simp [isStop, or_assoc]

theorem isStop_ascii (c : Char) (stop : isStop c = true) : c.toNat < 128 := by
  rcases isStop_iff.mp stop with rfl | rfl | rfl <;> decide

theorem isPlain_of_not_isStop {c : Char} (run : isStop c = false) (notReturn : c ≠ '\r') :
    isPlain c = true := by
  simp_all [isStop, isPlain]

/-- What is written for the byte that a jump ends at. -/
def stopEscape (byte : UInt8) : String :=
  match Char.ofUInt8 byte with
  | '\\' => "\\\\"
  | '\'' => "\\'"
  | _ => "\\n"

/-- Write the run behind `out`, in the parts that carriage returns divide it into. -/
def appendRun (out : String) (run : List Char) : String :=
  match run.splitOn '\r' with
  | [] => out
  | first :: parts =>
    parts.foldl (fun out part => out ++ "\\r" ++ String.ofList part) (out ++ String.ofList first)

/-- Write the text behind `out`, escaped. This fails where a slice or an index is out of range or a
slice is off the boundary of a character. -/
def appendEscaped? (out text : String) : Option String :=
  match (Text.bytes text).findIdx? fun byte => isStop (Char.ofUInt8 byte) with
  | none => some (appendRun out text.toList)
  | some index =>
    match chars? text 0 index, (Text.bytes text)[index]?,
      _found : chars? text (index + 1) text.utf8ByteSize with
    | some run, some byte, some rest =>
      appendEscaped? (appendRun out run ++ stopEscape byte) (String.ofList rest)
    | _, _, _ => none
termination_by text.utf8ByteSize
decreasing_by
  have := (Spans.of_chars? _found).stop_eq
  rw [String.utf8ByteSize_ofList]
  omega

/-! One jump, and then all of them. -/

theorem stopEscape_eq {c : Char} (stop : isStop c = true) :
    stopEscape (UInt8.ofNat c.toNat) = String.ofList (escapeChar c) := by
  rw [stopEscape, Text.ofUInt8_ascii (isStop_ascii c stop)]
  rcases isStop_iff.mp stop with rfl | rfl | rfl <;> rfl

theorem foldl_parts (parts : List (List Char)) (out : String) :
    parts.foldl (fun out part => out ++ "\\r" ++ String.ofList part) out =
      out ++ String.ofList (parts.flatMap (escapeChar '\r' ++ ·)) := by
  induction parts generalizing out with
  | nil => simp
  | cons part parts ih =>
    rw [List.foldl_cons, ih, List.flatMap_cons, String.ofList_append, String.ofList_append,
      String.append_assoc, String.append_assoc, String.append_assoc]
    rfl

/-- Between the parts stands what is written for a carriage return. -/
theorem splitOn_escaped {run first : List Char} {parts : List (List Char)}
    (plain : ∀ c ∈ run, isStop c = false) (divided : run.splitOn '\r' = first :: parts) :
    first ++ parts.flatMap (escapeChar '\r' ++ ·) = run.flatMap escapeChar := by
  induction run generalizing first parts with
  | nil =>
    cases divided
    rfl
  | cons c run ih =>
    rw [List.forall_mem_cons] at plain
    obtain ⟨more, behind, same⟩ := List.exists_cons_of_ne_nil (List.splitOn_ne_nil '\r' run)
    rw [List.splitOn_cons_eq_if_modifyHead, same] at divided
    rw [List.flatMap_cons, ← ih plain.2 same]
    by_cases isReturn : c = '\r'
    · subst isReturn
      cases divided
      simp
    · rw [if_neg (by simpa using isReturn)] at divided
      cases divided
      rw [escapeChar_of_isPlain (isPlain_of_not_isStop plain.1 isReturn)]
      rfl

theorem appendRun_eq {run : List Char} (plain : ∀ c ∈ run, isStop c = false) (out : String) :
    appendRun out run = out ++ String.ofList (run.flatMap escapeChar) := by
  obtain ⟨first, parts, divided⟩ := List.exists_cons_of_ne_nil (List.splitOn_ne_nil '\r' run)
  rw [appendRun, divided, ← splitOn_escaped plain divided, String.ofList_append,
    ← String.append_assoc]
  exact foldl_parts parts _

theorem appendEscaped?_of_plain {chars : List Char} (plain : ∀ c ∈ chars, isStop c = false)
    (out : String) :
    appendEscaped? out (String.ofList chars) =
      some (out ++ String.ofList (chars.flatMap escapeChar)) := by
  rw [appendEscaped?, Text.bytes_ofList, Text.findIdx?_encoded isStop_ascii,
    List.findIdx?_eq_none_iff.mpr plain]
  simp only [Option.map_none, String.toList_ofList, appendRun_eq plain]

/-- A jump writes what stands in front of its end and the end itself. -/
theorem appendEscaped?_of_stop {first : List Char} {c : Char}
    (plain : ∀ d ∈ first, isStop d = false) (stop : isStop c = true) (rest : List Char)
    (out : String) :
    appendEscaped? out (String.ofList (first ++ c :: rest)) =
      appendEscaped? (out ++ String.ofList ((first ++ [c]).flatMap escapeChar))
        (String.ofList rest) := by
  have whole := Spans.whole (String.ofList (first ++ c :: rest))
  rw [String.toList_ofList] at whole
  -- What is jumped over and what is left are slices between boundaries.
  have front := whole.split.1
  rw [Nat.zero_add] at front
  have behind := whole.split.2.tail
  rw [Text.utf8Size_ascii (isStop_ascii c stop), Nat.zero_add] at behind
  rw [appendEscaped?, Text.bytes_ofList,
    Text.findIdx?_encoded_append isStop_ascii plain stop rest]
  simp only [front.chars?_eq, Text.getElem?_encoded (isStop_ascii c stop)]
  split
  next ran here found =>
    cases ran
    cases here
    cases behind.chars?_eq.symm.trans found
    rw [appendRun_eq plain, stopEscape_eq stop, String.append_assoc, ← String.ofList_append,
      List.flatMap_append, List.flatMap_singleton]
  next refused => exact (refused _ _ _ rfl rfl behind.chars?_eq).elim

theorem appendEscaped?_ofList (chars : List Char) (out : String) :
    appendEscaped? out (String.ofList chars) =
      some (out ++ String.ofList (chars.flatMap escapeChar)) := by
  rcases Text.plain_or_cut isStop chars with plain | ⟨first, c, rest, rfl, plain, stop⟩
  · exact appendEscaped?_of_plain plain out
  · rw [appendEscaped?_of_stop plain stop, appendEscaped?_ofList rest, String.append_assoc,
      ← String.ofList_append, ← List.flatMap_append, ← List.append_cons]
termination_by chars.length

/-- No slice of the escaper fails, and it comes to an end. Whatever was written before, it writes
behind it one character after the other, escaped; and a reader of literals takes what it has written
for the text, up to the closing quote and no further. -/
theorem appendEscaped?_reads_back (out text : String) :
    appendEscaped? out text = some (out ++ escape text) ∧
      (escape text).toList = text.toList.flatMap escapeChar ∧
      ∀ rest, read? ((escape text).toList ++ '\'' :: rest) = some (text.toList, rest) := by
  have written : (escape text).toList = escapeRuns text.toList := String.toList_ofList
  refine ⟨?_, written.trans (escapeRuns_eq_flatMap text.toList), fun rest => ?_⟩
  · have escaped := appendEscaped?_ofList text.toList out
    rwa [String.ofList_toList, ← escapeRuns_eq_flatMap] at escaped
  · rw [written]
    exact read?_escapeRuns text.toList rest

/-- A carriage return is written where the jump to the line feed passes over it. -/
example : appendEscaped? "typeText('" "a\r\n'" = some "typeText('a\\r\\n\\'" := by decide +kernel

end FormulaKeys.Script.Literal
