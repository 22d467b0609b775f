/-
This file keeps texts as bytes. A text that a program holds need not be made of characters:
a line that is read may have any bytes in it. What goes through such a text character by
character comes upon bytes that begin none, and takes each of them for the replacement
character. So writing a text as a literal works for every text, and so does reading one,
but the literal of a text with such bytes has other bytes.

Everything else in this library has texts of characters, which are the texts whose bytes
are those of characters. For these, what is done here is what is done there.
-/

import Offside.Text.Quoted

namespace Offside.Text

/-- The bytes of a text, each character in one to four of them. -/
def bytes (text : List Char) : List UInt8 :=
  text.flatMap String.utf8EncodeChar

theorem toByteArray_bytes (text : List Char) : (bytes text).toByteArray = text.utf8Encode :=
  rfl

theorem bytes_cons (c : Char) (text : List Char) :
    bytes (c :: text) = String.utf8EncodeChar c ++ bytes text :=
  List.flatMap_cons

theorem bytes_append (first second : List Char) :
    bytes (first ++ second) = bytes first ++ bytes second :=
  List.flatMap_append

/-- Stands for a byte that begins no character. -/
def replacement : Char :=
  '\uFFFD'

/-- The character that bytes begin with. -/
def leading? (text : List UInt8) : Option Char :=
  text.toByteArray.utf8DecodeChar? 0

/-- The characters that a text is gone through by. -/
def decode : List UInt8 → List Char
  | [] => []
  | byte :: rest =>
    match leading? (byte :: rest) with
    | some c => c :: decode ((byte :: rest).drop c.utf8Size)
    | none => replacement :: decode rest
termination_by text => text.length
decreasing_by
  · have := c.utf8Size_pos
    simp only [List.length_drop, List.length_cons]
    omega
  · simp

/-- A text as a string literal, with the delimiter that its bytes ask for. -/
def quoteBytes (text : List UInt8) : List UInt8 :=
  let delimiter := if text.contains 0x27 && !text.contains 0x22 then '"' else '\''
  bytes (delimiter :: escapeChars delimiter (decode text) ++ [delimiter])

/-- The first line of what is left to read, without the line break. -/
def firstLine (input : List UInt8) : List UInt8 :=
  input.takeWhile (· != 0x0A)

/-! ### Bytes of characters -/

theorem leading?_append (c : Char) (rest : List UInt8) :
    leading? (String.utf8EncodeChar c ++ rest) = some c := by
  rw [leading?, List.toByteArray_append]
  exact ByteArray.utf8DecodeChar?_utf8EncodeChar_append

theorem exists_of_leading? {text : List UInt8} {c : Char} (leads : leading? text = some c) :
    ∃ rest, text = String.utf8EncodeChar c ++ rest := by
  obtain ⟨rest, same⟩ := ByteArray.exists_of_utf8DecodeChar?_eq_some leads
  have listed := congrArg (·.data.toList) same
  simp only [ByteArray.data_append, List.data_toByteArray, Array.toList_append] at listed
  exact ⟨rest.data.toList, listed⟩

theorem decode_append (c : Char) (rest : List UInt8) :
    decode (String.utf8EncodeChar c ++ rest) = c :: decode rest := by
  have leads := leading?_append c rest
  have behind : (String.utf8EncodeChar c ++ rest).drop c.utf8Size = rest := by
    rw [← String.length_utf8EncodeChar, List.drop_left]
  cases whole : String.utf8EncodeChar c ++ rest with
  | nil => exact absurd (List.append_eq_nil_iff.mp whole).1 String.utf8EncodeChar_ne_nil
  | cons byte others =>
    rw [whole] at leads behind
    rw [decode, leads]
    exact congrArg _ (congrArg _ behind)

/-- The characters whose bytes a text is are those that it is gone through by. -/
@[simp] theorem decode_bytes (text : List Char) : decode (bytes text) = text := by
  induction text with
  | nil => rw [bytes, List.flatMap_nil, decode]
  | cons c text inductionHypothesis => rw [bytes_cons, decode_append, inductionHypothesis]

/-- Going through a text and writing down the characters gives the same text exactly if its bytes
are those of characters. -/
theorem bytes_decode_iff {text : List UInt8} :
    bytes (decode text) = text ↔ ∃ characters, bytes characters = text := by
  constructor
  · exact fun same => ⟨_, same⟩
  · rintro ⟨characters, rfl⟩
    rw [decode_bytes]

end Offside.Text
