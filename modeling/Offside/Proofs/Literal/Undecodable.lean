/-
This file says which texts come back when they are written as literals and the literals are
read. A literal holds the characters that its text is gone through by, whatever bytes the
text has. The quotes around them are chosen by the bytes, but that makes no difference: a
byte of its own, as that of a quote is, is part of no other character. So every literal is
read back, and what it gives are the bytes of these characters. They are those of the text
exactly if the text is made of characters.

A line that is read may have bytes in it that are not.
-/

import Offside.Eval.Expression
import Offside.Library.Streams
import Offside.Proofs.Literal.Parsing
import Offside.Proofs.Searching.Places

namespace Offside.Text

/-! ### Characters of a single byte -/

section Single

variable {c : Char} {byte : UInt8}

/-- A byte that is a character of its own is part of no other. -/
theorem mem_bytes_iff (single : String.utf8EncodeChar c = [byte]) {text : List Char} :
    byte ∈ bytes text ↔ c ∈ text := by
  have alone : bytes [c] = [byte] := by rw [bytes_cons, single]; rfl
  constructor
  · intro inside
    obtain ⟨before, after, split⟩ := List.append_of_mem inside
    have stands : StandsAt (bytes [c]) (bytes text) before.length := by
      rw [StandsAt, alone, split, List.drop_left]
      exact ⟨after, rfl⟩
    obtain ⟨place, -, -, found⟩ := exists_standsAt_of_bytes (List.cons_ne_nil _ _) stands
    exact List.mem_of_mem_drop (found.subset List.mem_cons_self)
  · intro inside
    refine List.mem_flatMap.mpr ⟨c, inside, ?_⟩
    rw [single]
    exact List.mem_cons_self

/-- Nor is it taken for the replacement character. -/
theorem mem_decode_iff (single : String.utf8EncodeChar c = [byte]) {text : List UInt8} :
    c ∈ decode text ↔ byte ∈ text := by
  induction text using decode.induct with
  | case1 => simp [decode]
  | case2 first rest d leads inductionHypothesis =>
    obtain ⟨behind, same⟩ := exists_of_leading? leads
    have ends : (first :: rest).drop d.utf8Size = behind := by
      rw [same, ← String.length_utf8EncodeChar, List.drop_left]
    have own : byte ∈ String.utf8EncodeChar d ↔ c = d := by
      rw [← List.mem_singleton, ← mem_bytes_iff single, bytes_cons]
      simp [bytes]
    rw [ends] at inductionHypothesis
    rw [same, decode_append, List.mem_cons, List.mem_append, own, inductionHypothesis]
  | case3 first rest leads inductionHypothesis =>
    have notFirst : byte ≠ first := by
      rintro rfl
      have begins := leading?_append c rest
      rw [single, List.singleton_append, leads] at begins
      cases begins
    have notReplacement : c ≠ replacement := by
      rintro rfl
      have three : (String.utf8EncodeChar replacement).length = 3 := by decide
      rw [single] at three
      cases three
    rw [decode, leads]
    simp [inductionHypothesis, notFirst, notReplacement]

end Single

/-! ### Literals -/

/-- The delimiter is the one that the characters ask for. -/
theorem quoteBytes_eq (text : List UInt8) : quoteBytes text = bytes (quoteChars (decode text)) := by
  have same {c : Char} {byte : UInt8} (single : String.utf8EncodeChar c = [byte]) :
      text.contains byte = (decode text).contains c := by
    rw [Bool.eq_iff_iff, List.contains_iff_mem, List.contains_iff_mem, mem_decode_iff single]
  rw [quoteBytes, quoteChars, quoteDelimiter, same (c := '\'') (by decide),
    same (c := '"') (by decide)]

/-- Of a text of characters it is the literal that there is for these. -/
theorem quoteBytes_bytes (text : String) :
    quoteBytes (bytes text.toList) = bytes (quote text).toList := by
  rw [quoteBytes_eq, decode_bytes, quote, String.toList_ofList]

/-- The first line of a text of characters is the one that they have. -/
theorem firstLine_bytes (input : String) :
    firstLine (bytes input.toList) = bytes (Library.splitLine input).1.toList := by
  rw [Library.splitLine, String.toList_ofList]
  induction input.toList with
  | nil => rfl
  | cons c text inductionHypothesis =>
    by_cases ends : c = '\n'
    · subst ends
      rfl
    · have apart (byte : UInt8) (inside : byte ∈ String.utf8EncodeChar c) : byte ≠ 0x0A := by
        rintro rfl
        have single : String.utf8EncodeChar '\n' = [0x0A] := by decide
        have own : (0x0A : UInt8) ∈ bytes [c] := List.mem_flatMap.mpr ⟨c, List.mem_cons_self, inside⟩
        rw [mem_bytes_iff single, List.mem_singleton] at own
        exact ends own.symm
      rw [firstLine, bytes_cons, List.takeWhile_append_of_pos (by simpa using apart),
        List.takeWhile_cons_of_pos (by simpa using ends), bytes_cons, ← inductionHypothesis,
        firstLine]

/-! ### Reading back -/

/-- Whatever bytes a text has, its literal is read as one expression. It stands for the characters
that the text is gone through by. -/
theorem parse_quoteBytes (file : String) (text : List UInt8) :
    Program.parse file (String.ofList (decode (quoteBytes text))) =
      .ok [.simple ⟨file, 1⟩ (.expression (.string ⟨file, 1⟩ (String.ofList (decode text))))] := by
  have wellFormed : (Literal.str (String.ofList (decode text))).WellFormed := trivial
  have parsed := Program.parse_text file wellFormed
  rw [Literal.text, Literal.chars, String.toList_ofList] at parsed
  rw [quoteBytes_eq, decode_bytes, parsed]
  rfl

/-- A text is read back from its literal exactly if its bytes are those of characters. -/
theorem reads_back_iff (file : String) (text : List UInt8) :
    (∃ location value, Program.parse file (String.ofList (decode (quoteBytes text))) =
        .ok [.simple location (.expression (.string location value))] ∧
      bytes value.toList = text) ↔ ∃ characters, bytes characters = text := by
  rw [← bytes_decode_iff, parse_quoteBytes]
  constructor
  · rintro ⟨location, value, same, written⟩
    cases same
    rwa [String.toList_ofList] at written
  · intro written
    exact ⟨_, _, rfl, by rwa [String.toList_ofList]⟩

theorem evaluate_string (machine : Machine) (env : Env) (location : Location) (value : String)
    (world : World) : ∃ ref after,
      Exec.evaluate machine env (.string location value) world = .ok ref after ∧
        after.payload ref = .str value :=
  ⟨⟨world.objects.size⟩, _, rfl, by simp [World.payload, World.object]⟩

/-- A line with a single byte that begins no character. Its literal is read as that of the
replacement character, wherever it is evaluated, and this has other bytes. -/
theorem line_not_read_back :
    let line := firstLine [0xFF, 0x0A]
    line = [0xFF] ∧
    (∃ expression, Program.parse "session" (String.ofList (decode (quoteBytes line))) =
        .ok [.simple ⟨"session", 1⟩ (.expression expression)] ∧
      ∀ (machine : Machine) (env : Env) (world : World), ∃ ref after,
        Exec.evaluate machine env expression world = .ok ref after ∧
          after.payload ref = .str "\uFFFD") ∧
    bytes "\uFFFD".toList ≠ line := by
  intro line
  have decoded : decode line = [replacement] := by
    change decode [0xFF] = _
    rw [decode, show leading? [0xFF] = none by decide, decode]
  refine ⟨by decide, ⟨_, parse_quoteBytes "session" line, fun machine env world => ?_⟩, by decide⟩
  rw [decoded]
  exact evaluate_string machine env ⟨"session", 1⟩ "\uFFFD" world

end Offside.Text
