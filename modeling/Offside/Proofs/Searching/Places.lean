/-
This file says what the search for a piece of text finds: the first of all the places where
the piece stands, or nothing if it stands nowhere.

A text is searched by its characters, but it is kept as bytes, and a search may as well go
through those. Both find the same place. No byte inside of a character begins one, so the
bytes of a piece can only stand where one of the characters of the text begins; and from
there on, the bytes of the piece are those of the text only if the characters are.
-/

import Mathlib.Data.List.Infix
import Offside.Text.Bytes
import Offside.Text.Search

namespace Offside.Text

/-! ### Places -/

section Places

variable {α : Type} {piece text : List α} {place other : Nat}

/-- The piece stands at this place of the text. -/
def StandsAt (piece text : List α) (place : Nat) : Prop :=
  piece <+: text.drop place

/-- The first place of all where the piece stands. -/
def IsFirst (piece text : List α) (place : Nat) : Prop :=
  StandsAt piece text place ∧ ∀ earlier < place, ¬ StandsAt piece text earlier

theorem standsAt_zero : StandsAt piece text 0 ↔ piece <+: text :=
  Iff.rfl

theorem IsFirst.unique (first : IsFirst piece text place) (again : IsFirst piece text other) :
    place = other := by
  obtain before | same | behind := Nat.lt_trichotomy place other
  · exact absurd first.1 (again.2 place before)
  · exact same
  · exact absurd again.1 (first.2 other behind)

/-- The text has room for a piece at its first place. -/
theorem IsFirst.add_length_le (first : IsFirst piece text place) :
    place + piece.length ≤ text.length := by
  have room := first.1.length_le
  rw [List.length_drop] at room
  cases piece with
  | nil =>
    have start : place = 0 := by
      by_contra later
      exact first.2 0 (by omega) List.nil_prefix
    simp [start]
  | cons => simp only [List.length_cons] at room ⊢; omega

/-- Where a piece does not stand at the beginning, its places are those behind the first
character. -/
theorem isFirst_cons {first : α} (otherwise : ¬ StandsAt piece (first :: text) 0) :
    IsFirst piece (first :: text) (place + 1) ↔ IsFirst piece text place := by
  refine and_congr_right fun _ => ⟨fun none earlier before => ?_, fun none earlier before => ?_⟩
  · exact none (earlier + 1) (by omega)
  · cases earlier with
    | zero => exact otherwise
    | succ earlier => exact none earlier (by omega)

/-- A piece stands at a place exactly if it is what the text has from there on. -/
theorem standsAt_iff_take : StandsAt piece text place ↔
    (text.drop place).take piece.length = piece := by
  rw [StandsAt, List.prefix_iff_eq_take, eq_comm]

end Places

/-! ### Searching -/

section Searching

variable {piece text rest : List Char} {place : Nat}

theorem after?_eq_some_iff : after? piece text = some rest ↔ text = piece ++ rest := by
  induction piece generalizing text with
  | nil => simp [after?]
  | cons c piece inductionHypothesis =>
    cases text with
    | nil => simp [after?]
    | cons d text =>
      rw [after?]
      split
      · next same => simp [inductionHypothesis, same]
      · next different => simp [Ne.symm different]

theorem isSome_after?_iff : (after? piece text).isSome ↔ StandsAt piece text 0 := by
  simp only [Option.isSome_iff_exists, after?_eq_some_iff, standsAt_zero]
  exact exists_congr fun _ => eq_comm

/-- A text starts with a piece exactly if the piece stands at its beginning. -/
theorem startsWith_iff : startsWith piece text = true ↔ StandsAt piece text 0 :=
  isSome_after?_iff

/-- The search stops at the first place where the piece stands, and goes to the end if there is
none. -/
theorem cutFrom_cases (piece seen text : List Char) :
    (∃ place rest, IsFirst piece text place ∧
      cutFrom piece seen text = some (seen.reverse ++ text.take place, rest)) ∨
    (∀ place, ¬ StandsAt piece text place) ∧ cutFrom piece seen text = none := by
  induction text generalizing seen with
  | nil =>
    cases piece with
    | nil =>
      exact .inl ⟨0, [], ⟨List.nil_prefix, fun _ earlier => absurd earlier (Nat.not_lt_zero _)⟩,
        by simp [cutFrom]⟩
    | cons c piece =>
      refine .inr ⟨fun place stands => ?_, by simp [cutFrom]⟩
      simp [StandsAt] at stands
  | cons c text inductionHypothesis =>
    rw [cutFrom]
    by_cases here : StandsAt piece (c :: text) 0
    · obtain ⟨rest, after⟩ := Option.isSome_iff_exists.mp (isSome_after?_iff.mpr here)
      rw [after]
      exact .inl ⟨0, rest, ⟨here, fun _ earlier => absurd earlier (Nat.not_lt_zero _)⟩, by simp⟩
    · rw [Option.not_isSome_iff_eq_none.mp (mt isSome_after?_iff.mp here)]
      obtain ⟨place, rest, first, found⟩ | ⟨nowhere, missed⟩ := inductionHypothesis (c :: seen)
      · exact .inl ⟨place + 1, rest, (isFirst_cons here).mpr first, by simp [found]⟩
      · refine .inr ⟨fun place => ?_, missed⟩
        cases place with
        | zero => exact here
        | succ place => exact nowhere place

theorem find?_cases (piece text : List Char) :
    (∃ place, IsFirst piece text place ∧ find? piece text = some place) ∨
    (∀ place, ¬ StandsAt piece text place) ∧ find? piece text = none := by
  rw [find?, cut?]
  obtain ⟨place, rest, first, found⟩ | ⟨nowhere, missed⟩ := cutFrom_cases piece [] text
  · refine .inl ⟨place, first, ?_⟩
    have inside := first.add_length_le
    rw [found, Option.map_some, List.reverse_nil, List.nil_append, List.length_take_of_le (by omega)]
  · exact .inr ⟨nowhere, by rw [missed, Option.map_none]⟩

theorem occurs_eq_isSome_find? : occurs piece text = (find? piece text).isSome := by
  rw [occurs, find?, Option.isSome_map]

end Searching

/-! ### Bytes -/

section Bytes

variable {piece text : List Char} {place offset : Nat}

/-- The bytes of a text start with those of a piece exactly if the text starts with the piece. -/
theorem bytes_prefix_iff : bytes piece <+: bytes text ↔ piece <+: text := by
  constructor
  · rintro ⟨rest, same⟩
    refine List.isPrefix_of_utf8Encode_append_eq_utf8Encode rest.toByteArray ?_
    rw [← toByteArray_bytes, ← toByteArray_bytes, ← same, List.toByteArray_append]
  · rintro ⟨rest, rfl⟩
    exact ⟨bytes rest, (bytes_append piece rest).symm⟩

theorem exists_bytes_of_ne_nil (nonempty : piece ≠ []) :
    ∃ first rest, bytes piece = first :: rest ∧ first.IsUTF8FirstByte := by
  obtain ⟨c, others, rfl⟩ := List.exists_cons_of_ne_nil nonempty
  rw [bytes_cons]
  cases encoded : String.utf8EncodeChar c with
  | nil => exact absurd encoded String.utf8EncodeChar_ne_nil
  | cons first rest =>
    refine ⟨first, rest ++ bytes others, rfl, ?_⟩
    have leads := @UInt8.isUTF8FirstByte_getElem_zero_utf8EncodeChar c
    simpa only [encoded, List.getElem_cons_zero] using leads

/-- Inside of a character, no bytes of a piece begin. -/
theorem not_standsAt_inside (nonempty : piece ≠ []) {c : Char} (behind : 0 < offset)
    (inside : offset < (String.utf8EncodeChar c).length) :
    ¬ StandsAt (bytes piece) (bytes (c :: text)) offset := by
  obtain ⟨first, rest, begins, leads⟩ := exists_bytes_of_ne_nil nonempty
  rintro ⟨others, same⟩
  rw [begins, bytes_cons, List.drop_append_of_le_length inside.le,
    List.drop_eq_getElem_cons inside, List.cons_append, List.cons_append] at same
  rw [(List.cons.inj same).1, UInt8.isUTF8FirstByte_getElem_utf8EncodeChar] at leads
  omega

/-- Bytes of a piece only stand where the piece stands. -/
theorem exists_standsAt_of_bytes (nonempty : piece ≠ []) :
    StandsAt (bytes piece) (bytes text) offset →
      ∃ place ≤ text.length, (bytes (text.take place)).length = offset ∧
        StandsAt piece text place := by
  induction text generalizing offset with
  | nil =>
    intro stands
    obtain ⟨first, rest, begins, -⟩ := exists_bytes_of_ne_nil nonempty
    rw [StandsAt, begins] at stands
    simp [bytes] at stands
  | cons c text inductionHypothesis =>
    intro stands
    obtain rfl | behind := Nat.eq_zero_or_pos offset
    · exact ⟨0, Nat.zero_le _, rfl, bytes_prefix_iff.mp stands⟩
    · have outside : (String.utf8EncodeChar c).length ≤ offset :=
        Nat.not_lt.mp fun inside => not_standsAt_inside nonempty behind inside stands
      obtain ⟨further, rfl⟩ := Nat.exists_eq_add_of_le outside
      rw [StandsAt, bytes_cons, List.drop_append] at stands
      simp only [List.drop_of_length_le outside, Nat.add_sub_cancel_left, List.nil_append] at stands
      obtain ⟨place, inside, measured, found⟩ := inductionHypothesis stands
      refine ⟨place + 1, Nat.succ_le_succ inside, ?_, found⟩
      rw [List.take_succ_cons, bytes_cons, List.length_append, measured]

theorem StandsAt.bytes (stands : StandsAt piece text place) :
    StandsAt (bytes piece) (bytes text) (bytes (text.take place)).length := by
  have split : Text.bytes text = Text.bytes (text.take place) ++ Text.bytes (text.drop place) := by
    rw [← bytes_append, List.take_append_drop]
  rw [StandsAt, split, List.drop_left]
  exact bytes_prefix_iff.mpr stands

/-- The first place of a piece in the bytes of a text is behind as many characters as its first
place in the text. -/
theorem IsFirst.bytes (first : IsFirst piece text place) :
    IsFirst (bytes piece) (bytes text) (bytes (text.take place)).length := by
  refine ⟨first.1.bytes, fun earlier before stands => ?_⟩
  obtain rfl | nonempty := eq_or_ne piece []
  · obtain rfl : place = 0 := first.unique ⟨List.nil_prefix, fun _ => nofun⟩
    exact absurd before (Nat.not_lt_zero _)
  · obtain ⟨reached, inside, rfl, found⟩ := exists_standsAt_of_bytes nonempty stands
    have later : place ≤ reached := Nat.not_lt.mp fun early => first.2 reached early found
    have split : text.take reached = text.take place ++ (text.take reached).drop place := by
      rw [← List.take_append_drop place (text.take reached), List.take_take, min_eq_left later,
        List.drop_left' (List.length_take_of_le (later.trans inside))]
    rw [split, bytes_append, List.length_append] at before
    omega

/-- What stands nowhere in a text stands nowhere in its bytes. -/
theorem not_standsAt_bytes (nowhere : ∀ place, ¬ StandsAt piece text place) (offset : Nat) :
    ¬ StandsAt (bytes piece) (bytes text) offset := by
  intro stands
  have nonempty : piece ≠ [] := by
    rintro rfl
    exact nowhere 0 List.nil_prefix
  obtain ⟨place, -, -, found⟩ := exists_standsAt_of_bytes nonempty stands
  exact nowhere place found

end Bytes

end Offside.Text
