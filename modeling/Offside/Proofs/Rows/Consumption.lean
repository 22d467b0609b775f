/-
This file takes successful readings apart. A reading that consumes something is made of
parts that consume something each, so what a composed reading consumes is known as soon as
its parts are. A stream is read in one way only.
-/

import Offside.Proofs.Literal.Parsing
import Offside.Proofs.Rows.Turns

namespace Offside

namespace Reading

section Inversion

variable {α β : Type} {stream left : Stream}

theorem consumes_bind_iff {first : Reading α} {next : α → Reading β} {result : β} :
    Consumes (first >>= next) stream result left ↔
      ∃ value middle, Consumes first stream value middle ∧
        Consumes (next value) middle result left := by
  refine ⟨fun ⟨bound, read⟩ => ?_, fun ⟨value, middle, consumes, after⟩ => consumes.bind after⟩
  simp only [Bind.bind] at read
  split at read
  · cases read
  next value middle further done =>
    split at read
    · cases read
    next last rest final lastDone =>
      cases read
      exact ⟨value, middle, ⟨further, done⟩, ⟨final, lastDone⟩⟩

theorem consumes_pure_iff {value result : α} :
    Consumes (pure value) stream result left ↔ result = value ∧ left = stream := by
  refine ⟨fun ⟨bound, read⟩ => ?_, fun ⟨same, sameLeft⟩ => ?_⟩
  · cases read
    exact ⟨rfl, rfl⟩
  · subst same sameLeft
    exact consumes_pure _ _

theorem consumes_map_iff {change : α → β} {reading : Reading α} {result : β} :
    Consumes (change <$> reading) stream result left ↔
      ∃ value, Consumes reading stream value left ∧ result = change value := by
  have unfolded : change <$> reading = reading >>= fun value => pure (change value) := rfl
  rw [unfolded, consumes_bind_iff]
  refine exists_congr fun value => ⟨fun ⟨middle, consumes, last⟩ => ?_,
    fun ⟨consumes, same⟩ => ⟨left, consumes, consumes_pure_iff.mpr ⟨same, rfl⟩⟩⟩
  obtain ⟨rfl, rfl⟩ := consumes_pure_iff.mp last
  exact ⟨consumes, rfl⟩

theorem not_consumes_fail {location : Location} {fault : ParseFault} {value : α} :
    ¬Consumes (fail location fault) stream value left := by
  rintro ⟨_, impossible⟩
  cases impossible

theorem consumes_lift_iff {result : Except ParseError α} {value : α} :
    Consumes (lift result) stream value left ↔ result = .ok value ∧ left = stream := by
  refine ⟨fun ⟨bound, read⟩ => ?_, fun ⟨found, same⟩ => ?_⟩
  · cases result <;> cases read
    exact ⟨rfl, rfl⟩
  · subst same
    exact consumes_lift found _

/-- A stream is read in one way. -/
theorem Consumes.unique {reading : Reading α} {value other : α} {otherLeft : Stream}
    (consumes : Consumes reading stream value left)
    (consumesToo : Consumes reading stream other otherLeft) : value = other ∧ left = otherLeft := by
  obtain ⟨bound, read⟩ := consumes
  obtain ⟨boundToo, readToo⟩ := consumesToo
  cases read.symm.trans readToo
  exact ⟨rfl, rfl⟩

theorem consumes_advance_iff {head : Token} {rest : Stream} {value : Unit} :
    Consumes advance (.token head rest) value left ↔ ahead rest = .ok () ∧ left = rest := by
  refine ⟨fun ⟨bound, read⟩ => ?_, fun ⟨ready, same⟩ => ?_⟩
  · unfold advance at read
    dsimp only at read
    split at read
    next ready =>
      cases read
      exact ⟨ready, rfl⟩
    next => cases read
  · subst same
    exact consumes_advance ready

theorem consumes_row_iff {stop : List Kind} {items : List Item} :
    Consumes (row stop) stream items left ↔ Row.collect stop [] [] stream = .ok (items, left) := by
  refine ⟨fun ⟨bound, read⟩ => ?_, consumes_row⟩
  unfold row at read
  split at read
  next collected =>
    cases read
    exact collected
  next => cases read

/-- The place of the next token is looked up and nothing is read. -/
theorem exists_here (stream : Stream) : ∃ location, ∀ value left,
    Consumes here stream value left ↔ value = location ∧ left = stream := by
  cases stream <;> exact ⟨_, fun value left => consumes_pure_iff⟩

theorem consumes_expression_iff {stop : List Kind} {value : Expr} :
    Consumes (expression stop) stream value left ↔ ∃ items,
      Row.collect stop [] [] stream = .ok (items, left) ∧ Ladder.reduce items = .ok value := by
  obtain ⟨location, place⟩ := exists_here stream
  rw [expression, consumes_bind_iff]
  constructor
  · rintro ⟨found, middle, looked, rest⟩
    obtain ⟨rfl, rfl⟩ := (place found middle).mp looked
    obtain ⟨items, middle, collected, reduced⟩ := consumes_bind_iff.mp rest
    refine ⟨items, ?_⟩
    cases items with
    | nil =>
      obtain ⟨_, _, -, impossible⟩ := consumes_bind_iff.mp reduced
      exact absurd impossible not_consumes_fail
    | cons item items =>
      obtain ⟨reduces, rfl⟩ := consumes_lift_iff.mp reduced
      exact ⟨consumes_row_iff.mp collected, reduces⟩
  · rintro ⟨items, collected, reduces⟩
    refine ⟨location, stream, (place _ _).mpr ⟨rfl, rfl⟩, ?_⟩
    refine (consumes_row collected).bind ?_
    cases items with
    | nil =>
      obtain ⟨derivation, yields, -⟩ := Ladder.derivation_of_foldAll reduces
      exact absurd yields derivation.yield_ne_nil
    | cons item items => exact consumes_lift reduces _

/-- What becomes of a list without an end of its own behind an item: a comma opens another item. -/
def GoesOn (item : List α → Reading α) (done : List α) (middle : Stream) (result : List α × Bool)
    (left : Stream) : Prop :=
  (∃ location next rest, middle = .token ⟨.symbol .comma, location⟩ (.token next rest) ∧
    Consumes (commaSeparated item (fun _ => false) done) (.token next rest) result left) ∨
  (∃ location, middle = .token ⟨.symbol .comma, location⟩ .ended ∧ result = (done.reverse, true) ∧
    left = .ended) ∨
  (∀ location rest, middle ≠ .token ⟨.symbol .comma, location⟩ rest) ∧
    result = (done.reverse, false) ∧ left = middle

theorem consumes_commaSeparated_iff {item : List α → Reading α} {done : List α}
    {result : List α × Bool} :
    Consumes (commaSeparated item (fun _ => false) done) stream result left ↔
      ∃ value middle, Consumes (item done) stream value middle ∧
        GoesOn item (value :: done) middle result left := by
  constructor
  · rintro ⟨bound, read⟩
    cases lists_of_commaSeparated read with
    | @last _ _ _ value further itemRead noComma =>
      exact ⟨value, left, ⟨further, itemRead⟩, .inr (.inr ⟨noComma, rfl, rfl⟩)⟩
    | @closed _ _ _ value location further itemRead ready atEnd =>
      refine ⟨value, _, ⟨further, itemRead⟩, .inr (.inl ⟨location, ?_⟩)⟩
      cases left with
      | failed => cases ready
      | ended => exact ⟨rfl, rfl, rfl⟩
      | token next rest => cases atEnd next rest rfl
    | @more _ _ rest _ value location next _ further itemRead _ others =>
      exact ⟨value, _, ⟨further, itemRead⟩, .inl ⟨location, next, rest, rfl, others.exists_eq⟩⟩
  · rintro ⟨value, middle, ⟨further, itemRead⟩, ⟨location, next, rest, rfl, bound, moreRead⟩ |
      ⟨location, rfl, rfl, rfl⟩ | ⟨noComma, rfl, rfl⟩⟩
    · exact (Lists.more itemRead Bool.false_ne_true (lists_of_commaSeparated moreRead)).exists_eq
    · exact (Lists.closed itemRead rfl nofun).exists_eq
    · exact (Lists.last itemRead noComma).exists_eq

theorem Consumes.size_le {reading : Reading α} {value : α}
    (consumes : Consumes reading stream value left) : left.size ≤ stream.size :=
  consumes.1

theorem GoesOn.size_le {item : List α → Reading α} {done : List α} {middle : Stream}
    {result : List α × Bool} (goesOn : GoesOn item done middle result left) :
    left.size ≤ middle.size := by
  obtain ⟨location, next, rest, rfl, moreRead⟩ | ⟨location, rfl, -, rfl⟩ | ⟨-, -, rfl⟩ := goesOn
  · exact Nat.le_trans moreRead.size_le (Nat.le_succ _)
  · exact Nat.zero_le _
  · exact Nat.le_refl _

/-- All items that were there before stay, and at least one follows. -/
theorem Consumes.commaSeparated_prefix {item : List α → Reading α} {done : List α}
    {result : List α × Bool}
    (consumes : Consumes (commaSeparated item (fun _ => false) done) stream result left) :
    ∃ more, more ≠ [] ∧ result.1 = done.reverse ++ more := by
  induction size : stream.size using Nat.strongRecOn generalizing stream done with
  | ind size inductionHypothesis =>
    obtain ⟨value, middle, ⟨further, -⟩, ⟨location, next, rest, rfl, moreRead⟩ |
      ⟨location, rfl, rfl, -⟩ | ⟨-, rfl, -⟩⟩ := consumes_commaSeparated_iff.mp consumes
    · obtain ⟨more, -, same⟩ := inductionHypothesis _
        (by rw [← size]; exact Nat.lt_of_succ_le further) moreRead rfl
      refine ⟨value :: more, List.cons_ne_nil _ _, ?_⟩
      rw [same, List.reverse_cons, List.append_assoc]
      rfl
    · exact ⟨[value], List.cons_ne_nil _ _, List.reverse_cons⟩
    · exact ⟨[value], List.cons_ne_nil _ _, List.reverse_cons⟩

end Inversion

end Reading

end Offside
