/-
This file puts the steps of the modules before it together. An object that stands for a
value is written as the literal of the value; the literal is a program of one expression;
and the expression, evaluated in whatever scope, gives an object that stands for the same
value. So writing a value and reading it back keeps classes, payloads and the order of
elements, entries and insertion, at every depth.
-/

import Offside.Proofs.Literal.Beginning
import Offside.Proofs.Literal.Parsing

namespace Offside

namespace World

open Exec

/-- The object is written as a text that is one expression, in whatever file. This expression gives
an object that stands for the value, in whatever scope it is evaluated, right after the writing or
at whatever later time, as long as the first object still stands for the value and the built-in
classes are as they were made. -/
def ReadsBack (world : World) (fuel : Nat) (ref : Ref) (literal : Literal) : Prop :=
  ∃ (text : String) (after : World), Exec.repr (.ofFuel fuel) ref world = .ok text after ∧
    after.Intact ∧ after.Represents ref literal ∧
    ∀ file : String, ∃ (location : Location) (expression : Expr),
      Program.parse file text = .ok [.simple location (.expression expression)] ∧
      ∀ (env : Env) (later : World), later.Intact → later.Represents ref literal →
        ∃ (result : Ref) (last : World),
          evaluate (.ofFuel fuel) env expression later = .ok result last ∧
          last.Represents result literal

/-- What an object that stands for a value is written as is read back as an object that stands for
the same value. -/
theorem Represents.reads_back {world : World} {ref : Ref} {literal : Literal} {fuel : Nat}
    (represented : world.Represents ref literal) (wellFormed : literal.WellFormed)
    (intact : world.Intact) (enough : literal.depth < fuel) :
    world.ReadsBack fuel ref literal := by
  obtain ⟨after, written, grows⟩ := writes_literal literal fuel wellFormed enough intact represented
  have intactAfter := intact.grow grows fun _ impossible => impossible.elim
  refine ⟨literal.text, after, written, intactAfter, represented.grow grows, fun file => ?_⟩
  refine ⟨⟨file, 1⟩, literal.tree ⟨file, 1⟩, Program.parse_text file wellFormed, ?_⟩
  intro env later intactLater representedLater
  obtain ⟨fuel, rfl⟩ := Nat.exists_eq_add_one_of_ne_zero (Nat.ne_zero_of_lt enough)
  obtain ⟨result, last, evaluated, made⟩ := evaluates_literal env ⟨file, 1⟩ literal fuel wellFormed
    intactLater (RepresentsIn.keeps literal representedLater)
  exact ⟨result, last, evaluated,
    RepresentsIn.grow (.refl last) (fun _ _ => ⟨trivial, id⟩) literal made.represents⟩

/-- A dict whose value is a tuple with a negative number, a text with a quote and the absent value,
made right at the beginning of a session. -/
theorem beginning_dict_reads_back :
    let literal : Literal := .dict [(.bool true, .tuple [.int (-5), .str "it's", .none])]
    ∃ (ref : Ref) (world : World),
      evaluate (.ofFuel 3) [] (literal.tree ⟨"session", 1⟩)
        (beginning { files := ⟨"/", []⟩, input := "", output := "" } []) = .ok ref world ∧
      (world.Represents ref literal ∧ literal.WellFormed ∧ world.Intact ∧ literal.depth < 3) ∧
      world.ReadsBack 3 ref literal := by
  intro literal
  have wellFormed : literal.WellFormed := by
    simp [literal, Literal.WellFormed, Literal.WellFormedEntries, Literal.WellFormedAll,
      Literal.Hashable]
    decide
  have intact := beginning_intact { files := ⟨"/", []⟩, input := "", output := "" } []
  obtain ⟨ref, world, evaluated, made⟩ := evaluates_literal [] ⟨"session", 1⟩ literal 2 wellFormed
    intact (beginning_keeps _ _ _)
  have represented : world.Represents ref literal :=
    RepresentsIn.grow (.refl world) (fun _ _ => ⟨trivial, id⟩) literal made.represents
  have intactWorld := intact.grow made.grows fun _ impossible => impossible.elim
  have enough : literal.depth < 3 := by decide
  exact ⟨ref, world, evaluated, ⟨represented, wellFormed, intactWorld, enough⟩,
    represented.reads_back wellFormed intactWorld enough⟩

end World

end Offside
