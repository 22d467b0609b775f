/-
This file says which special method an operator finds in a value, if no program has
changed the built-in classes. A class then has its methods, its name and its base and
nothing else, so the method is the one that the class lists, or else the one that its
base lists; and where neither lists one there is none.
-/

import Offside.Proofs.Arithmetic
import Offside.Proofs.Inheritance
import Offside.Proofs.Subtraction

namespace Offside

/-- The method that values of a class have under a name, with the class that lists it. -/
def BuiltinClass.method? (builtin : BuiltinClass) (name : String) :
    Option (BuiltinClass × Method) :=
  match builtin.methods.lookup name with
  | some method => some (builtin, method)
  | none => builtin.base?.bind fun base =>
    (base.methods.lookup name).map fun method => (base, method)

/-- Every class has an object of its own. -/
theorem BuiltinClass.ref_injective : Function.Injective BuiltinClass.ref := by
  intro builtin other same
  have placed : BuiltinClass.ofNat builtin.ctorIdx = BuiltinClass.ofNat other.ctorIdx :=
    congrArg BuiltinClass.ofNat (congrArg Ref.index same)
  rwa [BuiltinClass.ofNat_ctorIdx, BuiltinClass.ofNat_ctorIdx] at placed

/-- What a built-in class extends is no extension itself. -/
theorem BuiltinClass.base?_base? {builtin base : BuiltinClass}
    (extends_ : builtin.base? = some base) : base.base? = none := by
  cases builtin <;> cases extends_ <;> rfl

namespace World

open Exec

/-- The tables of the built-in classes hold what they were made with and nothing else, and the truth
values are there. -/
structure Unmodified (world : World) : Prop extends world.Intact where
  filled : ∀ builtin, world.Filled builtin
  truth : ∀ value, (world.object (truthRef value)).class_ = BuiltinClass.bool.ref ∧
    world.payload (truthRef value) = .bool value

/-- So it is in the beginning. -/
theorem beginning_unmodified (host : Host) (searchPath : List String) :
    (beginning host searchPath).Unmodified where
  toIntact := beginning_intact host searchPath
  filled := (beginning_extends host searchPath).2
  truth value := by
    have single := beginning_keeps host searchPath [.truth value] (.truth value) List.mem_cons_self
    exact ⟨single.class_, single.payload⟩

namespace Unmodified

variable {world : World} (unmodified : world.Unmodified)

include unmodified

theorem get?_base (builtin : BuiltinClass) :
    (world.namespaceAt builtin.space).get? "__base__" = builtin.base?.map BuiltinClass.ref := by
  have unlisted : "__base__" ∉ builtin.methods.map Prod.fst := by
    cases builtin <;> decide
  rw [(unmodified.filled builtin).others "__base__" unlisted (by decide), if_pos rfl]

theorem base? (builtin : BuiltinClass) :
    world.base? builtin.ref = builtin.base?.map BuiltinClass.ref := by
  rw [World.base?, unmodified.ownAttribute?, unmodified.get?_base]
  cases builtin.base? with
  | none => rfl
  | some base =>
    dsimp only [Option.map_some]
    rw [isClass, unmodified.class_, beq_self_eq_true, if_pos rfl]

/-- A class is followed by its base, if it has one, and by nothing else. -/
theorem chain_eq (builtin : BuiltinClass) :
    world.chain builtin.ref = builtin.ref :: (builtin.base?.map BuiltinClass.ref).toList := by
  have extends_ := unmodified.base? builtin
  cases base : builtin.base? with
  | none =>
    rw [base] at extends_
    exact (BaseChain.last extends_).chain_eq
  | some parent =>
    rw [base] at extends_
    have root := unmodified.base? parent
    rw [BuiltinClass.base?_base? base] at root
    exact (BaseChain.extend extends_ (.last root)).chain_eq

/-- What a class says under an ordinary name is the method that it lists. -/
theorem ownAttribute?_of_lookup {builtin : BuiltinClass} {name : String} {method : Method}
    (listed : builtin.methods.lookup name = some method) : ∃ function,
      world.ownAttribute? builtin.ref name = some function ∧
        world.RunsMethod function builtin name method := by
  obtain ⟨before, after, split, -⟩ := List.lookup_eq_some_iff.mp listed
  rw [unmodified.ownAttribute?]
  exact (unmodified.filled builtin).methods name method (by rw [split]; simp)

theorem ownAttribute?_of_lookup_eq_none {builtin : BuiltinClass} {name : String}
    (ordinary : isClassMarker name = false) (unlisted : builtin.methods.lookup name = none) :
    world.ownAttribute? builtin.ref name = none := by
  rw [isClassMarker, Bool.or_eq_false_iff, beq_eq_false_iff_ne, beq_eq_false_iff_ne] at ordinary
  rw [unmodified.ownAttribute?, (unmodified.filled builtin).others name _ ordinary.1,
    if_neg ordinary.2]
  intro listed
  obtain ⟨⟨same, method⟩, inside, rfl⟩ := List.mem_map.mp listed
  exact absurd (List.lookup_eq_none_iff.mp unlisted _ inside) (by simp)

/-- The method that a class or its base lists is found first. -/
theorem firstIn_method? {builtin owner : BuiltinClass} {name : String} {method : Method}
    (ordinary : isClassMarker name = false) (found : builtin.method? name = some (owner, method)) :
    ∃ function, world.firstIn (world.chain builtin.ref) name = some function ∧
      world.RunsMethod function owner name method := by
  rw [firstIn, unmodified.chain_eq, List.findSome?_cons]
  rw [BuiltinClass.method?] at found
  cases listed : builtin.methods.lookup name with
  | some own =>
    rw [listed] at found
    cases found
    obtain ⟨function, holds, runs⟩ := unmodified.ownAttribute?_of_lookup listed
    exact ⟨function, by rw [holds], runs⟩
  | none =>
    rw [listed] at found
    rw [unmodified.ownAttribute?_of_lookup_eq_none ordinary listed]
    obtain ⟨base, extends_, inherited⟩ := Option.bind_eq_some_iff.mp found
    obtain ⟨own, inBase, same⟩ := Option.map_eq_some_iff.mp inherited
    cases same
    obtain ⟨function, holds, runs⟩ := unmodified.ownAttribute?_of_lookup inBase
    refine ⟨function, ?_, runs⟩
    rw [extends_]
    simp [holds]

variable {ref : Ref} {builtin : BuiltinClass} {payload : Payload} {name : String}

/-- An operator finds the method that the class of a value or its base lists. -/
theorem answers_method? {owner : BuiltinClass} {method : Method}
    (plain : world.Plain ref builtin payload) (other : builtin ≠ .klass)
    (ordinary : isClassMarker name = false) (found : builtin.method? name = some (owner, method)) :
    world.Answers ref name method := by
  obtain ⟨function, first, runs⟩ := unmodified.firstIn_method? ordinary found
  exact ⟨function, owner, unmodified.present_of_runs runs, lookupOperator_of_firstIn plain.class_
    (plain.ownAttribute? name) other ordinary runs first, runs⟩

/-- Where neither lists a method, an operator finds nothing. -/
theorem lookupOperator_eq_none (plain : world.Plain ref builtin payload) (other : builtin ≠ .klass)
    (ordinary : isClassMarker name = false) (unlisted : builtin.method? name = none) :
    world.lookupOperator ref name = none := by
  have noClass : world.isClass ref = false := by
    rw [isClass, plain.class_, ref_ne_klass other]
  have nowhere : world.firstIn (world.chain builtin.ref) name = none := by
    rw [BuiltinClass.method?] at unlisted
    rw [firstIn, unmodified.chain_eq]
    cases listed : builtin.methods.lookup name with
    | some own =>
      rw [listed] at unlisted
      cases unlisted
    | none =>
      rw [listed] at unlisted
      rw [List.findSome?_cons, unmodified.ownAttribute?_of_lookup_eq_none ordinary listed]
      cases extends_ : builtin.base? with
      | none => rfl
      | some base =>
        rw [extends_] at unlisted
        have missing : base.methods.lookup name = none := Option.map_eq_none_iff.mp unlisted
        simp [unmodified.ownAttribute?_of_lookup_eq_none ordinary missing]
  rw [lookupOperator, noClass, if_neg Bool.false_ne_true, lookup, plain.ownAttribute?, noClass]
  simp only [Bool.false_eq_true, if_false, ordinary]
  rw [lookupInClass, plain.class_, nowhere, Option.map_none]

/-- A truth value that an operator gave is taken for what it is. -/
theorem truthy_truthRef (machine : Machine) (value : Bool) :
    truthy machine (truthRef value) world = .ok value world := by
  obtain ⟨class_, held⟩ := unmodified.truth value
  rw [World.payload] at held
  rw [truthy, read_bind, held, class_, beq_self_eq_true]
  rfl

/-- Classes stay as they are while new objects are made. -/
theorem grow {after : World} (grows : world.Grows after) : after.Unmodified where
  toIntact := unmodified.toIntact.extend grows.extends
  filled builtin := by
    have extends_ : world.Extends [] after := grows.extends
    refine ⟨fun name method listed => ?_, ?_⟩
    · obtain ⟨function, found, runs⟩ := (unmodified.filled builtin).methods name method listed
      refine ⟨function, ?_, runs.extend extends_⟩
      rw [namespaceAt, grows.spaces]
      exact found
    · rw [namespaceAt, grows.spaces]
      exact (unmodified.filled builtin).others
  truth value := by
    obtain ⟨class_, held⟩ := unmodified.truth value
    have bound : (truthRef value).index < world.objects.size := by
      refine bound_of_object fun absent => ?_
      rw [World.payload, absent] at held
      cases held
    rw [World.payload, grows.object _ bound id]
    exact ⟨class_, held⟩

end Unmodified

end World

end Offside
