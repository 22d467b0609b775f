/-
This file says what the objects that serve as keys stand for. A key without
floating-point numbers is a finite tree: a single value, a tuple of keys, or an object
that is its own key. Two objects are the same key exactly if their trees are equal, and
the hash of an object is that of its tree. So being the same key is an equivalence that
hashing respects, whatever the heap looks like.

Keys are followed into tuples only as deep as the heap is large. That is deep enough: on
the way down every tuple stands for a smaller tree than the one before, so no object is
met twice.
-/

import Mathlib.Data.List.Perm.Subperm
import Offside.Value.Key

namespace Offside

/-- What a key without floating-point numbers stands for. -/
inductive Key where
  | none
  | bool (value : Bool)
  | int (value : Int64)
  | str (value : String)
  /-- An object that is compared by identity. -/
  | object (ref : Ref)
  | tuple (elements : List Key)

/-- Objects with this payload are compared by identity. -/
def Payload.IsIdentity : Payload → Prop
  | .empty => True
  | .slice .. => True
  | .range .. => True
  | .iterator _ => True
  | _ => False

namespace Key

/-! ### Hash and depth -/

mutual

def hash : Key → UInt64
  | .none => 0x9e3779b97f4a7c15
  | .bool value => if value then 1 else 0
  | .int value => value.toUInt64
  | .str value => hashText value
  | .object ref => UInt64.ofNat ref.index
  | .tuple elements => hashAll hashStart elements

/-- The hash of a sequence that starts with the hash of what comes before. -/
def hashAll (start : UInt64) : List Key → UInt64
  | [] => start
  | first :: rest => hashAll (hashStep start first.hash) rest

end

mutual

/-- How many tuples stand inside of each other. -/
def depth : Key → Nat
  | .tuple elements => depthAll elements + 1
  | _ => 0

def depthAll : List Key → Nat
  | [] => 0
  | first :: rest => max first.depth (depthAll rest)

end

/-! ### Objects that stand for keys -/

mutual

/-- The object stands for the key. -/
def Denoted (world : World) : Key → Ref → Prop
  | .none, ref => world.payload ref = .none
  | .bool value, ref => world.payload ref = .bool value
  | .int value, ref => world.payload ref = .int value
  | .str value, ref => world.payload ref = .str value
  | .object same, ref =>
    same = ref ∧ ref.index < world.objects.size ∧ (world.payload ref).IsIdentity
  | .tuple keys, ref =>
    ∃ elements, world.payload ref = .tuple elements ∧ DenotedAll world keys elements.toList

/-- The objects stand for the keys, one by one. -/
def DenotedAll (world : World) : List Key → List Ref → Prop
  | [], [] => True
  | key :: keys, ref :: refs => Denoted world key ref ∧ DenotedAll world keys refs
  | _, _ => False

end

/-- What an object holds that stands for a key. -/
inductive Held (world : World) (ref : Ref) : Key → Payload → Prop where
  | none : Held world ref .none .none
  | bool (value : Bool) : Held world ref (.bool value) (.bool value)
  | int (value : Int64) : Held world ref (.int value) (.int value)
  | str (value : String) : Held world ref (.str value) (.str value)
  | object {payload : Payload} (identity : payload.IsIdentity) :
      Held world ref (.object ref) payload
  | tuple {keys : List Key} {elements : Array Ref}
      (parts : DenotedAll world keys elements.toList) :
      Held world ref (.tuple keys) (.tuple elements)

variable {world : World}

theorem Denoted.held {key : Key} {ref : Ref} (denoted : key.Denoted world ref) :
    key.Held world ref (world.payload ref) := by
  cases key with
  | none =>
    rw [show world.payload ref = .none from denoted]
    exact .none
  | bool value =>
    rw [show world.payload ref = .bool value from denoted]
    exact .bool value
  | int value =>
    rw [show world.payload ref = .int value from denoted]
    exact .int value
  | str value =>
    rw [show world.payload ref = .str value from denoted]
    exact .str value
  | object same =>
    obtain ⟨rfl, -, identity⟩ := denoted
    exact .object identity
  | tuple keys =>
    obtain ⟨elements, held, parts⟩ := denoted
    rw [held]
    exact .tuple parts

theorem Denoted.bound {key : Key} {ref : Ref} (denoted : key.Denoted world ref) :
    ref.index < world.objects.size := by
  by_contra outside
  have vacant : world.payload ref = .empty := by
    rw [World.payload, World.object, Array.getD_eq_getD_getElem?,
      Array.getElem?_eq_none (Nat.le_of_not_lt outside)]
    rfl
  have held := denoted.held
  rw [vacant] at held
  cases held with
  | object => exact outside denoted.2.1

mutual

/-- An object stands for one key only. -/
theorem Denoted.unique : (key : Key) → {other : Key} → {ref : Ref} → key.Denoted world ref →
    other.Denoted world ref → key = other
  | .tuple keys, other, ref, denoted, otherDenoted => by
    obtain ⟨elements, held, parts⟩ := denoted
    have otherHeld := otherDenoted.held
    rw [held] at otherHeld
    cases otherHeld with
    | tuple otherParts => rw [DenotedAll.unique keys parts otherParts]
    | object identity => exact identity.elim
  | .none, other, ref, denoted, otherDenoted | .bool value, other, ref, denoted, otherDenoted
  | .int value, other, ref, denoted, otherDenoted
  | .str value, other, ref, denoted, otherDenoted => by
    have otherHeld := otherDenoted.held
    rw [Denoted] at denoted
    rw [denoted] at otherHeld
    cases otherHeld with
    | object identity => exact identity.elim
    | _ => rfl
  | .object same, other, ref, denoted, otherDenoted => by
    obtain ⟨rfl, -, identity⟩ := denoted
    have otherHeld := otherDenoted.held
    generalize world.payload same = payload at identity otherHeld
    cases otherHeld with
    | object => rfl
    | none | bool | int | str | tuple => exact identity.elim

theorem DenotedAll.unique : (keys : List Key) → {others : List Key} → {refs : List Ref} →
    DenotedAll world keys refs → DenotedAll world others refs → keys = others
  | [], [], [], _, _ => rfl
  | key :: keys, other :: others, ref :: refs, denoted, otherDenoted => by
    rw [Denoted.unique key denoted.1 otherDenoted.1,
      DenotedAll.unique keys denoted.2 otherDenoted.2]
  | [], _ :: _, [], _, impossible | [], _ :: _, _ :: _, impossible, _ => by cases impossible
  | _ :: _, [], [], impossible, _ | _ :: _, [], _ :: _, _, impossible => by cases impossible
  | _ :: _, _ :: _, [], impossible, _ | [], [], _ :: _, impossible, _ => by cases impossible

end

/-- The objects that there were at the start hold what they held. -/
def Spares (start world : World) : Prop :=
  start.objects.size ≤ world.objects.size ∧
    ∀ ref, ref.index < start.objects.size → world.payload ref = start.payload ref

mutual

/-- What an object stands for depends on objects that were there before only. -/
theorem Denoted.spared {start : World} (spares : Spares start world) : (key : Key) → {ref : Ref} →
    key.Denoted start ref → key.Denoted world ref
  | .tuple keys, ref, denoted => by
    have same := spares.2 ref denoted.bound
    obtain ⟨elements, held, parts⟩ := denoted
    exact ⟨elements, same.trans held, DenotedAll.spared spares keys parts⟩
  | .none, ref, denoted | .bool _, ref, denoted | .int _, ref, denoted | .str _, ref, denoted =>
    (spares.2 ref denoted.bound).trans denoted
  | .object same, ref, ⟨equal, bound, identity⟩ =>
    ⟨equal, Nat.lt_of_lt_of_le bound spares.1, by rw [spares.2 ref bound]; exact identity⟩

theorem DenotedAll.spared {start : World} (spares : Spares start world) : (keys : List Key) →
    {refs : List Ref} → DenotedAll start keys refs → DenotedAll world keys refs
  | [], [], _ => trivial
  | key :: keys, _ :: _, denoted =>
    ⟨Denoted.spared spares key denoted.1, DenotedAll.spared spares keys denoted.2⟩

end

end Key

namespace World

open Key

variable {world : World}

/-! ### What may be a key -/

mutual

theorem isHashableWithin_key : (key : Key) → (fuel : Nat) → {ref : Ref} →
    key.Denoted world ref → world.isHashableWithin fuel ref = true
  | _, 0, _, _ => by rw [isHashableWithin]
  | .tuple keys, fuel + 1, ref, denoted => by
    obtain ⟨elements, held, parts⟩ := denoted
    rw [isHashableWithin, held]
    dsimp only
    rw [← Array.all_toList]
    exact isHashableWithin_keys keys fuel parts
  | .none, fuel + 1, ref, denoted | .bool _, fuel + 1, ref, denoted
  | .int _, fuel + 1, ref, denoted | .str _, fuel + 1, ref, denoted => by
    rw [Denoted] at denoted
    rw [isHashableWithin, denoted]
  | .object same, fuel + 1, ref, denoted => by
    obtain ⟨rfl, -, identity⟩ := denoted
    rw [isHashableWithin]
    generalize world.payload same = payload at identity
    cases payload <;> first | rfl | exact identity.elim

theorem isHashableWithin_keys : (keys : List Key) → (fuel : Nat) → {refs : List Ref} →
    DenotedAll world keys refs → refs.all (world.isHashableWithin fuel) = true
  | [], _, [], _ => rfl
  | key :: keys, fuel, ref :: refs, denoted => by
    rw [List.all_cons, isHashableWithin_key key fuel denoted.1,
      isHashableWithin_keys keys fuel denoted.2]
    rfl

end

/-! ### Hashes -/

mutual

theorem keyHashWithin_key : (key : Key) → (fuel : Nat) → {ref : Ref} → key.depth < fuel →
    key.Denoted world ref → world.keyHashWithin fuel ref = key.hash
  | _, 0, _, enough, _ => absurd enough (Nat.not_lt_zero _)
  | .tuple keys, fuel + 1, ref, enough, denoted => by
    obtain ⟨elements, held, parts⟩ := denoted
    rw [keyHashWithin, held]
    dsimp only
    rw [← Array.foldl_toList]
    exact keyHashWithin_keys keys fuel hashStart (Nat.lt_of_succ_lt_succ enough) parts
  | .none, fuel + 1, ref, _, denoted | .bool _, fuel + 1, ref, _, denoted
  | .int _, fuel + 1, ref, _, denoted | .str _, fuel + 1, ref, _, denoted => by
    rw [Denoted] at denoted
    rw [keyHashWithin, denoted]
    rfl
  | .object same, fuel + 1, ref, _, denoted => by
    obtain ⟨rfl, -, identity⟩ := denoted
    rw [keyHashWithin]
    generalize world.payload same = payload at identity
    cases payload <;> first | rfl | exact identity.elim

theorem keyHashWithin_keys : (keys : List Key) → (fuel : Nat) → (start : UInt64) →
    {refs : List Ref} → depthAll keys < fuel → DenotedAll world keys refs →
    refs.foldl (fun hash ref => hashStep hash (world.keyHashWithin fuel ref)) start =
      hashAll start keys
  | [], _, _, [], _, _ => rfl
  | key :: keys, fuel, start, ref :: refs, enough, denoted => by
    rw [List.foldl_cons, keyHashWithin_key key fuel
      (Nat.lt_of_le_of_lt (Nat.le_max_left _ _) enough) denoted.1, hashAll]
    exact keyHashWithin_keys keys fuel _ (Nat.lt_of_le_of_lt (Nat.le_max_right _ _) enough)
      denoted.2

end

/-! ### The same key -/

theorem pairwise_iff {fuel : Nat}
    (each : ∀ {key other : Key} {first second : Ref}, key.depth < fuel → key.Denoted world first →
      other.Denoted world second → (world.keyEqualWithin fuel first second = true ↔ key = other)) :
    ∀ {keys others : List Key} {firsts seconds : List Ref}, depthAll keys < fuel →
      DenotedAll world keys firsts → DenotedAll world others seconds →
      (firsts.length = seconds.length ∧ ((firsts.zip seconds).all fun (first, second) =>
        world.keyEqualWithin fuel first second) = true ↔ keys = others)
  | [], [], [], [], _, _, _ => by simp
  | [], _ :: _, [], _ :: _, _, _, _ => by simp
  | _ :: _, [], _ :: _, [], _, _, _ => by simp
  | key :: keys, other :: others, first :: firsts, second :: seconds, enough, denoted,
      otherDenoted => by
    have head := each (Nat.lt_of_le_of_lt (Nat.le_max_left _ _) enough) denoted.1 otherDenoted.1
    have tail := pairwise_iff each (Nat.lt_of_le_of_lt (Nat.le_max_right _ _) enough) denoted.2
      otherDenoted.2
    rw [List.zip_cons_cons, List.all_cons, Bool.and_eq_true, List.cons.injEq, ← head, ← tail,
      List.length_cons, List.length_cons, Nat.succ_inj]
    exact ⟨fun ⟨lengths, first, rest⟩ => ⟨first, lengths, rest⟩,
      fun ⟨first, lengths, rest⟩ => ⟨lengths, first, rest⟩⟩

theorem keyEqualWithin_of_identity {ref : Ref} (identity : (world.payload ref).IsIdentity)
    (fuel : Nat) (other : Ref) : world.keyEqualWithin (fuel + 1) ref other = (ref == other) := by
  rw [keyEqualWithin]
  generalize world.payload ref = payload at identity
  generalize world.payload other = otherPayload
  cases payload <;> first | exact identity.elim | cases otherPayload <;> rfl

/-- Objects are the same key exactly if they stand for the same. -/
theorem keyEqualWithin_iff (fuel : Nat) : ∀ {key other : Key} {first second : Ref},
    key.depth < fuel → key.Denoted world first → other.Denoted world second →
    (world.keyEqualWithin fuel first second = true ↔ key = other) := by
  induction fuel with
  | zero => exact fun enough => absurd enough (Nat.not_lt_zero _)
  | succ fuel inductionHypothesis =>
    intro key other first second enough denoted otherDenoted
    have held := denoted.held
    have otherHeld := otherDenoted.held
    cases key with
    | object same =>
      obtain ⟨rfl, bound, identity⟩ := denoted
      rw [keyEqualWithin_of_identity identity, beq_iff_eq]
      refine ⟨fun equal => ?_, fun equal => ?_⟩
      · subst equal
        exact Denoted.unique (.object same) ⟨rfl, bound, identity⟩ otherDenoted
      · subst equal
        exact otherDenoted.1
    | tuple keys =>
      obtain ⟨elements, same, parts⟩ := denoted
      rw [keyEqualWithin, same]
      generalize world.payload second = otherPayload at otherHeld
      cases otherHeld with
      | tuple otherParts =>
        dsimp only
        rw [pairwise, Bool.and_eq_true, beq_iff_eq, ← Array.all_toList, Array.toList_zip,
          Key.tuple.injEq]
        exact pairwise_iff inductionHypothesis (Nat.lt_of_succ_lt_succ enough) parts otherParts
      | object identity => cases otherPayload <;> first | exact identity.elim | simp
      | _ => simp
    | _ =>
      rw [keyEqualWithin]
      generalize world.payload first = payload at held
      generalize world.payload second = otherPayload at otherHeld
      cases held
      cases otherHeld with
      | object identity => cases otherPayload <;> first | exact identity.elim | simp
      | _ => simp

/-! ### The heap is deep enough -/

/-- Different objects that stand for keys of this size at most. -/
def Path (world : World) (size : Nat) (path : List Nat) : Prop :=
  path.Nodup ∧ ∀ place ∈ path, ∃ part : Key, part.Denoted world ⟨place⟩ ∧ sizeOf part ≤ size

theorem Path.mono {size larger : Nat} {path : List Nat} (isPath : world.Path size path)
    (fits : size ≤ larger) : world.Path larger path :=
  ⟨isPath.1, fun place inside => (isPath.2 place inside).imp fun _ found =>
    ⟨found.1, Nat.le_trans found.2 fits⟩⟩

mutual

/-- On the way down into a key one object is met for each tuple. -/
theorem exists_path : (key : Key) → {ref : Ref} → key.Denoted world ref →
    ∃ path, path.length = key.depth ∧ world.Path (sizeOf key) path
  | .tuple keys, ref, denoted => by
    obtain ⟨elements, held, parts⟩ := denoted
    obtain ⟨path, length, isPath⟩ := exists_path_of_all keys parts
    have larger : sizeOf keys < sizeOf (Key.tuple keys) := by simp
    refine ⟨ref.index :: path, congrArg (· + 1) length, List.nodup_cons.mpr ⟨?_, isPath.1⟩, ?_⟩
    · intro again
      obtain ⟨part, partDenoted, fits⟩ := isPath.2 _ again
      have same := Denoted.unique (.tuple keys) ⟨elements, held, parts⟩ partDenoted
      rw [← same] at fits
      omega
    · exact List.forall_mem_cons.mpr
        ⟨⟨.tuple keys, ⟨elements, held, parts⟩, Nat.le_refl _⟩,
          (isPath.mono (Nat.le_of_lt larger)).2⟩
  | .none, _, _ | .bool _, _, _ | .int _, _, _ | .str _, _, _ | .object _, _, _ =>
    ⟨[], rfl, .nil, by simp⟩

theorem exists_path_of_all : (keys : List Key) → {refs : List Ref} →
    DenotedAll world keys refs →
    ∃ path, path.length = depthAll keys ∧ world.Path (sizeOf keys) path
  | [], _, _ => ⟨[], rfl, .nil, by simp⟩
  | key :: keys, ref :: refs, denoted => by
    obtain ⟨path, length, isPath⟩ := exists_path key denoted.1
    obtain ⟨others, otherLength, otherPath⟩ := exists_path_of_all keys denoted.2
    obtain deeper | deeper := Nat.le_total key.depth (depthAll keys)
    · exact ⟨others, otherLength.trans (Nat.max_eq_right deeper).symm, otherPath.mono (by simp)⟩
    · exact ⟨path, length.trans (Nat.max_eq_left deeper).symm, isPath.mono (by simp; omega)⟩

end

theorem depth_le {key : Key} {ref : Ref} (denoted : key.Denoted world ref) :
    key.depth ≤ world.objects.size := by
  obtain ⟨path, length, distinct, parts⟩ := exists_path key denoted
  have fits : path ⊆ List.range world.objects.size := by
    intro place found
    obtain ⟨part, partDenoted, -⟩ := parts place found
    exact List.mem_range.mpr partDenoted.bound
  have shorter := (List.subperm_of_subset distinct fits).length_le
  rwa [length, List.length_range] at shorter

/-- The hash of an object is that of its key. -/
theorem keyHash_key {key : Key} {ref : Ref} (denoted : key.Denoted world ref) :
    world.keyHash ref = key.hash :=
  keyHashWithin_key key _ (Nat.lt_succ_of_le (depth_le denoted)) denoted

theorem keyEqual_iff {key other : Key} {first second : Ref} (denoted : key.Denoted world first)
    (otherDenoted : other.Denoted world second) :
    world.keyEqual first second = true ↔ key = other :=
  keyEqualWithin_iff _ (Nat.lt_succ_of_le (depth_le denoted)) denoted otherDenoted

/-! ### Which objects stand for keys -/

end World

/-- Objects with this payload are keys without floating-point numbers. -/
def Payload.IsSingleKey : Payload → Prop
  | .float _ => False
  | .list _ => False
  | .tuple _ => False
  | .dict _ => False
  | .set _ => False
  | _ => True

/-- The object may be a key and holds no floating-point number, however deep inside. -/
inductive World.IsPlainKey (world : World) : Ref → Prop where
  | single {ref : Ref} (bound : ref.index < world.objects.size)
      (single : (world.payload ref).IsSingleKey) : world.IsPlainKey ref
  | tuple {ref : Ref} {elements : Array Ref} (held : world.payload ref = .tuple elements)
      (parts : ∀ element ∈ elements.toList, world.IsPlainKey element) : world.IsPlainKey ref

theorem Key.exists_denotedAll {world : World} : ∀ {refs : List Ref},
    (∀ ref ∈ refs, ∃ key : Key, key.Denoted world ref) → ∃ keys, DenotedAll world keys refs
  | [], _ => ⟨[], trivial⟩
  | ref :: refs, each => by
    rw [List.forall_mem_cons] at each
    obtain ⟨⟨key, denoted⟩, others⟩ := each
    obtain ⟨keys, parts⟩ := exists_denotedAll others
    exact ⟨key :: keys, denoted, parts⟩

theorem World.IsPlainKey.exists_key {world : World} {ref : Ref} (plain : world.IsPlainKey ref) :
    ∃ key : Key, key.Denoted world ref := by
  induction plain with
  | @single ref bound single =>
    cases held : world.payload ref with
    | none => exact ⟨.none, held⟩
    | bool value => exact ⟨.bool value, held⟩
    | int value => exact ⟨.int value, held⟩
    | str value => exact ⟨.str value, held⟩
    | empty | slice | range | iterator => exact ⟨.object ref, rfl, bound, by rw [held]; trivial⟩
    | float | list | tuple | dict | set =>
      rw [held] at single
      exact single.elim
  | tuple held parts inductionHypothesis =>
    obtain ⟨keys, denoted⟩ := Key.exists_denotedAll inductionHypothesis
    exact ⟨.tuple keys, _, held, denoted⟩

end Offside
