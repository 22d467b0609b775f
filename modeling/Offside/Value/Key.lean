/-
This file says when two objects are the same key of a dict or a set, and how
keys are hashed. Numbers, texts, truth values, the absent value and tuples are
compared by what they hold, everything else by identity; lists, dicts and sets
are no keys at all, and neither is a tuple that holds one.

An integer and a floating-point number are the same key if they are equal as
floating-point numbers. Nesting of tuples is bounded by the size of the heap.
-/

import Offside.Value.Class

namespace Offside

/-! ### Hashing -/

/-- One step of the hash of a sequence: the order of the parts matters. -/
def hashStep (hash part : UInt64) : UInt64 :=
  (hash ^^^ part) * 1099511628211

/-- Where the hash of a sequence starts. -/
def hashStart : UInt64 := 14695981039346656037

/-- The hash of a text, from its bytes. -/
def hashText (text : String) : UInt64 :=
  text.toUTF8.foldl (fun hash byte => hashStep hash byte.toUInt64) hashStart

/-- The hash of a floating-point number: that of the integer if it is one of less than 63 bits, and
its bits otherwise. -/
def hashFloat (number : Number.Double) : UInt64 :=
  let value := number.toFloat
  let whole := Number.intOfFloat value
  if value == Number.floatOfInt whole && value.abs < 9223372036854775808.0 then whole.toUInt64
  else number.bits

namespace World

/-- The object may be a key. -/
def isHashableWithin (world : World) : Nat → Ref → Bool
  | 0, _ => true
  | fuel + 1, ref =>
    match world.payload ref with
    | .list _ => false
    | .dict _ => false
    | .set _ => false
    | .tuple elements => elements.all (isHashableWithin world fuel)
    | _ => true

def isHashable (world : World) (ref : Ref) : Bool :=
  world.isHashableWithin (world.objects.size + 1) ref

/-- The hash of a key. Keys that are compared by identity are hashed by their place. -/
def keyHashWithin (world : World) : Nat → Ref → UInt64
  | 0, _ => 0
  | fuel + 1, ref =>
    match world.payload ref with
    | .none => 0x9e3779b97f4a7c15
    | .bool value => if value then 1 else 0
    | .int value => value.toUInt64
    | .float value => hashFloat value
    | .str text => hashText text
    | .tuple elements =>
      elements.foldl (fun hash element => hashStep hash (keyHashWithin world fuel element))
        hashStart
    | _ => UInt64.ofNat ref.index

def keyHash (world : World) (ref : Ref) : UInt64 :=
  world.keyHashWithin (world.objects.size + 1) ref

/-! ### Equality -/

/-- Two arrays agree position by position. -/
def pairwise (same : Ref → Ref → Bool) (left right : Array Ref) : Bool :=
  left.size == right.size && (left.zip right).all fun (first, second) => same first second

/-- Two objects are the same key. -/
def keyEqualWithin (world : World) : Nat → Ref → Ref → Bool
  | 0, _, _ => false
  | fuel + 1, left, right =>
    match world.payload left, world.payload right with
    | .int first, .int second => first == second
    | .int first, .float second => Number.floatOfInt first == second.toFloat
    | .float first, .int second => first.toFloat == Number.floatOfInt second
    | .float first, .float second => first.toFloat == second.toFloat
    | .str first, .str second => first == second
    | .bool first, .bool second => first == second
    | .none, .none => true
    | .tuple first, .tuple second => pairwise (keyEqualWithin world fuel) first second
    | .int _, _ => false
    | .float _, _ => false
    | .str _, _ => false
    | .bool _, _ => false
    | .none, _ => false
    | .tuple _, _ => false
    | _, _ => left == right

def keyEqual (world : World) (left right : Ref) : Bool :=
  world.keyEqualWithin (world.objects.size + 1) left right

/-! ### Tables -/

def tableGet? {α : Type} (world : World) (table : Table α) (key : Ref) : Option α :=
  table.get? world.keyEqual (world.keyHash key) key

def tableContains {α : Type} (world : World) (table : Table α) (key : Ref) : Bool :=
  table.contains world.keyEqual (world.keyHash key) key

/-- The place of a key in a table. -/
def tablePlace? {α : Type} (world : World) (table : Table α) (key : Ref) : Option Nat :=
  table.place? world.keyEqual (world.keyHash key) key

/-- Adds a key to the table of a set. -/
def tableAdd (world : World) (table : Table Unit) (key : Ref) : Table Unit :=
  table.add world.keyEqual (world.keyHash key) key ()

/-! ### Identity -/

/-- Two objects are identical: the same object, or single values of one kind that are equal. -/
def isSame (world : World) (left right : Ref) : Bool :=
  left == right ||
    match world.payload left, world.payload right with
    | .none, .none => true
    | .bool first, .bool second => first == second
    | .int first, .int second => first == second
    | .float first, .float second => first.toFloat == second.toFloat
    | .str first, .str second => first == second
    | _, _ => false

end World

end Offside
