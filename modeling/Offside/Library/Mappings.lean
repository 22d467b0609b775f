/-
This file holds the methods of dicts and sets. Both keep their entries in
insertion order, and both refuse keys that cannot be hashed before they look at
anything else. Going through one of them goes through the entries that were there
when it started; but the value of a dict's entry is read when its turn comes, so a
value that was replaced meanwhile is seen, and one that was deleted and stored
anew, which is another entry, is not.

A change is made in two steps: the place of the key is looked up first, and then
the entries are changed in place.
-/

import Offside.Library.Strings

namespace Offside.Library

open Exec

/-- The entries of a dict; other objects are refused. -/
def dictTable (self : Ref) : Exec (Table SlotId) := do
  match ← read (·.payload self) with
  | .dict table => return table
  | _ => complain (.wrongReceiver "dict" (← typeName self))

/-- The entries of a set; other objects are refused. -/
def setTable (self : Ref) : Exec (Table Unit) := do
  match ← read (·.payload self) with
  | .set table => return table
  | _ => complain (.wrongReceiver "set" (← typeName self))

/-- Adds an entry to a dict, in place. -/
def pushEntry (self : Ref) (code : UInt64) (key : Ref) (slot : SlotId) : Exec Unit :=
  modifyObject self fun object =>
    match object with
    | ⟨class_, space, .dict table, function⟩ =>
      ⟨class_, space, .dict (table.push code key slot), function⟩
    | other => other

/-- Adds a key to a set, in place. -/
def pushKey (self : Ref) (code : UInt64) (key : Ref) : Exec Unit :=
  modifyObject self fun object =>
    match object with
    | ⟨class_, space, .set table, function⟩ =>
      ⟨class_, space, .set (table.push code key ()), function⟩
    | other => other

/-- Removes an entry of a dict or set, in place. -/
def removeEntry (self : Ref) (place : Option Nat) : Exec Unit :=
  modifyObject self fun object =>
    match object with
    | ⟨class_, space, .dict table, function⟩ =>
      ⟨class_, space, .dict (table.remove place), function⟩
    | ⟨class_, space, .set table, function⟩ =>
      ⟨class_, space, .set (table.remove place), function⟩
    | other => other

/-- Where a key stands in a dict or set. -/
def locate (self key : Ref) : Exec (Option Nat) :=
  read fun world => match world.payload self with
    | .dict table => world.tablePlace? table key
    | .set table => world.tablePlace? table key
    | _ => none

/-- The place of the value of a key in a dict. -/
def slotOf? (self key : Ref) : Exec (Option SlotId) :=
  read fun world => match world.payload self with
    | .dict table => world.tableGet? table key
    | _ => none

/-- Puts a value under a key of a dict: into the place of the value if the key is there, and into
a new entry otherwise. -/
def dictStore (self key value : Ref) : Exec Unit := do
  match ← slotOf? self key with
  | some slot => setSlot slot value
  | none =>
    let slot ← newSlot value
    pushEntry self (← read (·.keyHash key)) key slot

/-- Adds a key to a set that does not hold it. -/
def setInsert (self key : Ref) : Exec Unit := do
  if (← locate self key).isNone then pushKey self (← read (·.keyHash key)) key

/-- Removes a key; tells whether it was there. -/
def tableRemove (self key : Ref) : Exec Bool := do
  let place ← locate self key
  removeEntry self place
  return place.isSome

/-- The value that an entry has now. -/
def valueOf (entry : Table.Entry SlotId) : Exec Ref :=
  read (·.slot entry.value)

/-- The exception for a key that is missing shows the key. -/
def missingKey {α : Type} (machine : Machine) (key : Ref) : Exec α := do
  let text ← repr machine key
  complain (.keyMissing text)

/-- The keys of a dict or set in a new iteration. -/
def keyIterator {α : Type} (table : Table α) : Exec Ref :=
  newIterator (.copied table.keys 0)

/-! ### Dicts -/

def dictLen (self : Ref) : Exec Ref := do
  newCount (← dictTable self).size

/-- The value of a key in a dict. -/
def dictLookup (self key : Ref) : Exec (Option Ref) := do
  discard (dictTable self)
  checkHashable key
  match ← slotOf? self key with
  | some slot => return some (← read (·.slot slot))
  | none => return none

def dictContains (self key : Ref) : Exec Ref := do
  return truthRef (← dictLookup self key).isSome

def dictGetItem (machine : Machine) (self key : Ref) : Exec Ref := do
  match ← dictLookup self key with
  | some value => return value
  | none => missingKey machine key

def dictGet (self key : Ref) (otherwise : Option Ref) : Exec Ref := do
  return (← dictLookup self key).getD (otherwise.getD noneRef)

def dictSetItem (self key value : Ref) : Exec Ref := do
  discard (dictTable self)
  checkHashable key
  dictStore self key value
  return noneRef

def dictDelItem (machine : Machine) (self key : Ref) : Exec Ref := do
  discard (dictTable self)
  checkHashable key
  if ← tableRemove self key then return noneRef else missingKey machine key

def dictPop (machine : Machine) (self key : Ref) (otherwise : Option Ref) : Exec Ref := do
  match ← dictLookup self key with
  | some value =>
    discard (tableRemove self key)
    return value
  | none =>
    match otherwise with
    | some value => return value
    | none => missingKey machine key

def dictIter (self : Ref) : Exec Ref := do
  keyIterator (← dictTable self)

/-- Every entry has an equal value under its key in the other dict, both as they are when the turn
of the entry comes. -/
def entriesAgree (machine : Machine) (other : Ref) : List (Table.Entry SlotId) → Exec Bool
  | [] => return true
  | entry :: rest => do
    match ← slotOf? other entry.key with
    | none => return false
    | some slot =>
      if ← equal machine (← valueOf entry) (← read (·.slot slot)) then
        entriesAgree machine other rest
      else return false

def dictEq (machine : Machine) (self other : Ref) : Exec Ref := do
  match ← read (·.payload self), ← read (·.payload other) with
  | .dict left, .dict right =>
    if left.size == right.size then
      return truthRef (← entriesAgree machine other left.entries.toList)
    else return falseRef
  | _, _ => return falseRef

/-- The texts of entries, after those found already, which are given from their end. -/
def entryTexts (machine : Machine) (found : List String) :
    List (Table.Entry SlotId) → Exec (List String)
  | [] => return found.reverse
  | entry :: rest => do
    let key ← repr machine entry.key
    let value ← repr machine (← valueOf entry)
    entryTexts machine ((key ++ ": " ++ value) :: found) rest

/-- Texts between curly brackets. -/
def bracedText (texts : List String) : String :=
  "\x7b" ++ World.commaJoined texts ++ "\x7d"

def dictRepr (machine : Machine) (self : Ref) : Exec Ref := do
  newStr (bracedText (← entryTexts machine [] (← dictTable self).entries.toList))

def dictKeys (self : Ref) : Exec Ref := do
  newList (← dictTable self).keys

def dictValues (self : Ref) : Exec Ref := do
  newListIn (.oneByOne (← (← dictTable self).entries.mapM valueOf))

def dictItems (self : Ref) : Exec Ref := do
  newListIn (.oneByOne (← (← dictTable self).entries.mapM fun entry => do
    newTuple #[entry.key, ← valueOf entry]))

/-- Enters pairs into a dict. The position of a pair shows in messages. -/
def storePairs (machine : Machine) (self : Ref) (position : Nat) : List Ref → Exec Unit
  | [] => return ()
  | pair :: rest => do
    match ← collect machine pair with
    | ⟨[key, value]⟩ =>
      checkHashable key
      dictStore self key value
      storePairs machine self (position + 1) rest
    | items => complain (.pairLength position items.size)

/-- Enters entries into a dict. -/
def storeEntries (self : Ref) (table : Table SlotId) : Exec Unit :=
  table.entries.forM fun entry => do dictStore self entry.key (← valueOf entry)

/-- Enters the entries of another dict, or the pairs that an object gives. -/
def dictMerge (machine : Machine) (self source : Ref) : Exec Unit := do
  match ← read (·.payload source) with
  | .dict other => storeEntries self other
  | _ => storePairs machine self 0 (← collect machine source).toList

def dictUpdate (machine : Machine) (self source : Ref) : Exec Ref := do
  discard (dictTable self)
  dictMerge machine self source
  return noneRef

def dictClear (self : Ref) : Exec Ref := do
  discard (dictTable self)
  setPayload self (.dict .empty)
  return noneRef

def dictCopy (self : Ref) : Exec Ref := do
  let table ← dictTable self
  let result ← newDict
  storeEntries result table
  return result

/-- A dict from another dict or from pairs, and then from named values. -/
def convertDict (machine : Machine) (arguments : List Ref) (named : List (String × Ref)) :
    Exec Ref := do
  let result ← newDict
  match arguments with
  | source :: _ => dictMerge machine result source
  | [] => pure ()
  named.forM fun (name, value) => do dictStore result (← newStr name) value
  return result

/-! ### Sets -/

def setLen (self : Ref) : Exec Ref := do
  newCount (← setTable self).size

def setContains (self key : Ref) : Exec Ref := do
  let table ← setTable self
  checkHashable key
  return truthRef (← read (·.tableContains table key))

def setIter (self : Ref) : Exec Ref := do
  keyIterator (← setTable self)

def setEq (self other : Ref) : Exec Ref :=
  read fun world => match world.payload self, world.payload other with
    | .set left, .set right =>
      truthRef (left.size == right.size && left.keys.all (world.tableContains right))
    | _, _ => falseRef

def setRepr (machine : Machine) (self : Ref) : Exec Ref := do
  let table ← setTable self
  if table.size == 0 then newStr "set()"
  else newStr (bracedText (← reprAll machine table.keys.toList))

def setAdd (self key : Ref) : Exec Ref := do
  discard (setTable self)
  checkHashable key
  setInsert self key
  return noneRef

def setDiscard (self key : Ref) : Exec Ref := do
  discard (setTable self)
  checkHashable key
  discard (tableRemove self key)
  return noneRef

def setRemove (machine : Machine) (self key : Ref) : Exec Ref := do
  discard (setTable self)
  checkHashable key
  if ← tableRemove self key then return noneRef else missingKey machine key

/-- Takes out the oldest key. -/
def setPop (self : Ref) : Exec Ref := do
  match (← setTable self).keys[0]? with
  | none => complain .popFromEmptySet
  | some key =>
    discard (tableRemove self key)
    return key

def setClear (self : Ref) : Exec Ref := do
  discard (setTable self)
  setPayload self (.set .empty)
  return noneRef

/-- Adds keys to a table; the first that cannot be hashed is refused. -/
def addKeys (table : Table Unit) : List Ref → Exec (Table Unit)
  | [] => return table
  | key :: rest => do
    checkHashable key
    addKeys (← read (·.tableAdd table key)) rest

/-- The entries of a set, or those of a new one with the elements that an object gives. -/
def collectTable (machine : Machine) (source : Ref) : Exec (Table Unit) := do
  match ← read (·.payload source) with
  | .set table => return table
  | _ => addKeys .empty (← collect machine source).toList

def setUnion (machine : Machine) (self other : Ref) : Exec Ref := do
  discard (setTable self)
  let other ← collectTable machine other
  let table ← setTable self
  newSet (← read fun world => other.keys.foldl world.tableAdd table)

def setIntersection (machine : Machine) (self other : Ref) : Exec Ref := do
  discard (setTable self)
  let other ← collectTable machine other
  let table ← setTable self
  newSet (← read fun world =>
    (table.keys.filter (world.tableContains other)).foldl world.tableAdd .empty)

def setCopy (self : Ref) : Exec Ref := do
  newSet (← setTable self)

def convertSet (machine : Machine) : List Ref → Exec Ref
  | [] => newSet .empty
  | source :: _ => do newSet (← collectTable machine source)

end Offside.Library
