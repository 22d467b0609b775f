/-
This file holds the tables that give names their values: the attributes of an
object, the members of a class and the variables of a scope are all such tables.
A table keeps its names in the order in which they were bound. Binding a bound
name again keeps its place; unbinding it and binding it again moves it to the
end.

A name can also be pending: an import that waits for a cycle to close has
announced the name but cannot give its value yet. Binding a name settles it.

So a table has three parts, which are told apart here as they are in memory: the
names in order, the values that can be found by name, and the marks. Nothing but
the operations keeps them in step. Each of them changes some of the parts only,
and asks one part what to do with another.
-/

namespace Offside

/-- An object of the heap. -/
structure Ref where
  index : Nat
deriving Repr, DecidableEq, Inhabited, Hashable

/-- A table of names. -/
structure Namespace where
  names : List String
  /-- The values by name. Their order says nothing. -/
  store : List (String × Ref)
  pending : List String
deriving Repr, DecidableEq, Inhabited

namespace Namespace

def empty : Namespace := ⟨[], [], []⟩

/-- The value bound to a name. -/
def get? (table : Namespace) (name : String) : Option Ref :=
  table.store.lookup name

/-- The names with their values, in order. -/
def entries (table : Namespace) : List (String × Ref) :=
  table.names.filterMap fun name => (table.get? name).map (name, ·)

/-- The name was announced and not bound since. -/
def isPending (table : Namespace) (name : String) : Bool :=
  table.pending.contains name

/-- Replaces the value of a name, or adds the name. -/
def put (name : String) (value : Ref) : List (String × Ref) → List (String × Ref)
  | [] => [(name, value)]
  | (first, old) :: rest =>
    if first == name then (first, value) :: rest else (first, old) :: put name value rest

/-- Binds a name. It is listed as the last one if it was not bound. -/
def set (table : Namespace) (name : String) (value : Ref) : Namespace where
  names := if (table.get? name).isSome then table.names else table.names ++ [name]
  store := put name value table.store
  pending := if table.pending.isEmpty then [] else table.pending.filter (· != name)

/-- Unbinds a name. Nothing happens if it is not bound. -/
def erase (table : Namespace) (name : String) : Namespace :=
  if (table.get? name).isSome then
    { table with
      names := table.names.filter (· != name)
      store := table.store.filter (·.1 != name) }
  else table

/-- Announces a name. -/
def announce (table : Namespace) (name : String) : Namespace :=
  { table with pending := name :: table.pending }

/-- Binds names one after the other. -/
def setAll (table : Namespace) (entries : List (String × Ref)) : Namespace :=
  entries.foldl (fun table entry => table.set entry.1 entry.2) table

/-! ### What a name means after a change -/

theorem lookup_put (name other : String) (value : Ref) (entries : List (String × Ref)) :
    (put name value entries).lookup other =
      if other = name then some value else entries.lookup other := by
  have other_beq (first : String) : (other == first) = decide (other = first) := rfl
  induction entries with
  | nil => by_cases same : other = name <;> simp [put, List.lookup_cons, other_beq, same]
  | cons entry rest inductionHypothesis =>
    obtain ⟨first, old⟩ := entry
    by_cases here : first = name
    · by_cases same : other = name <;> simp [put, here, List.lookup_cons, other_beq, same]
    · by_cases same : other = first
      · simp [put, here, same]
      · simp [put, here, List.lookup_cons, other_beq, same, inductionHypothesis]

theorem lookup_filter {α : Type} (name other : String) (entries : List (String × α)) :
    (entries.filter (·.1 != name)).lookup other =
      if other = name then none else entries.lookup other := by
  induction entries with
  | nil => simp
  | cons entry rest inductionHypothesis =>
    obtain ⟨first, value⟩ := entry
    rw [List.filter_cons, List.lookup_cons]
    by_cases here : first = name
    · subst here
      rw [if_neg (by simp), inductionHypothesis]
      by_cases same : other = first
      · rw [if_pos same, if_pos same]
      · rw [if_neg same, if_neg same, beq_false_of_ne same]
    · rw [if_pos (by simpa using here), List.lookup_cons, inductionHypothesis]
      by_cases same : other = first
      · subst same
        simp [here]
      · rw [beq_false_of_ne same]

theorem get?_set (table : Namespace) (name other : String) (value : Ref) :
    (table.set name value).get? other = if other = name then some value else table.get? other :=
  lookup_put name other value table.store

theorem erase_of_unbound {table : Namespace} {name : String} (unbound : table.get? name = none) :
    table.erase name = table := by
  rw [erase, unbound]
  rfl

theorem get?_erase (table : Namespace) (name other : String) :
    (table.erase name).get? other = if other = name then none else table.get? other := by
  cases found : table.get? name with
  | none =>
    rw [erase_of_unbound found]
    split
    next same => rw [same, found]
    next => rfl
  | some value =>
    rw [erase, found]
    exact lookup_filter name other table.store

theorem pending_erase (table : Namespace) (name : String) :
    (table.erase name).pending = table.pending := by
  rw [erase]
  split <;> rfl

theorem pending_set (table : Namespace) (name : String) (value : Ref) :
    (table.set name value).pending = table.pending.filter (· != name) := by
  cases marks : table.pending with
  | nil => simp [set, marks]
  | cons first rest => simp [set, marks]

theorem pending_set_of_settled {table : Namespace} (settled : table.pending = []) (name : String)
    (value : Ref) : (table.set name value).pending = [] := by
  rw [pending_set, settled]
  rfl

theorem pending_setAll {table : Namespace} (settled : table.pending = [])
    (entries : List (String × Ref)) : (table.setAll entries).pending = [] := by
  induction entries generalizing table with
  | nil => exact settled
  | cons entry rest inductionHypothesis =>
    exact inductionHypothesis (pending_set_of_settled settled entry.1 entry.2)

/-- A name that was bound is not pending. -/
theorem isPending_set (table : Namespace) (name : String) (value : Ref) :
    (table.set name value).isPending name = false := by
  rw [isPending, pending_set]
  simp

theorem isPending_set_of_ne (table : Namespace) {name other : String} (different : other ≠ name)
    (value : Ref) : (table.set name value).isPending other = table.isPending other := by
  rw [isPending, isPending, pending_set]
  simp [List.contains_eq_mem, different]

theorem isPending_announce (table : Namespace) (name other : String) :
    (table.announce name).isPending other = (other == name || table.isPending other) :=
  List.contains_cons

/-! ### The names in order -/

theorem lookup_isSome_iff_mem {entries : List (String × Ref)} {name : String} :
    (entries.lookup name).isSome ↔ name ∈ entries.map Prod.fst := by
  simp [List.lookup_isSome_iff]

/-- A name that is bound already keeps its place, and any other comes last. -/
theorem names_set (table : Namespace) (name : String) (value : Ref) :
    (table.set name value).names =
      if (table.get? name).isSome then table.names else table.names ++ [name] :=
  rfl

theorem names_erase_of_bound {table : Namespace} {name : String}
    (bound : (table.get? name).isSome) :
    (table.erase name).names = table.names.filter (· != name) := by
  rw [erase, if_pos bound]

/-- Unbinding a name keeps the order of the others. -/
theorem names_erase_sublist (table : Namespace) (name : String) :
    (table.erase name).names.Sublist table.names := by
  rw [erase]
  split
  · exact List.filter_sublist
  · exact .refl _

end Namespace

end Offside
