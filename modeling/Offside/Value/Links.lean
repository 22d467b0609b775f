/-
This file holds the linked entries behind dicts and sets. Every entry that was ever made
has a node, which knows the nodes before and after it in insertion order, and the nodes
of one hash are kept together in a bucket. So a key is found by its hash alone, and an
entry is taken out without looking at any other than its neighbours. A node that was
taken out stays where it is; nothing leads to it any more.

The order, the buckets and the number of entries say the same thing three times, and each
change must change all three. What they have to agree on is written down here, and every
change is shown to keep it.
-/

import Offside.Value.Namespace

namespace Offside

namespace Table

/-- One entry, with the hash of its key. -/
structure Entry (α : Type) where
  hash : UInt64
  key : Ref
  value : α
deriving Repr, DecidableEq, Inhabited

/-- An entry and its neighbours, by their places. -/
structure Node (α : Type) where
  entry : Entry α
  previous : Option Nat
  next : Option Nat

def Node.withPrevious {α : Type} (node : Node α) (previous : Option Nat) : Node α :=
  { node with previous }

def Node.withNext {α : Type} (node : Node α) (next : Option Nat) : Node α :=
  { node with next }

/-- The nodes of entries, those taken out included. -/
structure Links (α : Type) where
  nodes : Array (Node α)
  /-- The places of the entries of each hash, oldest first. -/
  buckets : List (UInt64 × List Nat)
  head : Option Nat
  tail : Option Nat
  count : Nat

namespace Links

variable {α : Type}

def empty : Links α := ⟨#[], [], none, none, 0⟩

/-! ### Buckets -/

/-- The places in the bucket of a hash. -/
def placesOf (buckets : List (UInt64 × List Nat)) (hash : UInt64) : List Nat :=
  (buckets.lookup hash).getD []

/-- The buckets of all other hashes. -/
def withoutBucket (buckets : List (UInt64 × List Nat)) (hash : UInt64) :
    List (UInt64 × List Nat) :=
  if (buckets.lookup hash).isSome then buckets.filter (·.1 != hash) else buckets

/-- Replaces the bucket of a hash. An empty bucket is not kept. -/
def withBucket (buckets : List (UInt64 × List Nat)) (hash : UInt64) (places : List Nat) :
    List (UInt64 × List Nat) :=
  if places.isEmpty then withoutBucket buckets hash
  else (hash, places) :: withoutBucket buckets hash

def bucket (links : Links α) (hash : UInt64) : List Nat :=
  placesOf links.buckets hash

theorem lookup_withoutBucket (buckets : List (UInt64 × List Nat)) (hash other : UInt64) :
    (withoutBucket buckets hash).lookup other =
      if other = hash then none else buckets.lookup other := by
  have filtered : (buckets.filter (·.1 != hash)).lookup other =
      if other = hash then none else buckets.lookup other := by
    induction buckets with
    | nil => simp
    | cons first rest inductionHypothesis => grind
  unfold withoutBucket
  split
  · exact filtered
  next absent =>
    split
    next same =>
      rw [same]
      exact Option.not_isSome_iff_eq_none.mp absent
    · rfl

/-- A bucket is replaced and all others are kept. -/
theorem placesOf_withBucket (buckets : List (UInt64 × List Nat)) (hash other : UInt64)
    (places : List Nat) :
    placesOf (withBucket buckets hash places) other =
      if other = hash then places else placesOf buckets other := by
  unfold withBucket placesOf
  split
  next nothing =>
    rw [lookup_withoutBucket, List.isEmpty_iff.mp nothing]
    split <;> rfl
  · rw [List.lookup_cons, lookup_withoutBucket]
    grind

/-! ### Segments -/

/-- Nodes that follow each other, from the one after `previous` to the one before `next`. -/
def Segment (nodes : Array (Node α)) (previous next : Option Nat) : List Nat → Prop
  | [] => True
  | place :: rest =>
    (∃ node, nodes[place]? = some node ∧ node.previous = previous ∧
      node.next = rest.head?.or next) ∧ Segment nodes (some place) next rest

theorem segment_append (nodes : Array (Node α)) (previous next : Option Nat)
    (first second : List Nat) :
    Segment nodes previous next (first ++ second) ↔
      Segment nodes previous (second.head?.or next) first ∧
        Segment nodes (first.getLast?.or previous) next second := by
  induction first generalizing previous with
  | nil => simp [Segment]
  | cons place rest inductionHypothesis =>
    rw [List.cons_append, Segment, Segment, inductionHypothesis, and_assoc]
    cases rest with
    | nil => simp
    | cons second rest =>
      have known : (second :: rest).getLast?.isSome = true := by simp
      rw [List.getLast?_cons_cons, Option.or_of_isSome known, Option.or_of_isSome known]
      rfl

/-- A segment is made of its own nodes only. -/
theorem Segment.congr {nodes others : Array (Node α)} {previous next : Option Nat}
    {places : List Nat} (segment : Segment nodes previous next places)
    (same : ∀ place ∈ places, others[place]? = nodes[place]?) :
    Segment others previous next places := by
  induction places generalizing previous with
  | nil => trivial
  | cons place rest inductionHypothesis =>
    rw [List.forall_mem_cons] at same
    refine ⟨?_, inductionHypothesis segment.2 same.2⟩
    rw [same.1]
    exact segment.1

/-- Changes a node, if there is one. -/
def modifyAt (nodes : Array (Node α)) (place : Option Nat) (step : Node α → Node α) :
    Array (Node α) :=
  match place with
  | some place => nodes.modify place step
  | none => nodes

theorem getElem?_modifyAt (nodes : Array (Node α)) (place : Option Nat) (step : Node α → Node α)
    (other : Nat) :
    (modifyAt nodes place step)[other]? =
      if place = some other then nodes[other]?.map step else nodes[other]? := by
  unfold modifyAt
  split
  · simp [Array.getElem?_modify]
  · simp

/-- The last node of a segment is given another one after it. -/
theorem Segment.withNext {nodes : Array (Node α)} {previous next : Option Nat} {places : List Nat}
    (segment : Segment nodes previous next places) (distinct : places.Nodup)
    (other : Option Nat) :
    Segment (modifyAt nodes places.getLast? (·.withNext other)) previous other places := by
  induction places generalizing previous with
  | nil => trivial
  | cons place rest inductionHypothesis =>
    obtain ⟨⟨node, found, before, after⟩, others⟩ := segment
    rw [List.nodup_cons] at distinct
    cases rest with
    | nil =>
      refine ⟨⟨node.withNext other, ?_, before, rfl⟩, trivial⟩
      simp [getElem?_modifyAt, found]
    | cons second rest =>
      rw [List.getLast?_cons_cons]
      refine ⟨⟨node, ?_, before, after⟩, inductionHypothesis others distinct.2⟩
      have apart : (second :: rest).getLast? ≠ some place :=
        fun same => distinct.1 (List.mem_of_getLast? same)
      rw [getElem?_modifyAt, if_neg apart, found]

/-- The first node of a segment is given another one before it. -/
theorem Segment.withPrevious {nodes : Array (Node α)} {previous next : Option Nat}
    {places : List Nat} (segment : Segment nodes previous next places) (distinct : places.Nodup)
    (other : Option Nat) :
    Segment (modifyAt nodes places.head? (·.withPrevious other)) other next places := by
  cases places with
  | nil => trivial
  | cons place rest =>
    obtain ⟨⟨node, found, before, after⟩, others⟩ := segment
    rw [List.nodup_cons] at distinct
    refine ⟨⟨node.withPrevious other, ?_, rfl, after⟩, others.congr fun later inside => ?_⟩
    · simp [getElem?_modifyAt, found]
    · have apart : place ≠ later := fun same => distinct.1 (same ▸ inside)
      rw [getElem?_modifyAt, List.head?_cons, if_neg (by simpa using apart)]

/-! ### Order, buckets and number -/

/-- The entry at a place. -/
def entryAt? (links : Links α) (place : Nat) : Option (Entry α) :=
  links.nodes[place]?.map Node.entry

/-- The entry at a place has this hash. -/
def hasHash (links : Links α) (hash : UInt64) (place : Nat) : Bool :=
  (links.entryAt? place).any (·.hash == hash)

/-- The nodes follow each other in this order from the head to the tail, forwards and backwards;
each bucket holds the places of its hash, and their number is known. -/
structure InOrder (links : Links α) (order : List Nat) : Prop where
  distinct : order.Nodup
  segment : Segment links.nodes none none order
  head : links.head = order.head?
  tail : links.tail = order.getLast?
  bucket : ∀ hash, links.bucket hash = order.filter (links.hasHash hash)
  count : links.count = order.length

/-- The nodes are in some order. -/
def WellFormed (links : Links α) : Prop :=
  ∃ order, links.InOrder order

theorem empty_inOrder : (empty : Links α).InOrder [] :=
  ⟨.nil, trivial, rfl, rfl, fun _ => rfl, rfl⟩

/-- Adds an entry at the end. -/
def append (links : Links α) (entry : Entry α) : Links α :=
  let place := links.nodes.size
  { nodes := (modifyAt links.nodes links.tail (·.withNext (some place))).push
      ⟨entry, links.tail, none⟩
    buckets := withBucket links.buckets entry.hash (links.bucket entry.hash ++ [place])
    head := links.head.or (some place)
    tail := some place
    count := links.count + 1 }

/-- Takes the node at a place out. -/
def unlink (links : Links α) (place : Nat) (node : Node α) : Links α :=
  { nodes := modifyAt (modifyAt links.nodes node.previous (·.withNext node.next)) node.next
      (·.withPrevious node.previous)
    buckets := withBucket links.buckets node.entry.hash
      ((links.bucket node.entry.hash).erase place)
    head := if links.head = some place then node.next else links.head
    tail := if links.tail = some place then node.previous else links.tail
    count := links.count - 1 }

theorem InOrder.lt_size {links : Links α} {order : List Nat} (inOrder : links.InOrder order)
    {place : Nat} (inside : place ∈ order) : place < links.nodes.size := by
  obtain ⟨before, after, rfl⟩ := List.append_of_mem inside
  obtain ⟨-, ⟨node, found, -⟩, -⟩ := (segment_append _ _ _ _ _).mp inOrder.segment
  exact (Array.getElem?_eq_some_iff.mp found).1

/-- Neighbours do not matter for an entry. -/
theorem map_entry_modifyAt (nodes : Array (Node α)) (place : Option Nat) (step : Node α → Node α)
    (kept : ∀ node, (step node).entry = node.entry) (other : Nat) :
    (modifyAt nodes place step)[other]?.map Node.entry = nodes[other]?.map Node.entry := by
  rw [getElem?_modifyAt]
  split
  · rw [Option.map_map]
    congr 1
    exact funext kept
  · rfl

theorem entryAt?_append (links : Links α) (entry : Entry α) (place : Nat) :
    (links.append entry).entryAt? place =
      if place = links.nodes.size then some entry else links.entryAt? place := by
  have size : (modifyAt links.nodes links.tail (·.withNext (some links.nodes.size))).size =
      links.nodes.size := by
    unfold modifyAt
    split <;> simp
  unfold entryAt? append
  dsimp only
  rw [Array.getElem?_push, size]
  split
  · rfl
  · exact map_entry_modifyAt _ _ (·.withNext (some links.nodes.size)) (fun _ => rfl) place

theorem filterMap_append_of_lt {links : Links α} (entry : Entry α) {places : List Nat}
    (older : ∀ place ∈ places, place < links.nodes.size) :
    places.filterMap (links.append entry).entryAt? = places.filterMap links.entryAt? := by
  induction places with
  | nil => rfl
  | cons place rest inductionHypothesis =>
    rw [List.forall_mem_cons] at older
    rw [List.filterMap_cons, List.filterMap_cons, inductionHypothesis older.2, entryAt?_append,
      if_neg (Nat.ne_of_lt older.1)]

theorem hasHash_append_of_ne {links : Links α} {entry : Entry α} {place : Nat}
    (other : place ≠ links.nodes.size) (hash : UInt64) :
    (links.append entry).hasHash hash place = links.hasHash hash place := by
  rw [hasHash, entryAt?_append, if_neg other, hasHash]

theorem append_inOrder {links : Links α} {order : List Nat} (inOrder : links.InOrder order)
    (entry : Entry α) : (links.append entry).InOrder (order ++ [links.nodes.size]) := by
  have new : links.nodes.size ∉ order := fun inside => Nat.lt_irrefl _ (inOrder.lt_size inside)
  refine ⟨?_, ?_, ?_, ?_, fun hash => ?_, ?_⟩
  · exact List.nodup_append.mpr ⟨inOrder.distinct, by simp, by grind⟩
  · have longer := inOrder.segment.withNext inOrder.distinct (some links.nodes.size)
    rw [← inOrder.tail] at longer
    have size : (modifyAt links.nodes links.tail (·.withNext (some links.nodes.size))).size =
        links.nodes.size := by
      unfold modifyAt
      split <;> simp
    refine (segment_append _ _ _ _ _).mpr ⟨longer.congr fun place inside => ?_, ?_, trivial⟩
    · have older : place ≠ links.nodes.size := fun same => new (same ▸ inside)
      rw [append, Array.getElem?_push, size, if_neg older]
    · refine ⟨⟨entry, links.tail, none⟩, ?_, ?_, rfl⟩
      · rw [append, Array.getElem?_push, size, if_pos rfl]
      · rw [inOrder.tail, Option.or_none]
  · rw [append, inOrder.head, List.head?_append]
    rfl
  · rw [append, List.getLast?_concat]
  · have kept : order.filter ((links.append entry).hasHash hash) =
        order.filter (links.hasHash hash) :=
      List.filter_congr fun place inside =>
        hasHash_append_of_ne (fun same => new (same ▸ inside)) hash
    have last : (links.append entry).hasHash hash links.nodes.size = (entry.hash == hash) := by
      rw [hasHash, entryAt?_append, if_pos rfl]
      rfl
    rw [List.filter_append, kept, ← inOrder.bucket, List.filter_cons, last, List.filter_nil]
    change placesOf (withBucket _ _ _) _ = _
    rw [placesOf_withBucket]
    split
    next same => rw [same, if_pos (BEq.rfl)]
    next other =>
      rw [if_neg (by simpa using Ne.symm other), List.append_nil]
      rfl
  · rw [append, inOrder.count, List.length_append, List.length_singleton]

theorem entryAt?_unlink (links : Links α) (place : Nat) (node : Node α) (other : Nat) :
    (links.unlink place node).entryAt? other = links.entryAt? other := by
  unfold entryAt? unlink
  dsimp only
  rw [map_entry_modifyAt _ _ (·.withPrevious node.previous) fun _ => rfl,
    map_entry_modifyAt _ _ (·.withNext node.next) fun _ => rfl]

theorem unlink_inOrder {links : Links α} {before after : List Nat} {place : Nat} {node : Node α}
    (inOrder : links.InOrder (before ++ place :: after)) (found : links.nodes[place]? = some node) :
    (links.unlink place node).InOrder (before ++ after) := by
  obtain ⟨beforeSegment, ⟨node', found', previous, next⟩, afterSegment⟩ :=
    (segment_append _ _ _ _ _).mp inOrder.segment
  obtain rfl : node' = node := by simpa [found] using found'.symm
  rw [Option.or_none] at previous next
  obtain ⟨beforeDistinct, others, apart⟩ := List.nodup_append.mp inOrder.distinct
  obtain ⟨placeApart, afterDistinct⟩ := List.nodup_cons.mp others
  refine ⟨?_, ?_, ?_, ?_, fun hash => ?_, ?_⟩
  · exact List.nodup_append.mpr ⟨beforeDistinct, afterDistinct, by grind⟩
  · refine (segment_append _ _ _ _ _).mpr ⟨?_, ?_⟩
    · refine (beforeSegment.withNext beforeDistinct _).congr fun other inside => ?_
      rw [unlink, getElem?_modifyAt, previous, next, Option.or_none, if_neg]
      intro same
      exact apart other inside other (List.mem_cons_of_mem _ (List.mem_of_mem_head? same)) rfl
    · refine (afterSegment.withPrevious afterDistinct _).congr fun other inside => ?_
      have notLast : before.getLast? ≠ some other := fun same =>
        apart other (List.mem_of_getLast? same) other (List.mem_cons_of_mem _ inside) rfl
      rw [unlink, getElem?_modifyAt, getElem?_modifyAt, getElem?_modifyAt, previous, next,
        Option.or_none, if_neg notLast]
  · rw [unlink, inOrder.head, next]
    cases before with
    | nil => simp
    | cons first rest =>
      have notFirst : first ≠ place := apart first List.mem_cons_self place List.mem_cons_self
      simp [notFirst]
  · rw [unlink, inOrder.tail, previous]
    cases after with
    | nil => simp
    | cons first rest =>
      have notLast : (first :: rest).getLast? ≠ some place :=
        fun same => placeApart (List.mem_of_getLast? same)
      have known : (first :: rest).getLast?.isSome = true := by simp
      rw [List.getLast?_append, List.getLast?_append, List.getLast?_cons_cons,
        Option.or_of_isSome known, if_neg notLast]
  · have kept : (links.unlink place node').hasHash hash = links.hasHash hash :=
      funext fun other => by rw [hasHash, hasHash, entryAt?_unlink]
    have here : links.hasHash hash place = (node'.entry.hash == hash) := by
      rw [hasHash, entryAt?, found]
      rfl
    change placesOf (withBucket _ _ _) _ = _
    rw [placesOf_withBucket, kept, List.filter_append]
    split
    next same =>
      rw [inOrder.bucket, List.filter_append, List.filter_cons, ← same, here, same, if_pos BEq.rfl,
        List.erase_append_right, List.erase_cons_head]
      exact fun inside => apart place (List.mem_filter.mp inside).1 place List.mem_cons_self rfl
    next other =>
      change links.bucket hash = _
      rw [inOrder.bucket, List.filter_append, List.filter_cons, here,
        if_neg (by simpa using Ne.symm other)]
  · rw [unlink, inOrder.count]
    simp

/-! ### Walking along the nodes -/

/-- The entries of a number of nodes, one after the other. -/
def walk (links : Links α) : Nat → Option Nat → List (Entry α)
  | steps + 1, some place =>
    match links.nodes[place]? with
    | some node => node.entry :: walk links steps node.next
    | none => []
  | _, _ => []

/-- Walking along a segment meets its entries and nothing else. -/
theorem walk_segment {links : Links α} {previous : Option Nat} {places : List Nat}
    (segment : Segment links.nodes previous none places) :
    links.walk places.length places.head? = places.filterMap links.entryAt? := by
  induction places generalizing previous with
  | nil => rfl
  | cons place rest inductionHypothesis =>
    obtain ⟨⟨node, found, -, next⟩, others⟩ := segment
    rw [Option.or_none] at next
    have entry : links.entryAt? place = some node.entry := by rw [entryAt?, found]; rfl
    rw [List.length_cons, List.head?_cons, walk, found, List.filterMap_cons, entry]
    dsimp only
    rw [next, inductionHypothesis others]

/-- The place of a key is looked for in the bucket of its hash only. -/
def place? (same : Ref → Ref → Bool) (links : Links α) (hash : UInt64) (key : Ref) : Option Nat :=
  (links.bucket hash).find? fun place => (links.entryAt? place).any (same ·.key key)

end Links

end Table

end Offside
