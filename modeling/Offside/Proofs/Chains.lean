/-
This file proves that the links between exceptions never close a circle, and that a link
stays once it is made. Exceptions are shared: an exception that is raised again is the
one that others are linked to already, and links are made in several places, in whatever
order the handlers and cleanups of a program come. So what is carried along is a
statement about all links at once.

An exception is only linked to another one if it is not found on the way down from that
one. This way down is read with a limit, so it has to be shown that the limit is never
met: without circles a chain does not come twice to the same exception, and there are
only so many.
-/

import Offside.Proofs.Passage.Trail

namespace Offside

open Relation

namespace World

/-! ### Links -/

/-- An exception has the other one right below it. -/
def Below (world : World) (upper lower : RaisedId) : Prop :=
  (world.raisedAt upper).below = some lower

/-- No exception comes below itself. -/
def Acyclic (world : World) : Prop :=
  ∀ id, ¬ TransGen world.Below id id

variable {world after : World} {id below upper lower : RaisedId}

theorem Below.unique {other : RaisedId} (first : world.Below upper lower)
    (second : world.Below upper other) : lower = other :=
  Option.some.inj (first.symm.trans second)

/-- Only exceptions that there are have links. -/
theorem Below.index_lt (linked : world.Below upper lower) : upper.index < world.raised.size := by
  by_contra outside
  rw [Below, raisedAt, Array.getD_eq_getD_getElem?,
    Array.getElem?_eq_none (Nat.le_of_not_lt outside)] at linked
  cases linked

theorem raisedAt_modify (step : Raised → Raised) :
    World.raisedAt { world with raised := world.raised.modify id.index step } upper =
      if upper = id ∧ id.index < world.raised.size then step (world.raisedAt id)
      else world.raisedAt upper := by
  obtain ⟨index⟩ := id
  obtain ⟨other⟩ := upper
  simp only [raisedAt, Array.getD_eq_getD_getElem?, Array.getElem?_modify, RaisedId.mk.injEq]
  by_cases same : index = other
  · subst same
    by_cases bound : index < world.raised.size <;> simp [bound]
  · simp [same, Ne.symm same]

/-- Recording a statement leaves the links alone. -/
theorem below_record (frame : TraceFrame) :
    (world.record id frame).Below upper lower ↔ world.Below upper lower := by
  rw [Below, record, raisedAt_modify]
  split
  next same => rw [same.1, Below]
  · rfl

/-- New exceptions have neither a trace nor a link, and those that there are keep theirs. -/
theorem Quiet.raisedAt_same (quiet : world.Quiet after) (id : RaisedId) :
    (after.raisedAt id).trace = (world.raisedAt id).trace ∧
      (after.raisedAt id).below = (world.raisedAt id).below := by
  obtain ⟨added, same, fresh⟩ := quiet.raised
  rw [raisedAt, raisedAt, same, Array.getD_eq_getD_getElem?, Array.getD_eq_getD_getElem?]
  by_cases bound : id.index < world.raised.size
  · rw [Array.getElem?_append_left bound]
    exact ⟨rfl, rfl⟩
  · rw [Array.getElem?_append_right (Nat.le_of_not_lt bound),
      Array.getElem?_eq_none (Nat.le_of_not_lt bound), List.getElem?_toArray]
    cases found : added[id.index - world.raised.size]? with
    | none => exact ⟨rfl, rfl⟩
    | some entry => exact fresh entry (List.mem_of_getElem? found)

theorem Quiet.below_iff (quiet : world.Quiet after) :
    after.Below upper lower ↔ world.Below upper lower := by
  rw [Below, Below, (quiet.raisedAt_same upper).2]

/-- A link that is made is between the two exceptions. -/
theorem below_of_link (linked : (world.link id below).Below upper lower) :
    world.Below upper lower ∨ world.mayLink id below = true ∧ upper = id ∧ lower = below := by
  rw [link] at linked
  split at linked
  next may =>
    rw [Below, raisedAt_modify] at linked
    split at linked
    next same => exact .inr ⟨may, same.1, (Option.some.inj linked).symm⟩
    · exact .inl linked
  · exact .inl linked

/-- No link is replaced. -/
theorem Below.link (linked : world.Below upper lower) :
    (world.link id below).Below upper lower := by
  rw [World.link]
  split
  next may =>
    rw [Below, raisedAt_modify, if_neg]
    · exact linked
    · rintro ⟨rfl, -⟩
      rw [mayLink, Bool.and_eq_true, Option.isNone_iff_eq_none, linked] at may
      cases may.1
  · exact linked

/-! ### The way down -/

/-- The exceptions from one on downwards, to the last that there is. -/
structure IsChain (world : World) (id : RaisedId) (chain : List RaisedId) : Prop where
  starts : chain.head? = some id
  /-- Each has the next one right below it. -/
  linked : chain.IsChain world.Below
  /-- There is nothing below the last one. -/
  ends : ∃ last, chain.getLast? = some last ∧ (world.raisedAt last).below = none
  /-- None is met twice. -/
  nodup : chain.Nodup

theorem head?_linksFrom (fuel : Nat) (id : RaisedId) :
    (world.linksFrom (fuel + 1) id).head? = some id := by
  rw [linksFrom]
  split <;> rfl

theorem isChain_linksFrom (fuel : Nat) (id : RaisedId) :
    (world.linksFrom fuel id).IsChain world.Below := by
  induction fuel generalizing id with
  | zero => exact .nil
  | succ fuel inductionHypothesis =>
    rw [linksFrom]
    split
    next below linked =>
      refine List.isChain_cons.mpr ⟨fun next found => ?_, inductionHypothesis below⟩
      cases fuel with
      | zero => cases found
      | succ fuel =>
        rw [head?_linksFrom, Option.mem_some_iff] at found
        exact found ▸ linked
    · exact .singleton id

/-- The way down that is read comes to its end, or it uses up the limit and everything on it has
something below. -/
theorem linksFrom_cases (fuel : Nat) (id : RaisedId) :
    ((world.linksFrom fuel id).length = fuel ∧
      ∀ upper ∈ world.linksFrom fuel id, ∃ lower, world.Below upper lower) ∨
    ∃ last, (world.linksFrom fuel id).getLast? = some last ∧
      (world.raisedAt last).below = none := by
  induction fuel generalizing id with
  | zero => exact .inl ⟨rfl, fun _ found => by cases found⟩
  | succ fuel inductionHypothesis =>
    rw [linksFrom]
    split
    next below linked =>
      obtain ⟨length, all⟩ | ⟨last, found, ends⟩ := inductionHypothesis below
      · exact .inl ⟨by rw [List.length_cons, length],
          List.forall_mem_cons.mpr ⟨⟨below, linked⟩, all⟩⟩
      · refine .inr ⟨last, ?_, ends⟩
        rw [List.getLast?_cons, found]
        rfl
    next ends => exact .inr ⟨id, rfl, ends⟩

namespace Acyclic

variable (acyclic : world.Acyclic)

include acyclic

theorem nodup {chain : List RaisedId} (linked : chain.IsChain world.Below) : chain.Nodup := by
  have path : chain.IsChain (TransGen world.Below) := linked.imp fun _ _ => .single
  refine path.pairwise.imp fun {upper lower} down same => ?_
  subst same
  exact acyclic upper down

/-- Without circles the way down is never longer than there are exceptions. -/
theorem links_isChain (id : RaisedId) : world.IsChain id (world.links id) := by
  have linked := world.isChain_linksFrom (world.raised.size + 1) id
  have nodup := acyclic.nodup linked
  refine ⟨head?_linksFrom _ id, linked, ?_, nodup⟩
  obtain ⟨length, all⟩ | ends := world.linksFrom_cases (world.raised.size + 1) id
  · have indices : ((world.linksFrom (world.raised.size + 1) id).map RaisedId.index).Nodup :=
      nodup.map fun ⟨_⟩ ⟨_⟩ same => congrArg RaisedId.mk same
    have bounded : (world.linksFrom (world.raised.size + 1) id).map RaisedId.index ⊆
        List.range world.raised.size := by
      intro index found
      obtain ⟨upper, member, rfl⟩ := List.mem_map.mp found
      obtain ⟨lower, linked⟩ := all upper member
      exact List.mem_range.mpr linked.index_lt
    have short := (indices.subperm bounded).length_le
    rw [List.length_map, length, List.length_range] at short
    omega
  · exact ends

/-- Everything that is below an exception is found on the way down from it. -/
theorem mem_links (down : ReflTransGen world.Below id lower) : lower ∈ world.links id := by
  obtain ⟨starts, linked, ⟨last, final, ends⟩, -⟩ := acyclic.links_isChain id
  induction down with
  | refl => exact List.mem_of_mem_head? starts
  | tail _ step inductionHypothesis =>
    obtain ⟨earlier, later, split⟩ := List.append_of_mem inductionHypothesis
    rw [split] at linked final
    cases later with
    | nil =>
      rw [List.getLast?_concat, Option.some.injEq] at final
      subst final
      rw [Below, ends] at step
      cases step
    | cons next rest =>
      have followed := (List.isChain_append_cons_cons.mp linked).2.1
      rw [split, step.unique followed]
      exact List.mem_append_right _ (List.mem_cons_of_mem _ List.mem_cons_self)

end Acyclic

/-! ### Links that are made -/

/-- A way down over a link that is made runs as before, or it comes to the upper end of the link and
goes on from its lower end. -/
theorem transGen_of_link (down : TransGen (world.link id below).Below upper lower) :
    TransGen world.Below upper lower ∨ world.mayLink id below = true ∧
      ReflTransGen world.Below upper id ∧ ReflTransGen world.Below below lower := by
  induction down with
  | single step =>
    obtain old | ⟨may, rfl, rfl⟩ := below_of_link step
    · exact .inl (.single old)
    · exact .inr ⟨may, .refl, .refl⟩
  | tail _ step inductionHypothesis =>
    obtain old | ⟨may, rfl, rfl⟩ := below_of_link step
    · exact inductionHypothesis.imp (·.tail old) fun ⟨may, above, under⟩ =>
        ⟨may, above, under.tail old⟩
    · refine .inr ⟨may, ?_, .refl⟩
      obtain path | ⟨-, above, -⟩ := inductionHypothesis
      · exact path.to_reflTransGen
      · exact above

/-- A link that may be made closes no circle: its upper end is not below its lower one. -/
theorem Acyclic.link (acyclic : world.Acyclic) (id below : RaisedId) :
    (world.link id below).Acyclic := by
  intro start circle
  obtain old | ⟨may, above, under⟩ := transGen_of_link circle
  · exact acyclic start old
  · have found := acyclic.mem_links (under.trans above)
    rw [mayLink, Bool.and_eq_true, Bool.not_eq_true', List.contains_eq_mem,
      decide_eq_false_iff_not] at may
    exact may.2 found

/-- Every link stays as it is, and no circle comes about. -/
structure KeepsLinks (before after : World) : Prop where
  below : ∀ {upper lower : RaisedId}, before.Below upper lower → after.Below upper lower
  acyclic : before.Acyclic → after.Acyclic

namespace KeepsLinks

variable {before middle : World}

theorem of_iff (same : ∀ upper lower, after.Below upper lower ↔ before.Below upper lower) :
    before.KeepsLinks after := by
  have equal : after.Below = before.Below := by
    funext upper lower
    exact propext (same upper lower)
  refine ⟨fun {upper lower} => (same upper lower).mpr, fun acyclic => ?_⟩
  rwa [Acyclic, equal]

theorem of_raised (same : after.raised = before.raised) : before.KeepsLinks after :=
  of_iff fun upper lower => by rw [Below, Below, raisedAt, raisedAt, same]

theorem trans (first : before.KeepsLinks middle) (last : middle.KeepsLinks after) :
    before.KeepsLinks after :=
  ⟨fun linked => last.below (first.below linked), fun acyclic =>
    last.acyclic (first.acyclic acyclic)⟩

end KeepsLinks

theorem bare_acyclic (host : Host) (searchPath : List String) :
    (bare host searchPath).Acyclic := by
  intro id circle
  obtain ⟨next, step, -⟩ := TransGen.head'_iff.mp circle
  exact Nat.not_lt_zero _ step.index_lt

end World

/-- Every step of a run keeps the links of exceptions. -/
def Trail.chains : Trail where
  leads := World.KeepsLinks
  refl _ := .of_raised rfl
  trans := World.KeepsLinks.trans
  quiet quiet := .of_iff fun _ _ => quiet.below_iff
  recording _ _ frame := .of_iff fun _ _ => World.below_record frame
  linking _ id below := ⟨World.Below.link, fun acyclic => acyclic.link id below⟩
  handled body := ⟨body.below, body.acyclic⟩
  called _ body := ⟨body.below, body.acyclic⟩
  defining _ _ _ := .of_raised rfl
  loading _ _ _ := .of_raised rfl

theorem Trail.chains_forSessions : Trail.chains.ForSessions where
  registering _ _ := .of_raised rfl
  announcing _ _ _ := .of_raised rfl
  writing _ _ := .of_raised rfl

/-! ### The main result -/

namespace World

/-- Whatever is evaluated, run or called with any fuel, in any world, and whatever a session does,
keeps every link between exceptions and makes none that closes a circle. Without circles the way
down from each exception comes to an end and is read to this end, and no world of a session has a
circle. -/
theorem links_stay_and_end :
    (∀ fuel : Nat, (Machine.ofFuel fuel).Along .chains) ∧
    (∀ world : World, world.Along .chains) ∧
    (∀ world : World, world.Acyclic → ∀ id : RaisedId, world.IsChain id (world.links id)) ∧
    ∀ world : World, world.Reached → world.Acyclic := by
  refine ⟨Trail.chains_forSessions.along, Trail.chains_forSessions.worldAlong,
    fun world acyclic => acyclic.links_isChain, fun world reached => ?_⟩
  obtain ⟨host, searchPath, led⟩ := Trail.chains_forSessions.exists_leads_of_reached reached
  exact led.acyclic (bare_acyclic host searchPath)

/-- A session in which an exception was raised while another one was handled. -/
theorem beginning_links_end :
    let host : Host :=
      { files := ⟨"/", []⟩
        input := ""
        output := "" }
    let world := ((beginning host []).runSource "/main"
      "try:\n    raise Exception(1)\nexcept Exception:\n    raise Exception(2)\n").2
    world.Acyclic ∧ ∀ id : RaisedId, world.IsChain id (world.links id) := by
  intro host world
  have reached : world.Reached := .ranSource "/main" _ (.beginning host [])
  have acyclic := links_stay_and_end.2.2.2 world reached
  exact ⟨acyclic, links_stay_and_end.2.2.1 world acyclic⟩

end World

end Offside
