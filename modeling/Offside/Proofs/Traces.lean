/-
This file proves that no exception loses its place in the source. A simple statement
records itself in every exception that leaves it. A compound statement does so only for
its own lines: its conditions and what it iterates over, the classes of its handlers, the
defaults of a function and the base of a class. So it is a matter of every such line that
an exception which leaves a block has a trace, and one of them that was forgotten would
give an exception without any.

Exceptions that are linked below others, and the one that is being handled, had left a
block before. Since a trace never gets shorter, everything on the way down from an
exception has one. And since every line that is recorded belongs to a statement of a text
that was read, every line of a trace is a line of such a text.
-/

import Offside.Proofs.Chains
import Offside.Proofs.Located.Program

namespace Offside

/-! ### Statements of given texts -/

/-- The statement stands in a text that is given. -/
def Stmt.IsGiven (given : String → String → Prop) (statement : Stmt) : Prop :=
  ∃ (file text : String) (program : List Stmt), given file text ∧
    Program.parse file text = .ok program ∧ statement ∈ Stmt.partsAll program

/-- The line is recorded by a statement of a given text, and it is one of the lines of this text. -/
def Location.IsGiven (given : String → String → Prop) (location : Location) : Prop :=
  ∃ (text : String) (program : List Stmt), given location.file text ∧
    Program.parse location.file text = .ok program ∧
    (∃ statement ∈ Stmt.partsAll program, location ∈ statement.headers) ∧
    1 ≤ location.line ∧ location.line ≤ (text.splitOn "\n").length

variable {given : String → String → Prop}

theorem Program.parse_given {file text : String} {program : List Stmt} (isGiven : given file text)
    (parsed : Program.parse file text = .ok program) :
    Stmt.EverywhereAll (Stmt.Stands (Location.IsGiven given)) program := by
  have stands := Program.parse_stands file text
  rw [parsed] at stands
  rw [Stmt.everywhereAll_iff]
  intro statement part location header
  obtain ⟨rfl, first, last⟩ := (Stmt.everywhereAll_iff program).mp stands statement part _ header
  exact ⟨text, program, isGiven, parsed, ⟨statement, part, header⟩, first, last⟩

theorem Stmt.IsGiven.everywhere {statement : Stmt} (isGiven : statement.IsGiven given) :
    statement.Everywhere (Stmt.Stands (Location.IsGiven given)) := by
  obtain ⟨file, text, program, textGiven, parsed, part⟩ := isGiven
  exact (Stmt.everywhereAll_iff program).mp (Program.parse_given textGiven parsed).parts statement
    part

/-! ### Traces -/

namespace World

variable {world after : World} {id below other : RaisedId}

theorem trace_record (frame : TraceFrame) :
    ((world.record id frame).raisedAt other).trace =
      if other = id ∧ id.index < world.raised.size then frame :: (world.raisedAt id).trace
      else (world.raisedAt other).trace := by
  rw [record, raisedAt_modify]
  split <;> rfl

theorem trace_link :
    ((world.link id below).raisedAt other).trace = (world.raisedAt other).trace := by
  rw [link]
  split
  · rw [raisedAt_modify]
    split
    next same => rw [same.1]
    · rfl
  · rfl

theorem size_link : (world.link id below).raised.size = world.raised.size := by
  rw [link]
  split
  · exact Array.size_modify
  · rfl

/-- What is on the way down from an exception is the exception itself, or it has a link from
above. -/
theorem mem_linksFrom {fuel : Nat} (found : other ∈ world.linksFrom fuel id) :
    other = id ∨ ∃ upper, world.Below upper other := by
  induction fuel generalizing id with
  | zero => cases found
  | succ fuel inductionHypothesis =>
    rw [linksFrom] at found
    split at found
    next below linked =>
      obtain rfl | found := List.mem_cons.mp found
      · exact .inl rfl
      · obtain rfl | linkedAbove := inductionHypothesis found
        · exact .inr ⟨id, linked⟩
        · exact .inr linkedAbove
    · exact .inl (List.mem_singleton.mp found)

/-- Whatever statement an exception was recorded by, and whatever code there is or may come, belongs
to the given texts. What comes below an exception has a trace, and so has what is being handled. -/
structure Tracks (given : String → String → Prop) (world : World) : Prop where
  frames : ∀ (id : RaisedId), ∀ frame ∈ (world.raisedAt id).trace, frame.location.IsGiven given
  below : ∀ {upper lower : RaisedId}, world.Below upper lower → (world.raisedAt lower).trace ≠ []
  handling : ∀ {id : RaisedId}, world.handling = some id → (world.raisedAt id).trace ≠ []
  code : world.Defines fun definition =>
    Stmt.EverywhereAll (Stmt.Stands (Location.IsGiven given)) definition.body
  waiting : ∀ binding ∈ world.registry.allDeferred, binding.Stands (Location.IsGiven given)
  files : world.host.files.Given given

/-- No exception is lost, and none loses its trace. -/
structure KeepsTraces (given : String → String → Prop) (before after : World) : Prop where
  tracks : after.Tracks given
  size : before.raised.size ≤ after.raised.size
  traces : ∀ id : RaisedId, (before.raisedAt id).trace ≠ [] → (after.raisedAt id).trace ≠ []

/-- Every exception on the way down from this one has a trace, and its lines are lines of given
texts. -/
def Locates (given : String → String → Prop) (world : World) (id : RaisedId) : Prop :=
  ∀ lower ∈ world.links id, (world.raisedAt lower).trace ≠ [] ∧
    ∀ frame ∈ (world.raisedAt lower).trace, frame.location.IsGiven given

theorem Tracks.locates (tracks : world.Tracks given) (traced : (world.raisedAt id).trace ≠ []) :
    world.Locates given id := by
  intro lower found
  refine ⟨?_, tracks.frames lower⟩
  obtain rfl | ⟨upper, linked⟩ := mem_linksFrom found
  · exact traced
  · exact tracks.below linked

namespace KeepsTraces

variable {before middle : World}

/-- A change that leaves alone what exceptions there are. -/
theorem of_raised (tracks : after.Tracks given) (same : after.raised = before.raised) :
    KeepsTraces given before after :=
  ⟨tracks, by rw [same], fun id traced => by rwa [raisedAt, same]⟩

theorem trans (first : KeepsTraces given before middle) (last : KeepsTraces given middle after) :
    KeepsTraces given before after :=
  ⟨last.tracks, Nat.le_trans first.size last.size, fun id traced =>
    last.traces id (first.traces id traced)⟩

theorem of_quiet (tracks : before.Tracks given) (quiet : before.Quiet after) :
    KeepsTraces given before after := by
  have same := quiet.raisedAt_same
  refine ⟨⟨fun id frame found => ?_, fun {upper lower} linked => ?_, fun {id} handled => ?_,
    tracks.code.of_quiet quiet, ?_, ?_⟩, ?_, fun id traced => ?_⟩
  · exact tracks.frames id frame ((same id).1 ▸ found)
  · rw [(same lower).1]
    exact tracks.below (quiet.below_iff.mp linked)
  · rw [(same id).1]
    exact tracks.handling (quiet.handling ▸ handled)
  · rw [quiet.registry]
    exact tracks.waiting
  · rw [quiet.files]
    exact tracks.files
  · obtain ⟨added, appended, -⟩ := quiet.raised
    rw [appended, Array.size_append]
    exact Nat.le_add_right _ _
  · rwa [(same id).1]

/-- One statement more is recorded. -/
theorem record (tracks : before.Tracks given) {frame : TraceFrame}
    (isGiven : frame.location.IsGiven given) :
    KeepsTraces given before (before.record id frame) := by
  have traces (other : RaisedId) (traced : (before.raisedAt other).trace ≠ []) :
      ((before.record id frame).raisedAt other).trace ≠ [] := by
    rw [trace_record]
    split
    · exact List.cons_ne_nil _ _
    · exact traced
  refine ⟨⟨fun other found inside => ?_, fun linked => ?_, fun handled => ?_, tracks.code,
    tracks.waiting, tracks.files⟩, ?_, traces⟩
  · rw [trace_record] at inside
    split at inside
    · obtain rfl | inside := List.mem_cons.mp inside
      · exact isGiven
      · exact tracks.frames id found inside
    · exact tracks.frames other found inside
  · exact traces _ (tracks.below ((below_record frame).mp linked))
  · exact traces _ (tracks.handling handled)
  · exact Nat.le_of_eq Array.size_modify.symm

/-- An exception that has a trace comes below another one. -/
theorem link (tracks : before.Tracks given) (traced : (before.raisedAt below).trace ≠ []) :
    KeepsTraces given before (before.link id below) := by
  have kept : (before.link id below).handling = before.handling ∧
      (before.link id below).objects = before.objects ∧
      (before.link id below).registry = before.registry ∧
      (before.link id below).host = before.host := by
    rw [World.link]
    split <;> exact ⟨rfl, rfl, rfl, rfl⟩
  obtain ⟨handling, objects, registry, host⟩ := kept
  refine ⟨⟨fun other found inside => ?_, fun linked => ?_, fun handled => ?_,
    tracks.code.of_objects objects, ?_, ?_⟩, ?_, fun other traced => ?_⟩
  · rw [trace_link] at inside
    exact tracks.frames other found inside
  · rw [trace_link]
    obtain old | ⟨-, -, rfl⟩ := below_of_link linked
    · exact tracks.below old
    · exact traced
  · rw [trace_link]
    exact tracks.handling (handling ▸ handled)
  · rw [registry]
    exact tracks.waiting
  · rw [host]
    exact tracks.files
  · rw [size_link]
  · rwa [trace_link]

end KeepsTraces

/-- Only what is being handled is another. -/
theorem Tracks.handle (tracks : world.Tracks given) {handling : Option RaisedId}
    (traced : ∀ id, handling = some id → (world.raisedAt id).trace ≠ []) :
    Tracks given { world with handling } :=
  ⟨tracks.frames, tracks.below, fun {id} same => traced id same, tracks.code, tracks.waiting,
    tracks.files⟩

end World

/-- What an exception's trace keeps to. -/
def Passage.traces (given : String → String → Prop) : Passage where
  fine := World.Tracks given
  leads := World.KeepsTraces given
  raised id exceptions := id.index < exceptions.size
  recorded id exceptions := (exceptions.getD id.index default).trace ≠ []
  placed := Location.IsGiven given
  given := given
  refl tracks := .of_raised tracks rfl
  trans := World.KeepsTraces.trans
  fine_of_leads := World.KeepsTraces.tracks
  raised_of_leads led bound := Nat.lt_of_lt_of_le bound led.size
  recorded_of_leads led traced := led.traces _ traced
  raised_of_recorded {id exceptions} traced := by
    by_contra outside
    rw [Array.getD_eq_getD_getElem?, Array.getElem?_eq_none (Nat.le_of_not_lt outside)] at traced
    exact traced rfl
  quiet := World.KeepsTraces.of_quiet
  made _ _ := by rw [Array.size_push]; exact Nat.lt_succ_self _
  recording {world id} frame tracks bound isGiven := by
    refine ⟨.record tracks isGiven, ?_⟩
    change ((world.record id frame).raisedAt id).trace ≠ []
    rw [World.trace_record, if_pos ⟨rfl, bound⟩]
    exact List.cons_ne_nil _ _
  linking tracks _ traced := .link tracks traced
  handling tracks handled := tracks.handling handled
  handler tracks traced := tracks.handle fun _ same => by cases same; exact traced
  handled tracks led :=
    ⟨led.tracks.handle fun id same => led.traces id (tracks.handling same), led.size, led.traces⟩
  call tracks _ := ⟨tracks.frames, tracks.below, tracks.handling, tracks.code, tracks.waiting,
    tracks.files⟩
  called _ _ led :=
    ⟨⟨led.tracks.frames, led.tracks.below, led.tracks.handling, led.tracks.code, led.tracks.waiting,
      led.tracks.files⟩, led.size, led.traces⟩
  code tracks := tracks.code
  defining _ tracks _ stands := .of_raised ⟨tracks.frames, tracks.below, tracks.handling,
    tracks.code.push stands, tracks.waiting, tracks.files⟩ rfl
  parsed := Program.parse_given
  files tracks := tracks.files
  loading tracks _ := .of_raised ⟨tracks.frames, tracks.below, tracks.handling,
    tracks.code.of_objects rfl, tracks.waiting, tracks.files⟩ rfl

namespace World

theorem bare_tracks {host : Host} (searchPath : List String) (files : host.files.Given given) :
    (bare host searchPath).Tracks given where
  frames _ _ found := by cases found
  below linked := by cases linked
  handling handled := by cases handled
  code := bare_defines host searchPath
  waiting _ found := by cases found
  files := files

end World

theorem Passage.traces_forSessions (given : String → String → Prop) :
    (Passage.traces given).ForSessions where
  bare _ searchPath files := World.bare_tracks searchPath files
  waiting tracks := tracks.waiting
  registering tracks waiting := .of_raised ⟨tracks.frames, tracks.below, tracks.handling,
    tracks.code, waiting, tracks.files⟩ rfl
  announcing _ _ tracks := .of_raised ⟨tracks.frames, tracks.below, tracks.handling, tracks.code,
    tracks.waiting, tracks.files⟩ rfl
  writing tracks files := .of_raised ⟨tracks.frames, tracks.below, tracks.handling, tracks.code,
    tracks.waiting, files⟩ rfl

/-! ### The main result -/

namespace World

/-- No exception loses its place, whatever texts are given to a session. In every world of the
session, and in every world that the execution of its statements leads to, the lines of all traces
are lines of statements of these texts. If a block of statements of these texts, executed in such a
world in any scope and with any fuel, ends with an exception, or if the run of one of these texts
does, then every exception on the way down from it has a trace. -/
theorem exceptions_keep_places (given : String → String → Prop) :
    (∀ world : World, world.ReachedGiven given → world.Tracks given) ∧
    (∀ (fuel : Nat) (env : Env) (block : List Stmt) (world : World), world.Tracks given →
      (∀ statement ∈ block, statement.IsGiven given) →
      match Exec.executeAll (Machine.ofFuel fuel) env block world with
      | .ok _ after => after.Tracks given
      | .error failure after =>
        after.Tracks given ∧ ∀ id, failure = .raised id → after.Locates given id) ∧
    ∀ (world : World) (file text : String), world.Tracks given → given file text →
      (world.runSource file text).2.Tracks given ∧
      ∀ id, (world.runSource file text).1.failure = some (.raised id) →
        (world.runSource file text).2.Locates given id := by
  have sessions := Passage.traces_forSessions given
  refine ⟨fun world reached => ReachedGiven.fine sessions reached, ?_, ?_⟩
  · intro fuel env block world tracks isGiven
    have stands := Stmt.everywhereAll_of_mem fun statement inside =>
      (isGiven statement inside).everywhere
    have ended := (sessions.ofFuel fuel).ends_executeAll sessions.coversImports env block tracks
      stands
    generalize Exec.executeAll (Machine.ofFuel fuel) env block world = result at ended
    cases ended with
    | ok led => exact led.tracks
    | error led recorded =>
      refine ⟨led.tracks, fun id raised => led.tracks.locates ?_⟩
      rw [raised] at recorded
      exact recorded
  · intro world file text tracks isGiven
    obtain ⟨outcome, after, done, led, recorded⟩ :=
      (sessions.ofFuel fuelOfRun).startText_spec tracks isGiven
    rw [runSource, perform, Machine.standard, done]
    exact ⟨led.tracks, fun id raised => led.tracks.locates (recorded _ raised)⟩

/-- A text that only raises what is being handled, where nothing is being handled. -/
theorem bare_raise_located :
    let host : Host :=
      { files := ⟨"/", []⟩
        input := ""
        output := "" }
    let given := fun file text : String => file = "/main" ∧ text = "raise\n"
    (beginning host []).Tracks given ∧
      ((beginning host []).runSource "/main" "raise\n").2.Tracks given ∧
      Program.parse "/main" "raise\n" = .ok [.simple ⟨"/main", 1⟩ (.raiseValue none)] ∧
      ∃ after, Exec.executeAll (Machine.ofFuel 1) [] [.simple ⟨"/main", 1⟩ (.raiseValue none)]
          (bare host []) = .error (.raised ⟨0⟩) after ∧
        after.Locates given ⟨0⟩ := by
  intro host given
  have files : host.files.Given given := fun path text found => by
    obtain ⟨name, inside⟩ := Files.mem_of_read found
    cases inside
  have parsed : Program.parse "/main" "raise\n" =
      .ok [.simple ⟨"/main", 1⟩ (.raiseValue none)] := by
    cbv
  obtain ⟨sessions, blocks, sources⟩ := exceptions_keep_places given
  have tracks := sessions _ (.beginning [] files)
  have isGiven : ∀ statement ∈ [Stmt.simple ⟨"/main", 1⟩ (.raiseValue none)],
      statement.IsGiven given := fun statement inside =>
    ⟨"/main", "raise\n", _, ⟨rfl, rfl⟩, parsed, by
      rw [List.mem_singleton.mp inside]
      exact List.mem_cons_self⟩
  have ended := blocks 1 [] _ (bare host []) (bare_tracks [] files) isGiven
  refine ⟨tracks, (sources _ "/main" "raise\n" tracks ⟨rfl, rfl⟩).1, parsed, _, rfl, ?_⟩
  exact ended.2 _ rfl

end World

end Offside
