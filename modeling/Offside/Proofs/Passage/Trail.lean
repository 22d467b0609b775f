/-
This file is for relations that every step of a run keeps to whatever its statements are
and whatever is known of its exceptions. Such a relation is a trail. It only has to be
said what it makes of the few changes that are not quiet.
-/

import Offside.Proofs.Passage.Sessions

namespace Offside

/-- A relation between the world before a step and the world after it that asks for nothing else. -/
structure Trail where
  leads : World → World → Prop
  refl : ∀ world, leads world world
  trans : ∀ {before middle after}, leads before middle → leads middle after → leads before after
  quiet : ∀ {before after : World}, before.Quiet after → leads before after
  recording : ∀ (world : World) (id : RaisedId) (frame : TraceFrame),
    leads world (world.record id frame)
  linking : ∀ (world : World) (id below : RaisedId), leads world (world.link id below)
  handled : ∀ {world after : World} {id : RaisedId},
    leads { world with handling := some id } after →
    leads world { after with handling := world.handling }
  called : ∀ {world after : World}, world.callDepth < Exec.maxCallDepth →
    leads (world.enterCall.noteCall .entered) after →
    leads world (after.leaveCall.noteCall .left)
  defining : ∀ (world : World) (object : Object), object.class_ = BuiltinClass.function.ref →
    leads world { world with objects := world.objects.push object }
  loading : ∀ (world : World) (file text : String), leads world (world.rememberSource file text)

namespace Trail

variable (trail : Trail)

def passage : Passage where
  fine _ := True
  leads := trail.leads
  raised _ _ := True
  recorded _ _ := True
  placed _ := True
  given _ _ := True
  refl _ := trail.refl _
  trans := trail.trans
  fine_of_leads _ := trivial
  raised_of_leads _ _ := trivial
  recorded_of_leads _ _ := trivial
  raised_of_recorded _ := trivial
  quiet _ := trail.quiet
  made _ _ := trivial
  recording frame _ _ _ := ⟨trail.recording _ _ frame, trivial⟩
  linking _ _ _ := trail.linking _ _ _
  handling _ _ := trivial
  handler _ _ := trivial
  handled _ := trail.handled
  call _ _ := trivial
  called _ := trail.called
  code _ _ _ definition _ _ _ _ :=
    Stmt.everywhereAll_of_forall (Stmt.stands_of_forall fun _ => trivial) definition.body
  defining object _ isFunction _ := trail.defining _ object isFunction
  parsed {_ _ program} _ _ :=
    Stmt.everywhereAll_of_forall (Stmt.stands_of_forall fun _ => trivial) program
  files _ _ _ _ := trivial
  loading _ _ := trail.loading _ _ _

/-- A trail goes along with everything that modules and files are changed by. -/
structure ForSessions : Prop where
  registering : ∀ (world : World) (registry : Registry), trail.leads world { world with registry }
  announcing : ∀ (world : World) (space : SpaceId) (name : String),
    trail.leads world { world with spaces := world.spaces.modify space.index (·.announce name) }
  writing : ∀ (world : World) (files : Files),
    trail.leads world { world with host := { world.host with files } }

variable {trail} (sessions : trail.ForSessions)

include sessions

theorem ForSessions.passage : trail.passage.ForSessions where
  bare _ _ _ := trivial
  waiting _ binding _ := by cases binding <;> trivial
  registering _ _ := sessions.registering _ _
  announcing _ _ _ := sessions.announcing _ _ _
  writing _ _ := sessions.writing _ _

end Trail

/-- Whatever a machine is made to do leads along a trail, however it ends. -/
structure Machine.Along (machine : Machine) (trail : Trail) : Prop where
  evaluate : ∀ (env : Env) (expression : Expr) (world : World),
    trail.leads world (World.leftBy (Exec.evaluate machine env expression world))
  execute : ∀ (env : Env) (statement : Stmt) (world : World),
    trail.leads world (World.leftBy (Exec.execute machine env statement world))
  executeAll : ∀ (env : Env) (statements : List Stmt) (world : World),
    trail.leads world (World.leftBy (Exec.executeAll machine env statements world))
  call : ∀ (callee : Ref) (arguments : List Ref) (named : List (String × Ref)) (world : World),
    trail.leads world (World.leftBy (machine.call callee arguments named world))
  run : ∀ (env : Env) (statements : List Stmt) (world : World),
    trail.leads world (World.leftBy (machine.run statements env world))

/-- Whatever a session does with a world leads along a trail. -/
structure World.Along (world : World) (trail : Trail) : Prop where
  runSource : ∀ file text : String, trail.leads world (world.runSource file text).2
  runFile : ∀ path : String, trail.leads world (world.runFile path).2
  importByName : ∀ name : String, trail.leads world (world.importByName name).2
  reportOf : ∀ failure : Failure, trail.leads world (world.reportOf failure).2

namespace Trail.ForSessions

variable {trail : Trail} (sessions : trail.ForSessions)

include sessions

theorem along (fuel : Nat) : (Machine.ofFuel fuel).Along trail := by
  have keeps := sessions.passage.ofFuel fuel
  have stands := Stmt.stands_of_forall
    (fun _ => trivial : ∀ location, trail.passage.placed location)
  refine ⟨fun env expression world => ?_, fun env statement world => ?_,
    fun env statements world => ?_, fun callee arguments named world => ?_,
    fun env statements world => ?_⟩
  · exact (keeps.ends_evaluate trivial env expression).leftBy
  · exact (keeps.ends_execute sessions.passage.coversImports env statement trivial
      (Stmt.everywhere_of_forall stands statement)).leftBy
  · exact (keeps.ends_executeAll sessions.passage.coversImports env statements trivial
      (Stmt.everywhereAll_of_forall stands statements)).leftBy
  · exact (keeps.call callee arguments named trivial).leftBy
  · exact (keeps.run env trivial (Stmt.everywhereAll_of_forall stands statements)).leftBy

/-! ### Sessions -/

theorem beginning (host : Host) (searchPath : List String) :
    trail.leads (.bare host searchPath) (.beginning host searchPath) := by
  rw [World.beginning_eq]
  exact ((sessions.passage.ofFuel 0).ends_fillBuiltins trivial).leftBy

theorem worldAlong (world : World) : world.Along trail := by
  have keeps : Machine.standard.Keeps trail.passage := sessions.passage.ofFuel fuelOfRun
  refine ⟨fun file text => ?_, fun path => ?_, fun name => ?_, fun failure => ?_⟩
  · obtain ⟨outcome, after, done, led, -⟩ :=
      keeps.startText_spec trivial (trivial : trail.passage.given file text)
    rw [World.runSource, World.perform, done]
    exact led
  · rw [World.runFile, World.perform_snd]
    exact (keeps.ends_startFile trivial sessions.passage path).leftBy
  · rw [World.importByName, World.perform_snd]
    exact (keeps.ends_startImport trivial sessions.passage name).leftBy
  · rw [World.reportOf, World.perform_snd]
    exact (keeps.ends_report trivial failure).leftBy

/-- A trail leads from a bare world to every world of a session. -/
theorem exists_leads_of_reached {world : World} (reached : world.Reached) :
    ∃ host searchPath, trail.leads (.bare host searchPath) world := by
  have further {before after : World}
      (reached : ∃ host searchPath, trail.leads (.bare host searchPath) before)
      (led : trail.leads before after) :
      ∃ host searchPath, trail.leads (.bare host searchPath) after := by
    obtain ⟨host, searchPath, begun⟩ := reached
    exact ⟨host, searchPath, trail.trans begun led⟩
  induction reached with
  | beginning host searchPath => exact ⟨host, searchPath, sessions.beginning host searchPath⟩
  | ran fuel env _ _ inductionHypothesis =>
    exact further inductionHypothesis ((sessions.along fuel).run env _ _)
  | ranSource file text _ inductionHypothesis =>
    exact further inductionHypothesis ((sessions.worldAlong _).runSource file text)
  | ranFile path _ inductionHypothesis =>
    exact further inductionHypothesis ((sessions.worldAlong _).runFile path)
  | imported name _ inductionHypothesis =>
    exact further inductionHypothesis ((sessions.worldAlong _).importByName name)
  | reported failure _ inductionHypothesis =>
    exact further inductionHypothesis ((sessions.worldAlong _).reportOf failure)
  | interrupted _ inductionHypothesis =>
    exact further inductionHypothesis
      (trail.quiet (.of_same rfl rfl rfl rfl rfl rfl rfl rfl rfl))
  | outputTaken _ inductionHypothesis =>
    exact further inductionHypothesis
      (trail.quiet (.of_same rfl rfl rfl rfl rfl rfl rfl rfl rfl))
  | fileWritten path text _ inductionHypothesis =>
    exact further inductionHypothesis (sessions.writing _ _)
  | searchVariableSet value _ inductionHypothesis =>
    exact further inductionHypothesis
      (trail.quiet (.of_same rfl rfl rfl rfl rfl rfl rfl rfl rfl))
  | searchPathAdded directories _ inductionHypothesis =>
    exact further inductionHypothesis
      (trail.quiet (.of_same rfl rfl rfl rfl rfl rfl rfl rfl rfl))

end Trail.ForSessions

end Offside
