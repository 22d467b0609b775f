/-
This file proves that calls and handlers leave no mark on what comes after them. However
an evaluation, a statement, a block or a call ends, the depth of calls and the exception
that is being handled are what they were before it began. A handler that did not put
back what was handled before it would make a later bare `raise` raise the wrong
exception, and a call that was counted once too often would bring the end of recursion
nearer for good.

What a depth means is said by the record of calls. Whoever runs the body of a function
enters the begin of the call and its end there, apart from counting. At every entry the
depth is the number of calls that had begun and not ended, and it never gets past the
limit.
-/

import Offside.Proofs.Passage.Trail

namespace Offside

/-! ### Calls that are active -/

/-- The depth of calls from then on. -/
def CallEvent.depth : CallEvent → Nat
  | .entered depth => depth
  | .left depth => depth

/-- One call more is active after a begin, and one less after an end. -/
def CallEvent.delta : CallEvent → ℤ
  | .entered _ => 1
  | .left _ => -1

/-- How many calls began and did not end. -/
def activeCalls (calls : List CallEvent) : ℤ :=
  (calls.map CallEvent.delta).sum

@[simp]
theorem activeCalls_cons (event : CallEvent) (earlier : List CallEvent) :
    activeCalls (event :: earlier) = event.delta + activeCalls earlier := by
  simp [activeCalls]

namespace World

/-- The depth of calls is, and was at each begin and end of a call, the number of calls that were
active, and it is within the limit. -/
structure CountsCalls (world : World) : Prop where
  depth : (world.callDepth : ℤ) = activeCalls world.calls
  bounded : world.callDepth ≤ Exec.maxCallDepth
  moments : ∀ (event : CallEvent) (earlier : List CallEvent), event :: earlier <:+ world.calls →
    (event.depth : ℤ) = activeCalls (event :: earlier) ∧ event.depth ≤ Exec.maxCallDepth

theorem bare_countsCalls (host : Host) (searchPath : List String) :
    (bare host searchPath).CountsCalls where
  depth := rfl
  bounded := Nat.zero_le _
  moments event earlier ended := by cases List.suffix_nil.mp ended

namespace CountsCalls

variable {world : World} (counts : world.CountsCalls)

include counts

theorem of_same {after : World} (callDepth : after.callDepth = world.callDepth)
    (calls : after.calls = world.calls) : after.CountsCalls := by
  obtain ⟨depth, bounded, moments⟩ := counts
  exact ⟨by rw [callDepth, calls, depth], by rwa [callDepth], by rwa [calls]⟩

/-- One more event, if it has the depth that its world has. -/
theorem push {after : World} {event : CallEvent} (callDepth : after.callDepth = event.depth)
    (calls : after.calls = event :: world.calls)
    (active : (event.depth : ℤ) = activeCalls (event :: world.calls))
    (bounded : event.depth ≤ Exec.maxCallDepth) : after.CountsCalls := by
  refine ⟨by rw [callDepth, calls, active], by rwa [callDepth], fun moment earlier ended => ?_⟩
  rw [calls, List.suffix_cons_iff] at ended
  obtain same | before := ended
  · cases same
    exact ⟨active, bounded⟩
  · exact counts.moments moment earlier before

theorem entered (shallow : world.callDepth < Exec.maxCallDepth) :
    (world.enterCall.noteCall .entered).CountsCalls := by
  have depth := counts.depth
  refine counts.push rfl rfl ?_ shallow
  simp only [World.enterCall, activeCalls_cons, CallEvent.depth, CallEvent.delta]
  omega

/-- A call that ends had begun, so there is a depth to go back from. -/
theorem left (deep : 0 < world.callDepth) : (world.leaveCall.noteCall .left).CountsCalls := by
  have depth := counts.depth
  have bounded := counts.bounded
  refine counts.push rfl rfl ?_ (Nat.le_trans (Nat.sub_le _ 1) bounded)
  simp only [World.leaveCall, activeCalls_cons, CallEvent.depth, CallEvent.delta]
  omega

end CountsCalls

/-- A step left the depth of calls and what is being handled as they were, and calls are counted
as they were. -/
structure Balanced (before after : World) : Prop where
  handling : after.handling = before.handling
  callDepth : after.callDepth = before.callDepth
  counts : before.CountsCalls → after.CountsCalls

namespace Balanced

variable {before middle after : World}

theorem of_same (handling : after.handling = before.handling)
    (callDepth : after.callDepth = before.callDepth) (calls : after.calls = before.calls) :
    before.Balanced after :=
  ⟨handling, callDepth, fun counts => counts.of_same callDepth calls⟩

theorem trans (first : before.Balanced middle) (last : middle.Balanced after) :
    before.Balanced after :=
  ⟨last.handling.trans first.handling, last.callDepth.trans first.callDepth,
    fun counts => last.counts (first.counts counts)⟩

/-- A call is left at the depth that it was entered to, whatever went on in between. -/
theorem called (shallow : before.callDepth < Exec.maxCallDepth)
    (body : (before.enterCall.noteCall .entered).Balanced after) :
    before.Balanced (after.leaveCall.noteCall .left) := by
  have depth : after.callDepth = before.callDepth + 1 := body.callDepth
  refine ⟨body.handling, ?_, fun counts => ?_⟩
  · change after.callDepth - 1 = _
    omega
  · exact (body.counts (counts.entered shallow)).left (by omega)

end Balanced

end World

/-- Every step of a run is balanced. -/
def Trail.balance : Trail where
  leads := World.Balanced
  refl _ := .of_same rfl rfl rfl
  trans := World.Balanced.trans
  quiet quiet := .of_same quiet.handling quiet.callDepth quiet.calls
  recording _ _ _ := .of_same rfl rfl rfl
  linking world id below := by
    rw [World.link]
    split <;> exact .of_same rfl rfl rfl
  handled body := ⟨rfl, body.callDepth, fun counts =>
    (body.counts (counts.of_same rfl rfl)).of_same rfl rfl⟩
  called := World.Balanced.called
  defining _ _ _ := .of_same rfl rfl rfl
  loading _ _ _ := .of_same rfl rfl rfl

theorem Trail.balance_forSessions : Trail.balance.ForSessions where
  registering _ _ := .of_same rfl rfl rfl
  announcing _ _ _ := .of_same rfl rfl rfl
  writing _ _ := .of_same rfl rfl rfl

/-! ### The main result -/

namespace World

/-- Whatever is evaluated, run or called with any fuel, in any world, leaves the depth of calls and
the exception being handled as they were, however it ends. In a session this means that between
its runs no call is active and nothing is being handled, and that at every moment of its runs the
depth of calls was the number of active calls, between none and the limit. -/
theorem calls_and_handlers_balanced :
    (∀ fuel : Nat, (Machine.ofFuel fuel).Along .balance) ∧
    ∀ world : World, world.Reached →
      world.callDepth = 0 ∧ world.handling = none ∧ world.CountsCalls := by
  refine ⟨Trail.balance_forSessions.along, fun world reached => ?_⟩
  obtain ⟨host, searchPath, led⟩ := Trail.balance_forSessions.exists_leads_of_reached reached
  exact ⟨led.callDepth, led.handling, led.counts (bare_countsCalls host searchPath)⟩

/-- A session that ran into the limit of recursion. -/
theorem beginning_calls_balanced :
    let host : Host :=
      { files := ⟨"/", []⟩
        input := ""
        output := "" }
    let world := ((beginning host []).runSource "/main" "def f():\n    f()\nf()\n").2
    (∀ fuel : Nat, (Machine.ofFuel fuel).Along .balance) ∧
      world.callDepth = 0 ∧ world.handling = none ∧ world.CountsCalls := by
  intro host world
  have reached : world.Reached :=
    .ranSource "/main" "def f():\n    f()\nf()\n" (.beginning host [])
  exact ⟨calls_and_handlers_balanced.1, calls_and_handlers_balanced.2 world reached⟩

end World

end Offside
