/-
This file holds everything that a run can change: the heap with the tables of
names, the buffers of lists and the values of dicts, the exceptions that were
raised, the modules that were loaded, and the part of the outside world that a
program can see. A step of a run takes the world to a new one and ends either
with a value or with a failure.

Only one kind of failure is an exception of the language; it is known by its
entry in the world, because an exception that is caught and raised again is the
same exception and keeps collecting its trace. The other kinds end the whole run.
-/

import Offside.Host.Files
import Offside.Syntax.ParseError
import Offside.Value.Object

namespace Offside

/-! ### Exceptions -/

/-- An exception that was raised, by its place in the world. -/
structure RaisedId where
  index : Nat
deriving Repr, DecidableEq, Inhabited

/-- A statement that an exception passed through. -/
structure TraceFrame where
  location : Location
  label : String
deriving Repr, DecidableEq

/-- An exception that was raised. -/
structure Raised where
  value : Ref
  /-- The statements it passed through so far, outermost first. -/
  trace : List TraceFrame
  /-- The exception that was being handled when this one was raised. -/
  below : Option RaisedId

instance : Inhabited Raised := ⟨⟨⟨0⟩, [], none⟩⟩

/-- Why a step of a run did not end with a value. -/
inductive Failure where
  | raised (exception : RaisedId)
  /-- A source text was not a program. -/
  | source (error : SourceError)
  /-- The outside world refused something. -/
  | host (message : String)
  /-- A rule of the interpreter itself was broken. -/
  | internal (location : Option Location) (reason : String)
  /-- A position outside of a sequence or a vacant cell was reached, which no check forbids. -/
  | outside
  /-- The program waits for a line that was not written yet. -/
  | waiting
  /-- The budget of the run was used up. -/
  | exhausted

/-! ### Modules -/

/-- A binding that waits for an import to finish. -/
inductive Deferred where
  | bindModule (env : Env) (path : List String) (newName : Option String)
  | bindNames (env : Env) (path : List String) (names : List String) (location : Location)

/-- An import that has begun and not finished. -/
structure Job where
  name : String
  /-- Oldest first. -/
  deferred : List Deferred

/-- Why a file is run. -/
inductive Purpose where
  | imported
  | main
deriving Repr, DecidableEq

/-- What happened to the module of a file. -/
inductive ModuleEvent where
  | started (path : String) (purpose : Purpose)
  | finished (path : String) (module_ : Ref)
  | failed (path : String)
  /-- An import found the module, which was loaded before. -/
  | found (path : String) (module_ : Ref)
  | deferred (path : String) (binding : Deferred)
  | settled (path : String) (module_ : Ref) (binding : Deferred)
  /-- A deferred binding failed, and those that waited behind it were given up. -/
  | unsettled (path : String) (module_ : Ref) (binding : Deferred)

/-- Modules by the absolute paths of their files. -/
structure Registry where
  loaded : List (String × Ref)
  running : List (String × Job)
  /-- What happened so far, the latest first. -/
  journal : List ModuleEvent

/-! ### The outside world -/

/-- The streams and settings that a program can see. -/
structure Host where
  files : Files
  /-- Files that refuse to be read, by their absolute paths, with what the operating system says. -/
  unreadable : List (String × String) := []
  /-- What is left to read. -/
  input : String
  /-- More may come after what is left to read. -/
  isInputOpen : Bool := false
  /-- What was written and not yet taken away. -/
  output : String
  writes : Nat := 0
  syncs : Nat := 0
  /-- The write that requests an interrupt, counted from one. -/
  interruptAt : Option Nat := none
  /-- Whether an interrupt is requested before each of the statements to come. None is requested
  after those that are listed. -/
  arrivals : List Bool := []
  /-- The write that fails, counted from one. -/
  failAt : Option Nat := none
  /-- Extra directories for modules, as the environment gives them. -/
  searchVariable : String := ""
deriving Repr, DecidableEq

/-- The text of a file, or what the operating system says. A file that is there may refuse. -/
def Host.textAt (host : Host) (path : String) : Except String String :=
  match host.files.read path with
  | .error reason => .error reason
  | .ok text =>
    match host.unreadable.lookup path with
    | some reason => .error reason
    | none => .ok text

/-- What is read at a path is the text of the file that is there. -/
theorem Host.read_of_textAt {host : Host} {path text : String}
    (found : host.textAt path = .ok text) : host.files.read path = .ok text := by
  unfold Host.textAt at found
  split at found
  · cases found
  · split at found
    · cases found
    · rw [← found]
      assumption

/-! ### Calls -/

/-- The begin or the end of a call of a function written in the language, with the depth of calls
from then on. -/
inductive CallEvent where
  | entered (depth : Nat)
  | left (depth : Nat)
deriving Repr, DecidableEq

/-! ### The world -/

structure World where
  objects : Array Object
  spaces : Array Namespace
  buffers : Array Buffer
  slots : Array Ref
  raised : Array Raised
  registry : Registry
  /-- The lines of every source text that was loaded, by file. -/
  sources : List (String × List String)
  host : Host
  /-- Directories for modules, after those of the environment. -/
  searchPath : List String
  /-- The next statement must raise an interrupt. -/
  interrupted : Bool
  /-- The exception whose handler is running. -/
  handling : Option RaisedId
  /-- How many functions written in the language are active. -/
  callDepth : Nat
  /-- The calls of such functions so far, the latest first. -/
  calls : List CallEvent

/-- A step of a run. -/
abbrev Exec := EStateM Failure World

namespace World

/-- The object of a reference. -/
def object (world : World) (ref : Ref) : Object :=
  world.objects.getD ref.index default

def payload (world : World) (ref : Ref) : Payload :=
  (world.object ref).payload

/-- Different objects are in different places. -/
theorem index_ne_of_ne {ref other : Ref} (different : other ≠ ref) : ref.index ≠ other.index := by
  cases ref
  cases other
  exact fun same => different (congrArg Ref.mk same.symm)

/-- A table of names. -/
def namespaceAt (world : World) (space : SpaceId) : Namespace :=
  world.spaces.getD space.index .empty

theorem namespaceAt_modify {world : World} {space : SpaceId}
    (bound : space.index < world.spaces.size) (step : Namespace → Namespace) :
    World.namespaceAt { world with spaces := world.spaces.modify space.index step } space =
      step (world.namespaceAt space) := by
  simp [namespaceAt, bound, Array.getElem_modify]

theorem namespaceAt_modify_of_ne {world : World} {space other : SpaceId} (different : other ≠ space)
    (step : Namespace → Namespace) :
    World.namespaceAt { world with spaces := world.spaces.modify space.index step } other =
      world.namespaceAt other := by
  have apart : space.index ≠ other.index := fun same => by
    cases space
    cases other
    exact different (congrArg SpaceId.mk same.symm)
  simp [namespaceAt, Array.getElem?_modify, apart]

/-- A table that is not there is empty. -/
theorem namespaceAt_of_le {world : World} {space : SpaceId}
    (outside : world.spaces.size ≤ space.index) : world.namespaceAt space = .empty := by
  simp [namespaceAt, outside]

/-- A table that is not there cannot be changed. -/
theorem namespaceAt_modify_of_le {world : World} {space : SpaceId}
    (outside : world.spaces.size ≤ space.index) (step : Namespace → Namespace) :
    World.namespaceAt { world with spaces := world.spaces.modify space.index step } space =
      .empty := by
  simp [namespaceAt, outside]

/-- A buffer of a list. -/
def buffer (world : World) (id : BufferId) : Buffer :=
  world.buffers.getD id.index default

/-- The value of a dict's entry. -/
def slot (world : World) (id : SlotId) : Ref :=
  world.slots.getD id.index vacantRef

/-- The elements of a list or tuple. -/
def elements? (world : World) (ref : Ref) : Option (Array Ref) :=
  match world.payload ref with
  | .list buffer => some (world.buffer buffer).cells
  | .tuple elements => some elements
  | _ => none

/-- The elements of a list or tuple; anything else has none. -/
def elements (world : World) (ref : Ref) : Array Ref :=
  (world.elements? ref).getD #[]

/-- The attributes of an object. -/
def attributes (world : World) (ref : Ref) : Namespace :=
  match (world.object ref).space with
  | some space => world.namespaceAt space
  | none => .empty

/-- The object's own attribute. -/
def ownAttribute? (world : World) (ref : Ref) (name : String) : Option Ref :=
  (world.attributes ref).get? name

def raisedAt (world : World) (id : RaisedId) : Raised :=
  world.raised.getD id.index default

/-- The line of a source text that was loaded. -/
def sourceLine? (world : World) (file : String) (line : Nat) : Option String :=
  match world.sources.lookup file with
  | some lines => if line = 0 then none else lines[line - 1]?
  | none => none

/-- An interrupt was requested, and no statement has raised it yet. -/
def isInterrupted (world : World) : Bool :=
  world.interrupted || world.host.arrivals.headD false

/-- A statement takes what was requested before it. -/
def takeInterrupt (world : World) : World :=
  { world with
    interrupted := false
    host.arrivals := world.host.arrivals.tail }

/-- One more function written in the language is active. -/
def enterCall (world : World) : World :=
  { world with callDepth := world.callDepth + 1 }

/-- One function less is active. -/
def leaveCall (world : World) : World :=
  { world with callDepth := world.callDepth - 1 }

/-- Enters the begin or the end of a call into the record of calls. -/
def noteCall (world : World) (event : Nat → CallEvent) : World :=
  { world with calls := event world.callDepth :: world.calls }

/-- Keeps the lines of a source text. -/
def rememberSource (world : World) (file text : String) : World :=
  { world with
    sources := (file, text.splitOn "\n") :: world.sources.filter (·.1 != file) }

end World

namespace Exec

/-- Looks something up in the world. -/
@[inline] def read {α : Type} (view : World → α) : Exec α :=
  fun world => .ok (view world) world

/-- Changes the world. -/
@[inline] def change (step : World → World) : Exec Unit :=
  fun world => .ok () (step world)

/-- Runs a step and then changes the world, whether the step fails or not. -/
@[inline] def thenAlways {α : Type} (step : Exec α) (after : World → World) : Exec α :=
  fun world => match step world with
    | .ok value world => .ok value (after world)
    | .error failure world => .error failure (after world)

/-! ### The heap -/

/-- Puts a new object on the heap. -/
def alloc (object : Object) : Exec Ref :=
  fun world =>
    let ref : Ref := ⟨world.objects.size⟩
    .ok ref { world with objects := world.objects.push object }

/-- Makes room for a table of names. -/
def newSpace (table : Namespace) : Exec SpaceId :=
  fun world =>
    let space : SpaceId := ⟨world.spaces.size⟩
    .ok space { world with spaces := world.spaces.push table }

/-- Changes an object in place. -/
def modifyObject (ref : Ref) (step : Object → Object) : Exec Unit :=
  change fun world => { world with objects := world.objects.modify ref.index step }

/-- Replaces the payload of an object. -/
def setPayload (ref : Ref) (payload : Payload) : Exec Unit :=
  modifyObject ref fun object => { object with payload }

/-- Changes a table of names in place. -/
def modifySpace (space : SpaceId) (step : Namespace → Namespace) : Exec Unit :=
  change fun world => { world with spaces := world.spaces.modify space.index step }

/-- Makes room for a buffer. -/
def newBuffer (buffer : Buffer) : Exec BufferId :=
  fun world =>
    let id : BufferId := ⟨world.buffers.size⟩
    .ok id { world with buffers := world.buffers.push buffer }

/-- Changes the cells of a buffer in place. -/
def modifyBuffer (id : BufferId) (step : Array Ref → Array Ref) : Exec Unit :=
  change fun world => { world with buffers := world.buffers.modify id.index (·.map step) }

/-- Makes room for a value of a dict. -/
def newSlot (value : Ref) : Exec SlotId :=
  fun world =>
    let id : SlotId := ⟨world.slots.size⟩
    .ok id { world with slots := world.slots.push value }

/-- Replaces a value of a dict. -/
def setSlot (id : SlotId) (value : Ref) : Exec Unit :=
  change fun world => { world with slots := world.slots.setIfInBounds id.index value }

/-- The place of an object's attributes, which is made if there is none yet. -/
def spaceOf (ref : Ref) : Exec SpaceId := do
  match (← read (·.object ref)).space with
  | some space => return space
  | none =>
    let space ← newSpace .empty
    modifyObject ref fun object => { object with space := some space }
    return space

/-- Gives an object an attribute. -/
def setAttribute (ref : Ref) (name : String) (value : Ref) : Exec Unit := do
  modifySpace (← spaceOf ref) (·.set name value)

/-! ### New values -/

def newValue (builtin : BuiltinClass) (payload : Payload) : Exec Ref :=
  alloc ⟨builtin.ref, none, payload, none⟩

def newInt (value : Int64) : Exec Ref := newValue .int (.int value)
def newFloat (value : Number.Double) : Exec Ref := newValue .float (.float value)
def newStr (value : String) : Exec Ref := newValue .str (.str value)
def newTuple (elements : Array Ref) : Exec Ref := newValue .tuple (.tuple elements)
def newDict : Exec Ref := newValue .dict (.dict .empty)
def newSet (table : Table Unit) : Exec Ref := newValue .set (.set table)
def newIterator (cursor : Cursor) : Exec Ref := newValue .iterator (.iterator cursor)
def newCount (count : Nat) : Exec Ref := newInt (Int64.ofNat count)

/-- A list that keeps its elements in the given buffer. -/
def newListIn (buffer : Buffer) : Exec Ref := do
  newValue .list (.list (← newBuffer buffer))

/-- A list with no room to grow. -/
def newList (elements : Array Ref) : Exec Ref :=
  newListIn (.exact elements)

/-- A slice shows its bounds as attributes. -/
def newSlice (start stop step : Ref) : Exec Ref := do
  let space ← newSpace (Namespace.empty.setAll [("start", start), ("stop", stop), ("step", step)])
  alloc ⟨BuiltinClass.slice.ref, some space, .slice start stop step, none⟩

/-- A module whose names are the given table. It knows its name. -/
def newModule (name : String) (space : SpaceId) : Exec Ref := do
  if ((← read (·.namespaceAt space)).get? "__name__").isNone then
    let text ← newStr name
    modifySpace space (·.set "__name__" text)
  alloc ⟨BuiltinClass.moduleType.ref, some space, .empty, none⟩

/-- A class whose members are the given table. -/
def newClass (name : String) (base : Option Ref) (space : SpaceId) : Exec Ref := do
  let text ← newStr name
  modifySpace space (·.set "__name__" text)
  match base with
  | some base => modifySpace space (·.set "__base__" base)
  | none => pure ()
  alloc ⟨BuiltinClass.klass.ref, some space, .empty, none⟩

/-! ### Exceptions -/

/-- Enters an exception into the world. -/
def newRaised (value : Ref) : Exec RaisedId :=
  fun world =>
    let id : RaisedId := ⟨world.raised.size⟩
    .ok id { world with raised := world.raised.push ⟨value, [], none⟩ }

/-- Records that an exception passes through a statement. -/
def addTrace (id : RaisedId) (location : Location) (label : String) : Exec Unit :=
  change fun world =>
    { world with raised := world.raised.modify id.index fun raised =>
        { raised with trace := ⟨location, label⟩ :: raised.trace } }

/-- Runs a step and records the statement that an exception passes through. -/
@[inline] def traced {α : Type} (location : Location) (env : Env) (step : Exec α) : Exec α :=
  tryCatch step fun failure => do
    match failure with
    | .raised id => addTrace id location env.label
    | _ => pure ()
    throw failure

/-! ### How steps end -/

section Ending

variable {α β : Type} {step : Exec α} {next : α → Exec β} {handler : Failure → Exec α}
  {world after : World} {value : α} {failure : Failure}

/-- A step that succeeds hands its value to the next one. -/
theorem bind_of_ok (done : step world = .ok value after) :
    (step >>= next) world = next value after := by
  change EStateM.bind step next world = _
  rw [EStateM.bind, done]

theorem bind_of_error (failed : step world = .error failure after) :
    (step >>= next) world = .error failure after := by
  change EStateM.bind step next world = _
  rw [EStateM.bind, failed]

/-- What follows on a step depends only on how it ended. -/
theorem bind_same {other : Exec α} {later : World} (next : α → Exec β)
    (same : step world = other later) : (step >>= next) world = (other >>= next) later := by
  change EStateM.bind step next world = EStateM.bind other next later
  rw [EStateM.bind, EStateM.bind, same]

theorem read_bind (view : World → α) : (read view >>= next) world = next (view world) world :=
  rfl

theorem tryCatch_ok (done : step world = .ok value after) :
    (tryCatch step handler : Exec α) world = .ok value after := by
  change EStateM.tryCatch step handler world = _
  unfold EStateM.tryCatch
  simp only [done]

/-- What a step changed before it failed stays changed. -/
theorem tryCatch_error (failed : step world = .error failure after) :
    (tryCatch step handler : Exec α) world = handler failure after := by
  change EStateM.tryCatch step handler world = _
  unfold EStateM.tryCatch
  simp only [failed]
  rfl

/-- Two steps succeed if both do. -/
theorem exists_of_bind_eq_ok {result : β} (done : (step >>= next) world = .ok result after) :
    ∃ value middle, step world = .ok value middle ∧ next value middle = .ok result after := by
  cases first : step world with
  | ok value middle =>
    rw [bind_of_ok first] at done
    exact ⟨value, middle, rfl, done⟩
  | error failure middle =>
    rw [bind_of_error first] at done
    cases done

/-- Recording a failure does not catch it. -/
theorem of_traced_eq_ok {location : Location} {env : Env}
    (done : traced location env step world = .ok value after) : step world = .ok value after := by
  cases ended : step world with
  | ok result middle => exact (tryCatch_ok ended).symm.trans done
  | error failure middle =>
    cases failure <;> cases (tryCatch_error ended).symm.trans done

end Ending

end Exec

end Offside
