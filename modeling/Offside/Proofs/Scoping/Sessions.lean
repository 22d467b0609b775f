/-
This file follows the scopes of a session. A state of a session is a world together with the
scopes whose statements are under way there and the tables of the class bodies that have
begun. It covers the middle of a run as well: modules, calls and class bodies begin, each with
a new table, statements of the innermost scope are executed, and scopes are left.

In every state, no function keeps the frame of a class body, and none keeps a frame with the
table of one. So what a name means in a function does not depend on the members of classes.
-/

import Offside.Proofs.Modules.Cache
import Offside.Proofs.Scoping.Statements

open Std.Do

set_option mvcgen.warning false

namespace Offside

/-! ### The beginning -/

namespace Machine.Veiled

open Exec Veil

variable {machine : Machine} (veiled : machine.Veiled) {veil : Veil}

include veiled

theorem keeps_modifySpace_set (space : SpaceId) (name : String) (value : Ref) :
    veil.Keeps (modifySpace space (·.set name value)) :=
  veiled.keeps_of_obeys ((veiled.conduct veil).obeys_modifySpace_set space name value)

/-- The functions that a session begins with keep no scope. -/
theorem keeps_newNative (name : String) (native : Native) :
    veil.Keeps (newNative name native) := by
  refine Keeps.bind ?_ fun space => keeps_alloc fun function _ _ _ known code => ?_
  · exact veiled.keeps_of_obeys (veiled.conduct veil).obeys_newSpace_empty
  · cases known
    cases code

theorem keeps_fillClass (builtin : BuiltinClass) : veil.Keeps (fillClass builtin) := by
  have methods : veil.Keeps (builtin.methods.forM (fillMethod builtin)) :=
    keeps_forM _ fun entry => (veiled.keeps_newNative _ _).bind fun _ =>
      veiled.keeps_modifySpace_set _ _ _
  have named : veil.Keeps (if builtin.isGlobal then
      modifySpace builtinsSpace (·.set builtin.name builtin.ref) else pure ()) := by
    split
    · exact veiled.keeps_modifySpace_set _ _ _
    · exact keeps_pure _
  have text : veil.Keeps (newStr builtin.name) :=
    veiled.keeps_of_obeys ((veiled.conduct veil).obeys_newStr _)
  refine text.bind fun name => (veiled.keeps_modifySpace_set _ _ _).bind fun _ => ?_
  cases builtin.base? with
  | none => exact methods.bind fun _ => named
  | some base =>
    exact (veiled.keeps_modifySpace_set _ _ _).bind fun _ => methods.bind fun _ => named

theorem keeps_fillBuiltins : veil.Keeps fillBuiltins := by
  rw [fillBuiltins]
  -- Which classes and functions there are plays no part, and is kept from being computed.
  generalize BuiltinClass.all = classes
  generalize FreeFunction.all = functions
  refine (keeps_forM _ veiled.keeps_fillClass).bind fun _ => keeps_forM _ fun function => ?_
  exact (veiled.keeps_newNative _ _).bind fun ref => veiled.keeps_modifySpace_set _ _ _

/-! ### Requests -/

omit veiled in
theorem keeps_attempt {α : Type} {step : Exec α} (keeps : veil.Keeps step) :
    veil.Keeps (attempt step) :=
  (keeps.bind fun _ => keeps_pure _).tryCatch fun _ => keeps_pure _

theorem keeps_newComplaint (complaint : Complaint) : veil.Keeps (newComplaint complaint) := by
  refine veiled.keeps_of_obeys ?_
  have allowed := (veiled.conduct veil).newComplaint_allowed complaint
  mvcgen [allowed]
  exact fun holds _ => holds

theorem keeps_startText (file text : String) : veil.Keeps (startText machine file text) := by
  refine veiled.keeps_newModuleSpace _ _ fun later space shown there => ?_
  exact (keeps_attempt (veiled.keeps_runText file text shown there)).bind fun _ => keeps_pure _

theorem keeps_startFile (path : String) : veil.Keeps (startFile machine path) := by
  refine keeps_read fun place => ?_
  refine veiled.keeps_newFileModule _ _ fun later space module_ shown there => ?_
  refine keeps_read fun registry => ?_
  dsimp only
  split
  · exact (veiled.keeps_newComplaint _).bind fun _ => keeps_pure _
  · refine (keeps_modifyRegistry _).bind fun _ => (keeps_attempt ?_).bind fun _ => keeps_pure _
    exact veiled.keeps_complete place module_
      (keeps_runModule place .main module_ (veiled.keeps_runPath place shown there))

theorem keeps_startImport (name : String) : veil.Keeps (startImport machine name) := by
  refine (keeps_attempt (veiled.keeps_load name ".")).bind fun ended => ?_
  split
  · exact keeps_read fun object => keeps_pure _
  · exact (veiled.keeps_newComplaint _).bind fun _ => keeps_pure _
  · exact keeps_pure _

theorem keeps_raisedReports (chain : List RaisedId) :
    veil.Keeps (raisedReports machine chain) := by
  have line (value : Ref) : veil.Keeps (exceptionLine machine value) := by
    have shown : veil.Keeps (str machine value) :=
      veiled.keeps_of_obeys ((veiled.conduct veil).obeys_str value)
    refine keeps_read fun name => shown.settle.bind fun ended => ?_
    cases ended with
    | ok => exact keeps_pure _
    | error => exact keeps_read fun text => keeps_pure _
  have report (id : RaisedId) : veil.Keeps (raisedReport machine id) :=
    keeps_read fun frames => keeps_read fun raised => (line _).bind fun _ => keeps_pure _
  induction chain with
  | nil => exact keeps_pure _
  | cons id rest inductionHypothesis =>
    exact (report id).bind fun _ => inductionHypothesis.bind fun _ => keeps_pure _

theorem keeps_report (failure : Failure) : veil.Keeps (report machine failure) := by
  refine keeps_read fun message => ?_
  split
  · exact keeps_read fun chain => (veiled.keeps_raisedReports _).bind fun _ => keeps_pure _
  · exact fun _ covers => covers
  · exact fun _ covers => covers
  · exact keeps_pure _

end Machine.Veiled

namespace World

/-- What a request does keeps hidden tables out of sight. -/
theorem covers_serve {veil : Veil} {world : World} (covers : veil.Covers world)
    (request : Request) : veil.Covers (request.serve world) := by
  have veiled := Machine.standard_veiled
  cases request with
  | runSource file text =>
    rw [Request.serve, runSource, perform_snd]
    exact veiled.keeps_startText file text world covers
  | runFile file =>
    rw [Request.serve, runFile, perform_snd]
    exact veiled.keeps_startFile file world covers
  | importByName name =>
    rw [Request.serve, importByName, perform_snd]
    exact veiled.keeps_startImport name world covers
  | report failure =>
    rw [Request.serve, reportOf, perform_snd]
    exact veiled.keeps_report failure world covers
  | _ => exact covers.of_objects rfl le_rfl

end World

/-- Nothing is hidden when a session begins. -/
def Veil.none : Veil where
  hides _ := False
  count := 1
  bounded _ := False.elim
  builtins := ⟨Nat.zero_lt_one, not_false⟩

theorem World.covers_beginning (host : Host) (searchPath : List String) :
    Veil.none.Covers (beginning host searchPath) := by
  have bareCovered : Veil.none.Covers (bare host searchPath) := by
    refine ⟨by simp [Veil.none, bare], ?_⟩
    intro ref function definition closure defaults found code
    have nothing : (bare host searchPath).Defines fun _ => False := bare_defines host searchPath
    exact (nothing ref function definition closure defaults found code).elim
  have filled := (Machine.ofFuel_veiled 0).keeps_fillBuiltins _ bareCovered
  delta beginning
  generalize Exec.fillBuiltins (bare host searchPath) = result at filled ⊢
  cases result <;> exact filled

/-! ### States of a session -/

/-- A state of a session, between its runs or in the middle of one: the tables of the class bodies
that have begun, the scopes whose statements are under way, the innermost first, and the world. -/
inductive World.Underway : List SpaceId → List Env → World → Prop
  | begun (host : Host) (searchPath : List String) : Underway [] [] (beginning host searchPath)
  | served {bodies : List SpaceId} {scopes : List Env} {world : World} (request : Request) :
    Underway bodies scopes world → Underway bodies scopes (request.serve world)
  /-- A module begins, in a scope of its own. -/
  | moduleBegun {bodies : List SpaceId} {scopes : List Env} {world : World} (table : Namespace) :
    Underway bodies scopes world →
    Underway bodies (moduleEnv ⟨world.spaces.size⟩ :: scopes)
      { world with spaces := world.spaces.push table }
  /-- A call of a function begins, in a new frame on the scope that the function keeps. -/
  | callBegun {bodies : List SpaceId} {scopes : List Env} {world : World} {callee : Ref}
    {function : Function} {definition : Definition} {closure : Env}
    {defaults : List (String × Ref)} (table : Namespace) :
    Underway bodies scopes world → (world.object callee).function = some function →
    function.code = .written definition closure defaults →
    Underway bodies ((⟨⟨world.spaces.size⟩, function.name, false⟩ :: closure) :: scopes)
      { world with spaces := world.spaces.push table }
  /-- The body of a class begins, in a new frame on the innermost scope. -/
  | classBegun {bodies : List SpaceId} {scopes : List Env} {env : Env} {world : World}
    (name : String) :
    Underway bodies (env :: scopes) world →
    Underway (⟨world.spaces.size⟩ :: bodies)
      ((⟨⟨world.spaces.size⟩, name, true⟩ :: env) :: env :: scopes)
      { world with spaces := world.spaces.push .empty }
  /-- A statement of the innermost scope is executed. -/
  | executed {bodies : List SpaceId} {scopes : List Env} {env : Env} {world : World} (fuel : Nat)
    (statement : Stmt) :
    Underway bodies (env :: scopes) world →
    Underway bodies (env :: scopes)
      (leftBy (Exec.execute (Machine.ofFuel fuel) env statement world))
  /-- What is under way in the innermost scope ends. -/
  | left {bodies : List SpaceId} {scopes : List Env} {env : Env} {world : World} :
    Underway bodies (env :: scopes) world → Underway bodies scopes world
  /-- What is done on the way to the next statement makes no code, and what of it is not quiet does
  not concern objects. -/
  | quiet {bodies : List SpaceId} {scopes : List Env} {world after : World} :
    Underway bodies scopes world → world.Quiet after → Underway bodies scopes after
  | aside {bodies : List SpaceId} {scopes : List Env} {world after : World} :
    Underway bodies scopes world → after.objects = world.objects →
    world.spaces.size ≤ after.spaces.size → Underway bodies scopes after

namespace World

variable {bodies : List SpaceId} {scopes : List Env} {world : World}

/-- The tables of class bodies are hidden, and statements run in scopes that allow for it. -/
theorem Underway.veiled (underway : Underway bodies scopes world) :
    ∃ veil : Veil, veil.Covers world ∧ (∀ env ∈ scopes, veil.Admits env) ∧
      ∀ space ∈ bodies, veil.hides space := by
  induction underway with
  | begun host searchPath =>
    exact ⟨.none, covers_beginning host searchPath, List.forall_mem_nil _, List.forall_mem_nil _⟩
  | served request _ inductionHypothesis =>
    obtain ⟨veil, covers, admits, hidden⟩ := inductionHypothesis
    exact ⟨veil, covers_serve covers request, admits, hidden⟩
  | @moduleBegun bodies scopes world table _ inductionHypothesis =>
    obtain ⟨veil, covers, admits, hidden⟩ := inductionHypothesis
    have more : veil.count ≤ world.spaces.size + 1 := covers.made.trans (Nat.le_succ _)
    refine ⟨veil.later _ more, covers.pushSpace table more, List.forall_mem_cons.mpr ⟨?_, ?_⟩,
      hidden⟩
    · exact Veil.admits_moduleEnv (veil.not_hides covers.made) (Nat.lt_succ_self _)
    · exact fun env listed => (admits env listed).later more
  | @callBegun bodies scopes world callee function definition closure defaults table _ found code
      inductionHypothesis =>
    obtain ⟨veil, covers, admits, hidden⟩ := inductionHypothesis
    have more : veil.count ≤ world.spaces.size + 1 := covers.made.trans (Nat.le_succ _)
    refine ⟨veil.later _ more, covers.pushSpace table more, List.forall_mem_cons.mpr ⟨?_, ?_⟩,
      hidden⟩
    · have shown := covers.closures callee function definition closure defaults found code
      exact Veil.admits_call function.name (veil.not_hides covers.made) (Nat.lt_succ_self _)
        fun frame inside => ((shown frame inside).mono (Nat.le_succ _)).later more
    · exact fun env listed => (admits env listed).later more
  | @classBegun bodies scopes env world name _ inductionHypothesis =>
    obtain ⟨veil, covers, admits, hidden⟩ := inductionHypothesis
    have earlier (env : Env) (listed : env ∈ _ :: scopes) :=
      (admits env listed).later covers.made
    refine ⟨(veil.later _ covers.made).hideNext, covers.pushHidden .empty,
      List.forall_mem_cons.mpr ⟨?_, ?_⟩, List.forall_mem_cons.mpr ⟨.inr rfl, ?_⟩⟩
    · exact (earlier env List.mem_cons_self).classBody name
    · exact fun env listed => (earlier env listed).hideNext
    · exact fun space listed => .inl (hidden space listed)
  | executed fuel statement _ inductionHypothesis =>
    obtain ⟨veil, covers, admits, hidden⟩ := inductionHypothesis
    have kept := (Machine.ofFuel_veiled fuel).keeps_execute (admits _ List.mem_cons_self) statement
    exact ⟨veil, kept _ covers, admits, hidden⟩
  | left _ inductionHypothesis =>
    obtain ⟨veil, covers, admits, hidden⟩ := inductionHypothesis
    exact ⟨veil, covers, (List.forall_mem_cons.mp admits).2, hidden⟩
  | quiet _ quiet inductionHypothesis =>
    obtain ⟨veil, covers, admits, hidden⟩ := inductionHypothesis
    exact ⟨veil, covers.of_quiet quiet, admits, hidden⟩
  | aside _ same tables inductionHypothesis =>
    obtain ⟨veil, covers, admits, hidden⟩ := inductionHypothesis
    exact ⟨veil, covers.of_objects same tables, admits, hidden⟩

/-- What a name means in a scope depends on the tables of its frames alone. -/
theorem meaning_congr {other : World} {env : Env} (name : String)
    (same : ∀ frame ∈ env, other.namespaceAt frame.space = world.namespaceAt frame.space) :
    other.meaning env name = world.meaning env name := by
  rw [meaning, meaning]
  congr 1
  induction env with
  | nil => rfl
  | cons frame outer inductionHypothesis =>
    rw [List.forall_mem_cons] at same
    rw [List.findSome?_cons, List.findSome?_cons, same.1, inductionHypothesis same.2]

/-- A scope shows nothing of some tables: it has no frame of a class body and none with one of them,
so in a call of a function that keeps the scope, a name means the same whatever they hold. -/
def Conceals (world : World) (bodies : List SpaceId) (closure : Env) : Prop :=
  (∀ frame ∈ closure, frame.isClassBody = false ∧ frame.space ∉ bodies) ∧
  ∀ (other : World) (call : Frame) (name : String), call.space ∉ bodies →
    (∀ space, space ∉ bodies → other.namespaceAt space = world.namespaceAt space) →
    other.meaning (call :: closure) name = world.meaning (call :: closure) name

/-- In every state of a session, the functions that programs defined keep scopes that show nothing
of class bodies. -/
theorem Underway.closures_conceal_bodies (underway : Underway bodies scopes world) :
    world.Closes (world.Conceals bodies) := by
  obtain ⟨veil, covers, -, hidden⟩ := underway.veiled
  refine covers.closures.mono fun closure shown => ?_
  have apart (frame : Frame) (inside : frame ∈ closure) : frame.space ∉ bodies :=
    fun listed => (shown frame inside).shown (hidden _ listed)
  refine ⟨fun frame inside => ⟨(shown frame inside).scope, apart frame inside⟩, ?_⟩
  intro other call name callApart same
  refine meaning_congr name (List.forall_mem_cons.mpr ⟨same _ callApart, ?_⟩)
  exact fun frame inside => same _ (apart frame inside)

/-- A method of a class in a class keeps the scope of the module. -/
theorem nested_method_conceals_bodies :
    let method : Stmt := .functionDef ⟨"shapes", 3⟩ "area" []
      [.simple ⟨"shapes", 4⟩ (.returnValue (some (.name ⟨"shapes", 4⟩ "side")))]
    let start := beginning { files := ⟨"/", []⟩, input := "", output := "" } []
    let inModule : World := { start with spaces := start.spaces.push .empty }
    let inOuter : World := { inModule with spaces := inModule.spaces.push .empty }
    let inInner : World := { inOuter with spaces := inOuter.spaces.push .empty }
    let moduleScope := moduleEnv ⟨start.spaces.size⟩
    let outerScope : Env := ⟨⟨inModule.spaces.size⟩, "Outer", true⟩ :: moduleScope
    let innerScope : Env := ⟨⟨inOuter.spaces.size⟩, "Inner", true⟩ :: outerScope
    let bodies : List SpaceId := [⟨inOuter.spaces.size⟩, ⟨inModule.spaces.size⟩]
    let after := leftBy (Exec.execute (Machine.ofFuel 1) innerScope method inInner)
    Underway bodies [innerScope, outerScope, moduleScope] after ∧
      ((after.object ⟨start.objects.size + 1⟩).function.map Function.code = some (.written
        ⟨[], [.simple ⟨"shapes", 4⟩ (.returnValue (some (.name ⟨"shapes", 4⟩ "side")))]⟩
        moduleScope [])) ∧
      after.Closes (after.Conceals bodies) := by
  intro method start inModule inOuter inInner moduleScope outerScope innerScope bodies after
  have underway : Underway bodies [innerScope, outerScope, moduleScope] after :=
    .executed 1 method (.classBegun "Inner" (.classBegun "Outer"
      (.moduleBegun .empty (.begun _ []))))
  refine ⟨underway, ?_, underway.closures_conceal_bodies⟩
  clear underway
  clear_value start
  have objects : after.objects = (start.objects.push
      ⟨BuiltinClass.str.ref, none, .str "area", none⟩).push
      ⟨BuiltinClass.function.ref, some ⟨inInner.spaces.size⟩, .empty, some ⟨"area", .written
        ⟨[], [.simple ⟨"shapes", 4⟩ (.returnValue (some (.name ⟨"shapes", 4⟩ "side")))]⟩
        moduleScope [], []⟩⟩ := rfl
  simp [object, objects, Array.getElem_push]

end World

end Offside
