/-
This file relates the registry of modules to its journal. The registry agrees with its
journal if, for every file, what is loaded, what is running and what waits is what the
events of the file lead to. Changes of the registry and events are made apart from each
other, and each change together with its event keeps the agreement; the conditions under
which imports make these changes are those that the journal needs to be lawful.

What an import does to the registry is told by what it leaves behind, whether it fails or
not: the imports that were running are running again, what was loaded is still loaded,
and the registry agrees with its journal as before.
-/

import Mathlib.Data.List.Forall2
import Offside.Proofs.Modules.Journal

namespace Offside

/-! ### Entries by path -/

namespace Registry

/-- Changing what stands under one path changes nothing else. -/
theorem lookup_map {α : Type} (path other : String) (step : α → α) (entries : List (String × α)) :
    (entries.map fun (place, value) =>
        if place == path then (place, step value) else (place, value)).lookup other =
      if other = path then (entries.lookup other).map step else entries.lookup other := by
  induction entries with
  | nil => simp
  | cons entry rest inductionHypothesis =>
    obtain ⟨place, value⟩ := entry
    rw [List.map_cons]
    dsimp only
    by_cases own : place = path
    · subst own
      rw [if_pos (beq_self_eq_true place), List.lookup_cons, List.lookup_cons, inductionHypothesis]
      by_cases same : other = place
      · subst same
        simp
      · rw [beq_false_of_ne same, if_neg same]
    · rw [if_neg (by simpa using own), List.lookup_cons, List.lookup_cons, inductionHypothesis]
      by_cases same : other = place
      · subst same
        simp [own]
      · rw [beq_false_of_ne same]

variable (registry : Registry) (path other : String)

theorem running?_begin (name : String) : (registry.begin path name).running? other =
      if other = path then some ⟨name, []⟩ else registry.running? other := by
  rw [running?, begin, List.lookup_cons]
  by_cases same : other = path
  · rw [if_pos same, same, beq_self_eq_true]
  · rw [if_neg same, beq_false_of_ne same, running?]

theorem running?_abandon : (registry.abandon path).running? other =
    if other = path then none else registry.running? other :=
  Namespace.lookup_filter path other registry.running

theorem running?_finish (ref : Ref) : (registry.finish path ref).running? other =
    if other = path then none else registry.running? other :=
  Namespace.lookup_filter path other registry.running

theorem running?_defer (binding : Deferred) : (registry.defer path binding).running? other =
    if other = path then
      (registry.running? other).map fun job => { job with deferred := job.deferred ++ [binding] }
    else registry.running? other :=
  lookup_map path other (fun job : Job => { job with deferred := job.deferred ++ [binding] })
    registry.running

theorem loaded?_finish (ref : Ref) : (registry.finish path ref).loaded? other =
    if other = path then some ref else registry.loaded? other := by
  rw [loaded?, finish, List.lookup_cons, Namespace.lookup_filter]
  by_cases same : other = path
  · subst same
    simp
  · rw [if_neg same, if_neg same, beq_false_of_ne same, loaded?]

end Registry

/-! ### Registry and journal -/

/-- The state of a file is what the registry says of it. After a run that succeeded there may be
bindings left that are still to be carried out. -/
structure ModuleState.Matches (state : ModuleState) (module? : Option Ref) (job? : Option Job)
    (debt : List Deferred) : Prop where
  loaded : state.module_ = module?
  idle : job? = none → module? = none → state.run = none
  running : ∀ job, job? = some job →
    state.run.isSome = true ∧ module? = none ∧ state.owed = job.deferred
  owed : job? = none → state.owed = debt

namespace Registry

/-- The registry says of every file what its journal says. -/
structure Agrees (debts : String → List Deferred) (registry : Registry) : Prop where
  lawful : Journal.Lawful registry.journal
  matches_ : ∀ path, (Journal.state path registry.journal).Matches (registry.loaded? path)
    (registry.running? path) (debts path)

/-- No binding is left to be carried out. -/
def noDebts : String → List Deferred :=
  fun _ => []

/-- The imports that were running are running again, with what was deferred to them meanwhile. -/
def Resumes (before after : Registry) : Prop :=
  List.Forall₂ (fun earlier later => later.1 = earlier.1 ∧ later.2.name = earlier.2.name ∧
    earlier.2.deferred <+: later.2.deferred) before.running after.running

section Steps

variable {registry after : Registry} {debts debtsAfter : String → List Deferred} {path : String}

/-- An event concerns one file. -/
theorem Agrees.step (agrees : registry.Agrees debts) (path : String) {event : ModuleEvent}
    (about : event.path = path) (journal : after.journal = event :: registry.journal)
    (permits : (Journal.state path registry.journal).Permits event)
    (own : ((Journal.state path registry.journal).after event).Matches (after.loaded? path)
      (after.running? path) (debtsAfter path))
    (others : ∀ other, other ≠ path → after.loaded? other = registry.loaded? other ∧
      after.running? other = registry.running? other ∧ debtsAfter other = debts other) :
    after.Agrees debtsAfter := by
  subst about
  refine ⟨journal ▸ ⟨permits, agrees.lawful⟩, fun other => ?_⟩
  rw [journal]
  by_cases same : event.path = other
  · subst same
    rwa [Journal.state_cons_self]
  · obtain ⟨loaded, running, debt⟩ := others other (Ne.symm same)
    rw [Journal.state_cons_of_ne event same, loaded, running, debt]
    exact agrees.matches_ other

theorem Agrees.begin (agrees : registry.Agrees noDebts) (unloaded : registry.loaded? path = none)
    (idle : registry.running? path = none) (name : String) (purpose : Purpose) :
    ((registry.begin path name).note (.started path purpose)).Agrees noDebts := by
  have known := agrees.matches_ path
  have run := known.idle idle unloaded
  have owed := known.owed idle
  have module_ := known.loaded.trans unloaded
  refine agrees.step path rfl rfl ?_ ?_ fun other different => ⟨rfl, ?_, rfl⟩
  · cases purpose with
    | imported => exact ⟨run, module_, owed⟩
    | main => exact ⟨run, owed⟩
  · change ModuleState.Matches _ (registry.loaded? path)
      ((registry.begin path name).running? path) _
    rw [running?_begin, if_pos rfl]
    refine ⟨known.loaded, (fun none => by cases none), fun job same => ?_,
      (fun none => by cases none)⟩
    cases same
    exact ⟨rfl, unloaded, owed⟩
  · exact (running?_begin registry path other name).trans (if_neg different)

/-- A file with a module is run again as the main program. -/
theorem Agrees.startAgain (agrees : registry.Agrees noDebts)
    (loaded : (registry.loaded? path).isSome = true)
    (run : (Journal.state path registry.journal).run = none) :
    (registry.note (.started path .main)).Agrees noDebts := by
  have known := agrees.matches_ path
  have idle : registry.running? path = none := by
    by_contra running
    obtain ⟨job, running⟩ := Option.ne_none_iff_exists'.mp running
    rw [(known.running job running).2.1] at loaded
    cases loaded
  refine agrees.step path rfl rfl ⟨run, known.owed idle⟩ ?_ fun _ _ => ⟨rfl, rfl, rfl⟩
  change ModuleState.Matches _ (registry.loaded? path) (registry.running? path) _
  refine ⟨known.loaded, fun _ none => ?_, fun job same => ?_, known.owed⟩
  · rw [none] at loaded
    cases loaded
  · cases idle.symm.trans same

theorem Agrees.abandon (agrees : registry.Agrees noDebts)
    (run : (Journal.state path registry.journal).run.isSome = true) :
    ((registry.note (.failed path)).abandon path).Agrees noDebts := by
  refine agrees.step path rfl rfl run ?_ fun other different => ⟨rfl, ?_, rfl⟩
  · change ModuleState.Matches _ (registry.loaded? path) _ _
    rw [running?_abandon, if_pos rfl]
    exact ⟨(agrees.matches_ path).loaded, fun _ _ => rfl, (fun _ same => by cases same),
      fun _ => rfl⟩
  · rw [running?_abandon, if_neg different]
    rfl

/-- What waits for a file, by the registry. -/
def waiting (registry : Registry) (path : String) : List Deferred :=
  (registry.running? path).elim [] Job.deferred

theorem Agrees.owed_eq (agrees : registry.Agrees noDebts) (path : String) :
    (Journal.state path registry.journal).owed = registry.waiting path := by
  have known := agrees.matches_ path
  rw [waiting]
  cases running : registry.running? path with
  | none => exact known.owed running
  | some job => exact (known.running job running).2.2

/-- Only this file has bindings left to be carried out. -/
def debtsOf (path : String) (owed : List Deferred) : String → List Deferred :=
  fun other => if other = path then owed else []

theorem Agrees.finish (agrees : registry.Agrees noDebts)
    (run : (Journal.state path registry.journal).run.isSome = true) (module_ : Ref) :
    ((registry.note (.finished path module_)).finish path module_).Agrees
      (debtsOf path (registry.waiting path)) := by
  refine agrees.step path rfl rfl run ?_ fun other different => ⟨?_, ?_, if_neg different⟩
  · rw [loaded?_finish, if_pos rfl, running?_finish, if_pos rfl, debtsOf,
      if_pos rfl, ← agrees.owed_eq]
    exact ⟨rfl, (fun _ none => by cases none), (fun _ same => by cases same), fun _ => rfl⟩
  · rw [loaded?_finish, if_neg different]
    rfl
  · rw [running?_finish, if_neg different]
    rfl

theorem Agrees.found (agrees : registry.Agrees debts) {module_ : Ref}
    (loaded : registry.loaded? path = some module_) :
    (registry.note (.found path module_)).Agrees debts :=
  agrees.step path rfl rfl ((agrees.matches_ path).loaded.trans loaded) (agrees.matches_ path)
    fun _ _ => ⟨rfl, rfl, rfl⟩

theorem Agrees.defer (agrees : registry.Agrees noDebts) {job : Job}
    (running : registry.running? path = some job) (binding : Deferred) :
    ((registry.defer path binding).note (.deferred path binding)).Agrees noDebts := by
  have known := agrees.matches_ path
  obtain ⟨run, unloaded, owed⟩ := known.running job running
  refine agrees.step path rfl rfl ⟨run, known.loaded.trans unloaded⟩ ?_
    fun other different => ⟨rfl, ?_, rfl⟩
  · change ModuleState.Matches _ (registry.loaded? path)
      ((registry.defer path binding).running? path) _
    rw [running?_defer, if_pos rfl, running]
    refine ⟨known.loaded, (fun none => by cases none), fun longer same => ?_,
      (fun none => by cases none)⟩
    cases same
    exact ⟨run, unloaded, congrArg (· ++ [binding]) owed⟩
  · exact (running?_defer registry path other binding).trans (if_neg different)

theorem Agrees.settled {binding : Deferred} {rest : List Deferred} {module_ : Ref}
    (agrees : registry.Agrees (debtsOf path (binding :: rest)))
    (loaded : registry.loaded? path = some module_) (idle : registry.running? path = none)
    (ended : (Journal.state path registry.journal).run = none) :
    (registry.note (.settled path module_ binding)).Agrees (debtsOf path rest) := by
  have known := agrees.matches_ path
  have owed := known.owed idle
  rw [debtsOf, if_pos rfl] at owed
  refine agrees.step path rfl rfl ⟨ended, known.loaded.trans loaded, by rw [owed]; rfl⟩ ?_
    fun other different => ⟨rfl, rfl, ?_⟩
  · change ModuleState.Matches _ (registry.loaded? path) (registry.running? path) _
    rw [idle, loaded]
    refine ⟨known.loaded.trans loaded, (fun _ none => by cases none),
      (fun _ same => by cases same), fun _ => ?_⟩
    change List.tail (Journal.state path registry.journal).owed = debtsOf path rest path
    rw [owed, debtsOf, if_pos rfl]
    rfl
  · rw [debtsOf, debtsOf, if_neg different, if_neg different]

theorem Agrees.unsettled {binding : Deferred} {rest : List Deferred} {module_ : Ref}
    (agrees : registry.Agrees (debtsOf path (binding :: rest)))
    (loaded : registry.loaded? path = some module_) (idle : registry.running? path = none)
    (ended : (Journal.state path registry.journal).run = none) :
    (registry.note (.unsettled path module_ binding)).Agrees noDebts := by
  have known := agrees.matches_ path
  have owed := known.owed idle
  rw [debtsOf, if_pos rfl] at owed
  refine agrees.step path rfl rfl ⟨ended, known.loaded.trans loaded, by rw [owed]; rfl⟩ ?_
    fun other different => ⟨rfl, rfl, ?_⟩
  · change ModuleState.Matches _ (registry.loaded? path) (registry.running? path) _
    rw [idle, loaded]
    exact ⟨known.loaded.trans loaded, (fun _ none => by cases none), (fun _ same => by cases same),
      fun _ => rfl⟩
  · rw [noDebts, debtsOf, if_neg different]

end Steps

/-! ### Resuming -/

theorem Resumes.refl (registry : Registry) : registry.Resumes registry :=
  List.forall₂_same.mpr fun _ _ => ⟨rfl, rfl, List.prefix_refl _⟩

theorem Resumes.trans {before middle after : Registry} (first : before.Resumes middle)
    (last : middle.Resumes after) : before.Resumes after := by
  unfold Resumes at *
  generalize before.running = start at first
  generalize middle.running = between at first last
  generalize after.running = ending at last
  induction first generalizing ending with
  | nil => exact last
  | cons related _ inductionHypothesis =>
    obtain ⟨_, _, relatedNext, others, rfl⟩ := List.forall₂_cons_left_iff.mp last
    refine .cons ?_ (inductionHypothesis _ others)
    exact ⟨relatedNext.1.trans related.1, relatedNext.2.1.trans related.2.1,
      related.2.2.trans relatedNext.2.2⟩

/-- The same imports are running. -/
theorem Resumes.running? {before after : Registry} (resumes : before.Resumes after)
    (path : String) : (after.running? path).isSome = (before.running? path).isSome := by
  rw [Registry.running?, Registry.running?]
  unfold Resumes at resumes
  generalize before.running = start at resumes
  generalize after.running = ending at resumes
  induction resumes with
  | nil => rfl
  | @cons earlier later _ _ related _ inductionHypothesis =>
    obtain ⟨place, job⟩ := earlier
    obtain ⟨samePlace, laterJob⟩ := later
    obtain ⟨rfl, -⟩ := related
    rw [List.lookup_cons, List.lookup_cons]
    cases path == samePlace with
    | true => rfl
    | false => exact inductionHypothesis

theorem Resumes.abandon {before after : Registry} (resumes : before.Resumes after)
    (path : String) : (before.abandon path).Resumes (after.abandon path) := by
  refine List.rel_filter (fun earlier later related => ?_) resumes
  dsimp only
  rw [related.1]

/-- An import that is not running cannot be taken out. -/
theorem filter_running {registry : Registry} {path : String}
    (idle : registry.running? path = none) :
    registry.running.filter (·.1 != path) = registry.running := by
  refine List.filter_eq_self.mpr fun entry inside => ?_
  have absent := List.lookup_eq_none_iff.mp idle entry inside
  rw [bne_iff_ne]
  rintro rfl
  simp at absent

/-! ### What imports do to the registry -/

/-- What was running is running again, and what was loaded is still loaded. No file was run as the
main program, and the registry agrees with its journal if it did before. -/
structure Advances (before after : Registry) : Prop where
  resumes : before.Resumes after
  loaded : ∀ path module_, before.loaded? path = some module_ → after.loaded? path = some module_
  /-- A file is not loaded by anyone else while its import is running. -/
  guarded : ∀ path, (before.running? path).isSome = true →
    after.loaded? path = before.loaded? path
  journal : ∃ added, after.journal = added ++ before.journal ∧
    ∀ path, ModuleEvent.started path .main ∉ added
  agrees : before.Agrees noDebts → after.Agrees noDebts ∧
    ∀ path, (Journal.state path after.journal).run = (Journal.state path before.journal).run

theorem Advances.refl (registry : Registry) : registry.Advances registry where
  resumes := .refl registry
  loaded _ _ := id
  guarded _ _ := rfl
  journal := ⟨[], rfl, by simp⟩
  agrees given := ⟨given, fun _ => rfl⟩

theorem Advances.trans {before middle after : Registry} (first : before.Advances middle)
    (last : middle.Advances after) : before.Advances after where
  resumes := first.resumes.trans last.resumes
  loaded path module_ found := last.loaded path module_ (first.loaded path module_ found)
  guarded path running := by
    rw [last.guarded path (by rwa [first.resumes.running?]), first.guarded path running]
  journal := by
    obtain ⟨early, earlyJournal, earlyMain⟩ := first.journal
    obtain ⟨late, lateJournal, lateMain⟩ := last.journal
    refine ⟨late ++ early, by rw [lateJournal, earlyJournal, List.append_assoc], fun path => ?_⟩
    rw [List.mem_append, not_or]
    exact ⟨lateMain path, earlyMain path⟩
  agrees given := by
    obtain ⟨middleAgrees, middleRuns⟩ := first.agrees given
    obtain ⟨afterAgrees, afterRuns⟩ := last.agrees middleAgrees
    exact ⟨afterAgrees, fun path => (afterRuns path).trans (middleRuns path)⟩

/-- The code of a program does not start the main program. -/
theorem Advances.main_mem {before after : Registry} (advances : before.Advances after)
    {path : String} (started : .started path .main ∈ after.journal) :
    .started path .main ∈ before.journal := by
  obtain ⟨added, same, none⟩ := advances.journal
  rw [same, List.mem_append] at started
  exact started.resolve_left (none path)

/-- An import that finds a module. -/
theorem advances_found {registry : Registry} {path : String} {module_ : Ref}
    (loaded : registry.loaded? path = some module_) :
    registry.Advances (registry.note (.found path module_)) where
  resumes := .refl registry
  loaded _ _ := id
  guarded _ _ := rfl
  journal := ⟨[.found path module_], rfl, by simp⟩
  agrees given := by
    refine ⟨given.found loaded, fun other => ?_⟩
    rw [note, Journal.state]
    split <;> rfl

/-- An import whose binding waits for another one. -/
theorem advances_defer {registry : Registry} {path : String} {job : Job}
    (running : registry.running? path = some job) (binding : Deferred) :
    registry.Advances ((registry.defer path binding).note (.deferred path binding)) where
  resumes := by
    refine List.forall₂_map_right_iff.mpr (List.forall₂_same.mpr fun entry _ => ?_)
    dsimp only
    split
    · exact ⟨rfl, rfl, List.prefix_append _ _⟩
    · exact ⟨rfl, rfl, List.prefix_refl _⟩
  loaded _ _ := id
  guarded _ _ := rfl
  journal := ⟨[.deferred path binding], rfl, by simp⟩
  agrees given := by
    refine ⟨given.defer running binding, fun other => ?_⟩
    rw [note, Journal.state]
    split <;> rfl

/-! ### How a run of a file ends -/

/-- Enters events into the journal. -/
def noteAll (registry : Registry) (events : Journal) : Registry :=
  { registry with journal := events ++ registry.journal }

/-- The events of carrying out bindings one after the other, up to the first that fails. -/
inductive Settlement (path : String) (module_ : Ref) : List Deferred → Journal → Prop
  | done : Settlement path module_ [] []
  | settled {binding : Deferred} {rest : List Deferred} {notes : Journal} :
    Settlement path module_ rest notes →
    Settlement path module_ (binding :: rest) (notes ++ [.settled path module_ binding])
  | stopped {binding : Deferred} {rest : List Deferred} :
    Settlement path module_ (binding :: rest) [.unsettled path module_ binding]

/-- What the end of a run makes of the registry in which its body began. -/
inductive Completes (path : String) (module_ : Ref) (begun : Registry) : Registry → Prop
  | failed {ended : Registry} : begun.Advances ended →
    Completes path module_ begun ((ended.note (.failed path)).abandon path)
  | finished {ended : Registry} {notes : Journal} : begun.Advances ended →
    Settlement path module_ (ended.waiting path) notes →
    Completes path module_ begun
      (((ended.note (.finished path module_)).finish path module_).noteAll notes)

namespace Settlement

variable {path : String} {module_ : Ref} {owed : List Deferred} {notes : Journal}

theorem state_eq (settlement : Settlement path module_ owed notes) (other : String)
    (earlier : Journal) :
    (Journal.state other (notes ++ earlier)).run = (Journal.state other earlier).run := by
  induction settlement generalizing earlier with
  | done => rfl
  | settled _ inductionHypothesis =>
    rw [List.append_assoc, inductionHypothesis, List.singleton_append, Journal.state]
    split <;> rfl
  | stopped =>
    rw [List.singleton_append, Journal.state]
    split <;> rfl

/-- Carrying out bindings is all that happens. -/
theorem eq_of_mem (settlement : Settlement path module_ owed notes) {event : ModuleEvent}
    (inside : event ∈ notes) :
    ∃ binding, event = .settled path module_ binding ∨ event = .unsettled path module_ binding := by
  induction settlement with
  | done => cases inside
  | @settled binding _ _ _ inductionHypothesis =>
    rw [List.mem_append, List.mem_singleton] at inside
    exact inside.elim inductionHypothesis fun same => ⟨binding, .inl same⟩
  | @stopped binding =>
    rw [List.mem_singleton] at inside
    exact ⟨binding, .inr inside⟩

theorem agrees (settlement : Settlement path module_ owed notes) {registry : Registry}
    (given : registry.Agrees (debtsOf path owed)) (loaded : registry.loaded? path = some module_)
    (idle : registry.running? path = none)
    (ended : (Journal.state path registry.journal).run = none) :
    (registry.noteAll notes).Agrees noDebts := by
  induction settlement generalizing registry with
  | done =>
    have none : debtsOf path [] = noDebts := by
      funext other
      rw [debtsOf, ite_self]
      rfl
    rw [none] at given
    exact given
  | @settled binding _ _ _ inductionHypothesis =>
    have carried := Journal.state_cons_self (.settled path module_ binding) registry.journal
    rw [noteAll, List.append_assoc]
    exact inductionHypothesis (given.settled loaded idle ended) loaded idle
      ((congrArg ModuleState.run carried).trans ended)
  | stopped => exact given.unsettled loaded idle ended

end Settlement

namespace Completes

variable {path : String} {module_ : Ref} {begun after : Registry}

/-- The imports that were running before are running again. -/
theorem resumes (completes : Completes path module_ begun after) :
    (begun.abandon path).Resumes after := by
  cases completes with
  | failed advances => exact advances.resumes.abandon path
  | finished advances => exact advances.resumes.abandon path

/-- The end of a run concerns one file. -/
theorem loaded (completes : Completes path module_ begun after) {other : String}
    (different : other ≠ path) {known : Ref} (found : begun.loaded? other = some known) :
    after.loaded? other = some known := by
  cases completes with
  | failed advances => exact advances.loaded other known found
  | @finished ended _ advances =>
    change ((ended.note (.finished path module_)).finish path module_).loaded? other = _
    rw [loaded?_finish, if_neg different]
    exact advances.loaded other known found

theorem guarded (completes : Completes path module_ begun after) {other : String}
    (different : other ≠ path) (running : (begun.running? other).isSome = true) :
    after.loaded? other = begun.loaded? other := by
  cases completes with
  | failed advances => exact advances.guarded other running
  | @finished ended _ advances =>
    change ((ended.note (.finished path module_)).finish path module_).loaded? other = _
    rw [loaded?_finish, if_neg different]
    exact advances.guarded other running

theorem journal (completes : Completes path module_ begun after) :
    ∃ added, after.journal = added ++ begun.journal ∧
      ∀ path, ModuleEvent.started path .main ∉ added := by
  cases completes with
  | failed advances =>
    obtain ⟨added, same, none⟩ := advances.journal
    exact ⟨.failed path :: added, congrArg (ModuleEvent.failed path :: ·) same, by simpa using none⟩
  | @finished ended notes advances settlement =>
    obtain ⟨added, same, none⟩ := advances.journal
    refine ⟨notes ++ .finished path module_ :: added, ?_, fun other => ?_⟩
    · rw [noteAll, finish, note, same, List.append_assoc]
      rfl
    · rw [List.mem_append, List.mem_cons, not_or, not_or]
      refine ⟨fun inside => ?_, by simp, none other⟩
      obtain ⟨binding, same | same⟩ := settlement.eq_of_mem inside <;> cases same

theorem main_mem (completes : Completes path module_ begun after) {other : String}
    (started : .started other .main ∈ after.journal) : .started other .main ∈ begun.journal := by
  obtain ⟨added, same, none⟩ := completes.journal
  rw [same, List.mem_append] at started
  exact started.resolve_left (none other)

/-- An import that failed loads nothing. -/
theorem loaded?_of_failed {outer : Registry} {name : String}
    (completes : Completes path module_
      ((outer.begin path name).note (.started path .imported)) after)
    (unloaded : outer.loaded? path = none) (failed : after.journal.head? = some (.failed path)) :
    after.loaded? path = none := by
  cases completes with
  | failed advances =>
    have running : ((outer.begin path name).running? path).isSome = true := by
      rw [running?_begin, if_pos rfl]
      rfl
    exact (advances.guarded path running).trans unloaded
  | @finished ended notes _ settlement =>
    change (notes ++ .finished path module_ :: ended.journal).head? = _ at failed
    cases notes with
    | nil => cases failed
    | cons event rest =>
      cases failed
      obtain ⟨binding, same | same⟩ := settlement.eq_of_mem List.mem_cons_self <;> cases same

theorem agrees (completes : Completes path module_ begun after) (given : begun.Agrees noDebts)
    (run : (Journal.state path begun.journal).run.isSome = true) :
    after.Agrees noDebts ∧ (Journal.state path after.journal).run = none ∧
      ∀ other, other ≠ path →
        (Journal.state other after.journal).run = (Journal.state other begun.journal).run := by
  cases completes with
  | @failed ended advances =>
    obtain ⟨endedAgrees, runs⟩ := advances.agrees given
    refine ⟨endedAgrees.abandon (by rwa [runs]), ?_, fun other different => ?_⟩
    · exact congrArg ModuleState.run (Journal.state_cons_self (.failed path) ended.journal)
    · rw [← runs other]
      exact congrArg ModuleState.run
        (Journal.state_cons_of_ne (.failed path) (Ne.symm different) ended.journal)
  | @finished ended notes advances settlement =>
    obtain ⟨endedAgrees, runs⟩ := advances.agrees given
    have finished := endedAgrees.finish (by rwa [runs]) module_
    have idle : (Journal.state path (.finished path module_ :: ended.journal)).run = none :=
      (Journal.state_finished module_).2
    refine ⟨settlement.agrees finished ?_ ?_ idle, ?_, fun other different => ?_⟩
    · rw [loaded?_finish, if_pos rfl]
    · rw [running?_finish, if_pos rfl]
    · exact (settlement.state_eq path _).trans idle
    · rw [noteAll, settlement.state_eq, ← runs other]
      exact congrArg ModuleState.run
        (Journal.state_cons_of_ne (.finished path module_) (Ne.symm different) ended.journal)

/-- A file that is imported for the first time. -/
theorem advances {outer : Registry} {name : String}
    (completes : Completes path module_
      ((outer.begin path name).note (.started path .imported)) after)
    (unloaded : outer.loaded? path = none) (idle : outer.running? path = none) :
    outer.Advances after where
  resumes := by
    have resumed := completes.resumes
    rw [Resumes, abandon, note, begin, List.filter_cons, if_neg (by simp),
      filter_running idle] at resumed
    exact resumed
  loaded other known found := by
    refine completes.loaded (fun same => ?_) found
    rw [same, unloaded] at found
    cases found
  guarded other running := by
    have different : other ≠ path := by
      rintro rfl
      rw [idle] at running
      cases running
    refine completes.guarded different ?_
    change ((outer.begin path name).running? other).isSome = true
    rwa [running?_begin, if_neg different]
  journal := by
    obtain ⟨added, same, none⟩ := completes.journal
    refine ⟨added ++ [.started path .imported], by rw [same, List.append_assoc]; rfl, ?_⟩
    intro other
    rw [List.mem_append, not_or]
    exact ⟨none other, by simp⟩
  agrees given := by
    have begun := given.begin unloaded idle name .imported
    have started := Journal.state_cons_self (.started path .imported) outer.journal
    obtain ⟨afterAgrees, ended, others⟩ := completes.agrees begun
      (congrArg (·.run.isSome) started)
    refine ⟨afterAgrees, fun other => ?_⟩
    by_cases same : other = path
    · subst same
      rw [ended, (given.matches_ other).idle idle unloaded]
    · rw [others other same]
      exact congrArg ModuleState.run
        (Journal.state_cons_of_ne (.started path .imported) (Ne.symm same) outer.journal)

end Completes

end Registry

end Offside
