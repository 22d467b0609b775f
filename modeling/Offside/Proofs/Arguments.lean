/-
This file shows that binding the arguments of a call is a matching of the arguments with
the parameters, and that it is total: a call whose arguments fit gets a frame that binds
every parameter and nothing else, and for all other calls the code of the function never
begins to run.

The three passes over positional arguments, named arguments and parameters share one table,
but as long as no name comes twice they do not get in each other's way. The first two only
add entries, one for each argument, so a look into the table between the passes is a look
into the arguments themselves.
-/

import Offside.Proofs.Conduct.Evaluation
import Offside.Proofs.Raising

namespace Offside

open Exec

/-! ### Entries under distinct names -/

theorem lookup_eq_some_iff_mem {entries : List (String × Ref)}
    (distinct : (entries.map Prod.fst).Nodup) {name : String} {value : Ref} :
    entries.lookup name = some value ↔ (name, value) ∈ entries := by
  refine ⟨fun found => ?_, fun listed => ?_⟩
  · obtain ⟨before, after, rfl, -⟩ := List.lookup_eq_some_iff.mp found
    exact List.mem_append_right _ List.mem_cons_self
  · obtain ⟨before, after, rfl⟩ := List.append_of_mem listed
    refine List.lookup_eq_some_iff.mpr ⟨before, after, rfl, fun entry earlier => ?_⟩
    rw [List.map_append, List.nodup_append] at distinct
    have apart := distinct.2.2 entry.1 (List.mem_map_of_mem earlier) name (by simp)
    exact bne_iff_ne.mpr apart.symm

theorem lookup_eq_none_iff_not_mem {entries : List (String × Ref)} {name : String} :
    entries.lookup name = none ↔ name ∉ entries.map Prod.fst := by
  rw [← Namespace.lookup_isSome_iff_mem, Option.not_isSome_iff_eq_none]

/-- The order of entries under distinct names does not matter. -/
theorem lookup_of_perm {entries others : List (String × Ref)} (same : entries.Perm others)
    (distinct : (entries.map Prod.fst).Nodup) (name : String) :
    entries.lookup name = others.lookup name := by
  have distinctOthers : (others.map Prod.fst).Nodup := (same.map Prod.fst).nodup_iff.mp distinct
  refine Option.ext fun value => ?_
  rw [lookup_eq_some_iff_mem distinct, lookup_eq_some_iff_mem distinctOthers, same.mem_iff]

namespace Namespace

theorem get?_setAll (table : Namespace) {entries : List (String × Ref)}
    (distinct : (entries.map Prod.fst).Nodup) (name : String) :
    (table.setAll entries).get? name = (entries.lookup name).or (table.get? name) := by
  induction entries generalizing table with
  | nil => rfl
  | cons entry rest inductionHypothesis =>
    obtain ⟨new, others⟩ := List.nodup_cons.mp distinct
    have put : (table.setAll (entry :: rest)).get? name =
        (rest.lookup name).or (if name = entry.1 then some entry.2 else table.get? name) := by
      rw [← get?_set]
      exact inductionHypothesis (table.set entry.1 entry.2) others
    rw [put, List.lookup_cons]
    by_cases here : name = entry.1
    · rw [here, lookup_eq_none_iff_not_mem.mpr new, if_pos rfl, beq_self_eq_true]
      rfl
    · rw [if_neg here, beq_false_of_ne here]

end Namespace

/-! ### Matchings -/

namespace Arguments

section Matching

variable (parameters : List Parameter) (defaults : List (String × Ref)) (positional : List Ref)
  (named : List (String × Ref))

/-- The arguments of a call can be matched with the parameters: there is a parameter for each
positional argument, every named argument names a parameter that those leave open, and the
parameters that are open after that have defaults. -/
structure Fit : Prop where
  few : positional.length ≤ parameters.length
  known : ∀ name ∈ named.map Prod.fst,
    name ∈ (parameters.drop positional.length).map (·.name)
  complete : ∀ parameter ∈ parameters.drop positional.length,
    parameter.name ∈ named.map Prod.fst ∨ (defaults.lookup parameter.name).isSome

/-- A frame binds exactly the parameters: those that have a positional argument to it, and all
others to the argument of their name, or else to their default. -/
structure Matched (frame : Namespace) : Prop where
  filled : ∀ parameter value, (parameter, value) ∈ parameters.zip positional →
    frame.get? parameter.name = some value
  others : ∀ parameter ∈ parameters.drop positional.length, frame.get? parameter.name =
    (named.lookup parameter.name).or (defaults.lookup parameter.name)
  exactly : ∀ name, (frame.get? name).isSome ↔ name ∈ parameters.map (·.name)
  settled : frame.pending = []

end Matching

/-- The complaint is one about arguments that do not match: it raises a TypeError. -/
def IsMismatch (complaint : Complaint) : Prop :=
  complaint.exception = .typeError ∧ ∃ text, complaint.message = some text

variable {function : String} {parameters : List Parameter} {defaults : List (String × Ref)}
  {positional : List Ref} {named : List (String × Ref)} {table : Namespace}

/-! ### Positional arguments -/

theorem map_fst_zip_names (few : positional.length ≤ parameters.length) :
    ((parameters.map (·.name)).zip positional).map Prod.fst =
      (parameters.take positional.length).map (·.name) := by
  rw [List.zip_eq_zip_take_min, List.length_map, Nat.min_eq_right few, List.take_length,
    List.map_take]
  refine List.map_fst_zip ?_
  rw [List.length_take]
  exact Nat.min_le_left _ _

theorem nodup_zip_names (distinct : (parameters.map (·.name)).Nodup)
    (few : positional.length ≤ parameters.length) :
    (((parameters.map (·.name)).zip positional).map Prod.fst).Nodup := by
  rw [map_fst_zip_names few, List.map_take]
  exact distinct.sublist (List.take_sublist _ _)

theorem get?_fillPositional (distinct : (parameters.map (·.name)).Nodup)
    (few : positional.length ≤ parameters.length) (name : String) :
    (fillPositional parameters positional).get? name =
      ((parameters.map (·.name)).zip positional).lookup name := by
  rw [fillPositional_eq, Namespace.get?_setAll _ (nodup_zip_names distinct few)]
  exact Option.or_none

theorem names_split (parameters : List Parameter) (count : Nat) :
    (parameters.take count).map (·.name) ++ (parameters.drop count).map (·.name) =
      parameters.map (·.name) := by
  rw [← List.map_append, List.take_append_drop]

theorem not_mem_take (distinct : (parameters.map (·.name)).Nodup) {count : Nat} {name : String}
    (later : name ∈ (parameters.drop count).map (·.name)) :
    name ∉ (parameters.take count).map (·.name) := by
  rw [← names_split parameters count] at distinct
  exact fun earlier => List.disjoint_of_nodup_append distinct earlier later

/-- Positional arguments leave exactly the later parameters open. -/
theorem open_iff_mem_drop (distinct : (parameters.map (·.name)).Nodup)
    (few : positional.length ≤ parameters.length) (name : String) :
    (name ∈ parameters.map (·.name) ∧ (fillPositional parameters positional).get? name = none) ↔
      name ∈ (parameters.drop positional.length).map (·.name) := by
  rw [get?_fillPositional distinct few, lookup_eq_none_iff_not_mem, map_fst_zip_names few,
    ← names_split parameters positional.length, List.mem_append]
  exact ⟨fun known => known.1.resolve_left known.2,
    fun later => ⟨.inr later, not_mem_take distinct later⟩⟩

/-! ### Named arguments -/

theorem mem_names_iff {name : String} :
    (parameters.any (·.name == name)) = true ↔ name ∈ parameters.map (·.name) := by
  simp [List.any_eq_true]

/-- Named arguments for different open parameters are all taken. -/
theorem fillNamed_ok (distinct : (named.map Prod.fst).Nodup)
    (known : ∀ name ∈ named.map Prod.fst, name ∈ parameters.map (·.name))
    (unfilled : ∀ name ∈ named.map Prod.fst, table.get? name = none) :
    fillNamed function parameters named table = .ok (table.setAll named) := by
  induction named generalizing table with
  | nil => rfl
  | cons entry rest inductionHypothesis =>
    rw [List.map_cons] at distinct known unfilled
    rw [List.forall_mem_cons] at known unfilled
    obtain ⟨new, others⟩ := List.nodup_cons.mp distinct
    have found : (!parameters.any (·.name == entry.1)) = false := by
      rw [mem_names_iff.mpr known.1, Bool.not_true]
    rw [fillNamed, found, unfilled.1]
    refine inductionHypothesis others known.2 fun name listed => ?_
    have apart : name ≠ entry.1 := fun same => new (same ▸ listed)
    rw [Namespace.get?_set, if_neg apart, unfilled.2 name listed]

/-- The pass over named arguments ends well only if all of them name open parameters. -/
theorem fillNamed_cases (function : String) (parameters : List Parameter)
    (named : List (String × Ref)) (table : Namespace) :
    (∀ name ∈ named.map Prod.fst, name ∈ parameters.map (·.name) ∧ table.get? name = none) ∨
      ∃ complaint, fillNamed function parameters named table = .error complaint ∧
        IsMismatch complaint := by
  induction named generalizing table with
  | nil => exact .inl (by simp)
  | cons entry rest inductionHypothesis =>
    rw [fillNamed, List.map_cons, List.forall_mem_cons]
    cases known : parameters.any (·.name == entry.1) with
    | false => exact .inr ⟨_, rfl, rfl, _, rfl⟩
    | true =>
      cases filled : table.get? entry.1 with
      | some value => exact .inr ⟨_, rfl, rfl, _, rfl⟩
      | none =>
        obtain rest | refused := inductionHypothesis (table.set entry.1 entry.2)
        · refine .inl ⟨⟨mem_names_iff.mp known, rfl⟩, fun name listed => ?_⟩
          obtain ⟨named, unfilled⟩ := rest name listed
          rw [Namespace.get?_set] at unfilled
          split at unfilled
          · cases unfilled
          · exact ⟨named, unfilled⟩
        · exact .inr refused

/-! ### Defaults -/

/-- Parameters are missing unless each has a value or a default. -/
theorem fillDefaults_missing (defaults : List (String × Ref)) (parameters : List Parameter)
    (table : Namespace) :
    (fillDefaults defaults parameters table).2 = [] ↔ ∀ parameter ∈ parameters,
      (table.get? parameter.name).isSome ∨ (defaults.lookup parameter.name).isSome := by
  induction parameters generalizing table with
  | nil => simp [fillDefaults]
  | cons parameter rest inductionHypothesis =>
    rw [fillDefaults, List.forall_mem_cons]
    cases here : table.get? parameter.name with
    | some value => simp [inductionHypothesis]
    | none =>
      cases given : defaults.lookup parameter.name with
      | none => simp
      | some value =>
        simp only [Option.isSome_none, Bool.false_eq_true, if_false, inductionHypothesis,
          Namespace.get?_set, Option.isSome_some, or_true, true_and]
        refine forall₂_congr fun other _ => ?_
        by_cases same : other.name = parameter.name
        · simp [same, given]
        · simp [same]

/-- A default is for a parameter that has no value yet. -/
theorem get?_fillDefaults (defaults : List (String × Ref)) (parameters : List Parameter)
    (table : Namespace) (name : String) :
    (fillDefaults defaults parameters table).1.get? name =
      (table.get? name).or
        (if name ∈ parameters.map (·.name) then defaults.lookup name else none) := by
  induction parameters generalizing table with
  | nil => simp [fillDefaults]
  | cons parameter rest inductionHypothesis =>
    rw [fillDefaults]
    simp only [List.map_cons, List.mem_cons]
    cases here : table.get? parameter.name with
    | some value =>
      rw [Option.isSome_some, if_pos rfl, inductionHypothesis]
      by_cases same : name = parameter.name
      · simp [same, here]
      · simp [same]
    | none =>
      cases given : defaults.lookup parameter.name with
      | none =>
        simp only [Option.isSome_none, Bool.false_eq_true, if_false, inductionHypothesis]
        by_cases same : name = parameter.name
        · simp [same, given]
        · simp [same]
      | some value =>
        simp only [Option.isSome_none, Bool.false_eq_true, if_false, inductionHypothesis,
          Namespace.get?_set]
        by_cases same : name = parameter.name
        · simp [same, given, here]
        · simp [same]

/-! ### Binding -/

/-- The table once all named arguments are taken. -/
def afterNamed (parameters : List Parameter) (positional : List Ref)
    (named : List (String × Ref)) : Namespace :=
  (fillPositional parameters positional).setAll (byName named)

theorem byName_perm (named : List (String × Ref)) : (byName named).Perm named :=
  List.mergeSort_perm _ _

section Passes

variable (distinct : (parameters.map (·.name)).Nodup)
  (distinctNamed : (named.map Prod.fst).Nodup) (few : positional.length ≤ parameters.length)

include distinct distinctNamed few

theorem get?_afterNamed (name : String) : (afterNamed parameters positional named).get? name =
    (named.lookup name).or (((parameters.map (·.name)).zip positional).lookup name) := by
  have sorted := byName_perm named
  have distinctSorted := (sorted.map Prod.fst).nodup_iff.mpr distinctNamed
  rw [afterNamed, Namespace.get?_setAll _ distinctSorted, lookup_of_perm sorted distinctSorted,
    get?_fillPositional distinct few]

theorem fillNamed_byName (function : String) (known : ∀ name ∈ named.map Prod.fst,
      name ∈ (parameters.drop positional.length).map (·.name)) :
    fillNamed function parameters (byName named) (fillPositional parameters positional) =
      .ok (afterNamed parameters positional named) := by
  have sorted := (byName_perm named).map Prod.fst
  have unfilled (name : String) (listed : name ∈ (byName named).map Prod.fst) :=
    (open_iff_mem_drop distinct few name).mpr (known name (sorted.mem_iff.mp listed))
  exact fillNamed_ok (sorted.nodup_iff.mpr distinctNamed)
    (fun name listed => (unfilled name listed).1)
    fun name listed => (unfilled name listed).2

/-- Only the parameters after the positional arguments can be missing. -/
theorem missing_eq_nil_iff :
    (fillDefaults defaults parameters (afterNamed parameters positional named)).2 = [] ↔
      ∀ parameter ∈ parameters.drop positional.length,
        parameter.name ∈ named.map Prod.fst ∨ (defaults.lookup parameter.name).isSome := by
  rw [fillDefaults_missing]
  simp only [get?_afterNamed distinct distinctNamed few, Option.isSome_or, Bool.or_eq_true]
  simp only [Namespace.lookup_isSome_iff_mem, map_fst_zip_names few]
  refine ⟨fun complete parameter later => ?_, fun complete parameter listed => ?_⟩
  · have unfilled := not_mem_take distinct (List.mem_map_of_mem later)
    exact (complete parameter (List.mem_of_mem_drop later)).imp_left (·.resolve_right unfilled)
  · rw [← List.take_append_drop positional.length parameters, List.mem_append] at listed
    obtain earlier | later := listed
    · exact .inl (.inr (List.mem_map_of_mem earlier))
    · exact (complete parameter later).imp_left .inl

end Passes

/-- Once the named arguments are taken, only a missing parameter can be in the way. -/
theorem bind_eq {function : String} (defaults : List (String × Ref))
    (few : positional.length ≤ parameters.length)
    (taken : fillNamed function parameters (byName named) (fillPositional parameters positional) =
      .ok table) :
    bind function parameters defaults positional named =
      match (fillDefaults defaults parameters table).2 with
      | [] => .ok (fillDefaults defaults parameters table).1
      | missing => .error (.missingArguments function missing) := by
  rw [bind, if_neg (Nat.not_lt.mpr few), taken]
  dsimp only [Bind.bind, Except.bind]
  obtain ⟨filled, missing⟩ := fillDefaults defaults parameters table
  cases missing <;> rfl

/-- If the arguments fit, no parameter gets a value in two ways. -/
theorem matched_of_fit (distinct : (parameters.map (·.name)).Nodup)
    (distinctNamed : (named.map Prod.fst).Nodup) (fit : Fit parameters defaults positional named)
    {frame : Namespace} (settled : frame.pending = [])
    (filled : frame =
      (fillDefaults defaults parameters (afterNamed parameters positional named)).1) :
    Matched parameters defaults positional named frame := by
  have values (name : String) : frame.get? name =
      ((named.lookup name).or (((parameters.map (·.name)).zip positional).lookup name)).or
        (if name ∈ parameters.map (·.name) then defaults.lookup name else none) := by
    rw [filled, get?_fillDefaults, get?_afterNamed distinct distinctNamed fit.few]
  have opened (name : String) (later : name ∈ (parameters.drop positional.length).map (·.name)) :
      ((parameters.map (·.name)).zip positional).lookup name = none := by
    rw [lookup_eq_none_iff_not_mem, map_fst_zip_names fit.few]
    exact not_mem_take distinct later
  refine ⟨fun parameter value paired => ?_, fun parameter later => ?_, fun name => ?_, settled⟩
  · have found : ((parameters.map (·.name)).zip positional).lookup parameter.name = some value := by
      rw [lookup_eq_some_iff_mem (nodup_zip_names distinct fit.few), List.zip_map_left]
      exact List.mem_map.mpr ⟨_, paired, rfl⟩
    have unnamed : named.lookup parameter.name = none := by
      rw [lookup_eq_none_iff_not_mem]
      intro listed
      exact Option.some_ne_none value (found.symm.trans (opened _ (fit.known _ listed)))
    rw [values, unnamed, found]
    rfl
  · have listed := List.mem_map_of_mem (f := (·.name)) (List.mem_of_mem_drop later)
    rw [values, opened _ (List.mem_map_of_mem later), Option.or_none, if_pos listed]
  · rw [filled, get?_fillDefaults]
    refine ⟨fun bound => ?_, fun listed => ?_⟩
    · by_contra unlisted
      have nowhere := unlisted
      rw [← names_split parameters positional.length, List.mem_append, not_or] at nowhere
      have unnamed : named.lookup name = none :=
        lookup_eq_none_iff_not_mem.mpr fun listed => nowhere.2 (fit.known name listed)
      have unfilled : ((parameters.map (·.name)).zip positional).lookup name = none := by
        rw [lookup_eq_none_iff_not_mem, map_fst_zip_names fit.few]
        exact nowhere.1
      rw [get?_afterNamed distinct distinctNamed fit.few, unnamed, unfilled, if_neg unlisted]
        at bound
      cases bound
    · have complete := (missing_eq_nil_iff distinct distinctNamed fit.few).mpr fit.complete
      obtain ⟨parameter, member, rfl⟩ := List.mem_map.mp listed
      rw [if_pos listed, Option.isSome_or, Bool.or_eq_true]
      exact (fillDefaults_missing _ _ _).mp complete parameter member

/-- A call whose arguments fit gets a frame that matches them with the parameters. -/
theorem bind_of_fit (function : String) (defaults : List (String × Ref)) (positional : List Ref)
    (distinct : (parameters.map (·.name)).Nodup) (distinctNamed : (named.map Prod.fst).Nodup)
    (fit : Fit parameters defaults positional named) :
    ∃ frame, bind function parameters defaults positional named = .ok frame ∧
      Matched parameters defaults positional named frame := by
  have taken := fillNamed_byName distinct distinctNamed fit.few function fit.known
  have complete := (missing_eq_nil_iff distinct distinctNamed fit.few).mpr fit.complete
  have bound := bind_eq defaults fit.few taken
  rw [complete] at bound
  exact ⟨_, bound, matched_of_fit distinct distinctNamed fit (pending_bind bound) rfl⟩

/-- Any other call is refused. -/
theorem bind_of_not_fit (function : String) (defaults : List (String × Ref))
    (positional : List Ref) (distinct : (parameters.map (·.name)).Nodup)
    (distinctNamed : (named.map Prod.fst).Nodup)
    (misfit : ¬ Fit parameters defaults positional named) :
    ∃ complaint, bind function parameters defaults positional named = .error complaint ∧
      IsMismatch complaint := by
  by_cases few : positional.length ≤ parameters.length
  · obtain known | ⟨complaint, refused, mismatch⟩ := fillNamed_cases function parameters
        (byName named) (fillPositional parameters positional)
    · have names := (byName_perm named).map Prod.fst
      have known (name : String) (listed : name ∈ named.map Prod.fst) :=
        (open_iff_mem_drop distinct few name).mp (known name (names.mem_iff.mpr listed))
      have bound := bind_eq defaults few
        (fillNamed_byName distinct distinctNamed few function known)
      cases missing : (fillDefaults defaults parameters
          (afterNamed parameters positional named)).2 with
      | nil =>
        exact absurd ⟨few, known, (missing_eq_nil_iff distinct distinctNamed few).mp missing⟩ misfit
      | cons first rest =>
        rw [missing] at bound
        exact ⟨_, bound, rfl, _, rfl⟩
    · refine ⟨complaint, ?_, mismatch⟩
      rw [bind, if_neg (Nat.not_lt.mpr few), refused]
      rfl
  · refine ⟨.tooManyArguments function parameters.length positional.length, ?_, rfl, _, rfl⟩
    rw [bind, if_pos (Nat.not_le.mp few)]
    rfl

end Arguments

/-! ### Calls -/

namespace Exec

/-- Runs the body of a function in a frame that binds its parameters. -/
def runIn (machine : Machine) (name : String) (definition : Definition) (closure : Env)
    (frame : Namespace) : Exec Ref := do
  let env ← enter closure name false frame
  match ← machine.run definition.body env with
  | .returned _ value => return value
  | _ => return noneRef

variable {function : Function} {definition : Definition} {closure : Env}
  {defaults : List (String × Ref)} {arguments : List Ref} {named : List (String × Ref)}
  {world : World}

/-- While the limit on calls is not reached, a call begins by binding its arguments. -/
theorem callFunction_eq (machine : Machine)
    (written : function.code = .written definition closure defaults)
    (shallow : world.callDepth < maxCallDepth) :
    callFunction machine function arguments named world =
      inCall (runBody machine function.name definition closure defaults
        (function.bound ++ arguments) named) world := by
  rw [callFunction, written]
  change callWritten machine function.name definition closure defaults _ named world = _
  rw [callWritten, read_bind, if_neg (Nat.not_le.mpr shallow)]

/-- The end of a call leaves objects and their tables alone. -/
theorem isException_leaveCall {ref : Ref} {builtin : BuiltinClass} {text : String}
    (exception : world.IsException ref builtin text) :
    (world.leaveCall.noteCall .left).IsException ref builtin text := by
  obtain ⟨class_, tuple, message, known, tuplePlain, messagePlain⟩ := exception
  exact ⟨class_, tuple, message, known,
    ⟨tuplePlain.class_, tuplePlain.payload, tuplePlain.attributes, tuplePlain.function⟩,
    ⟨messagePlain.class_, messagePlain.payload, messagePlain.attributes, messagePlain.function⟩⟩

/-- A call with arguments that do not match is refused, whatever the machine would run. -/
theorem callFunction_refused (written : function.code = .written definition closure defaults)
    (shallow : world.callDepth < maxCallDepth) {complaint : Complaint}
    (refused : Arguments.bind function.name definition.parameters defaults
      (function.bound ++ arguments) named = .error complaint)
    (mismatch : Arguments.IsMismatch complaint) :
    ∃ id after text, after.IsException (after.raisedAt id).value .typeError text ∧
      ∀ machine, callFunction machine function arguments named world =
        .error (.raised id) after := by
  obtain ⟨type, text, worded⟩ := mismatch
  let entered := world.enterCall.noteCall .entered
  obtain ⟨id, after, raised, exception⟩ := raises_complain (α := Ref) worded entered
  rw [type] at exception
  refine ⟨id, _, text, isException_leaveCall exception, fun machine => ?_⟩
  have ran : runBody machine function.name definition closure defaults
      (function.bound ++ arguments) named entered = .error (.raised id) after := by
    rw [runBody, refused]
    exact raised
  rw [callFunction_eq machine written shallow, inCall_of_error ran]

/-- Binding the arguments of a call is a total matching, for a function whose parameters have
different names and named arguments that are a set. It succeeds exactly if the arguments fit. The
frame that it gives then binds the parameters and nothing else, and the body runs in that frame.
Otherwise the call raises a TypeError, and the same one whatever running a body would do: the body
does not run. -/
theorem call_matches_arguments (written : function.code = .written definition closure defaults)
    (distinct : (definition.parameters.map (·.name)).Nodup)
    (distinctNamed : (named.map Prod.fst).Nodup) :
    ((∃ frame, Arguments.bind function.name definition.parameters defaults
        (function.bound ++ arguments) named = .ok frame) ↔
      Arguments.Fit definition.parameters defaults (function.bound ++ arguments) named) ∧
    (∀ frame, Arguments.bind function.name definition.parameters defaults
        (function.bound ++ arguments) named = .ok frame →
      Arguments.Matched definition.parameters defaults (function.bound ++ arguments) named frame ∧
      ∀ machine (world : World), world.callDepth < maxCallDepth →
        callFunction machine function arguments named world =
          inCall (runIn machine function.name definition closure frame) world) ∧
    (∀ complaint, Arguments.bind function.name definition.parameters defaults
        (function.bound ++ arguments) named = .error complaint →
      complaint.exception = .typeError ∧
      ∀ world : World, world.callDepth < maxCallDepth →
        ∃ id after text, after.IsException (after.raisedAt id).value .typeError text ∧
          ∀ machine, callFunction machine function arguments named world =
            .error (.raised id) after) := by
  have complete := Arguments.bind_of_fit function.name defaults (function.bound ++ arguments)
    distinct distinctNamed
  have refuses := Arguments.bind_of_not_fit function.name defaults (function.bound ++ arguments)
    distinct distinctNamed
  by_cases fit : Arguments.Fit definition.parameters defaults (function.bound ++ arguments) named
  · obtain ⟨frame, bound, matched⟩ := complete fit
    refine ⟨⟨fun _ => fit, fun _ => ⟨frame, bound⟩⟩, fun other same => ?_, fun complaint same => ?_⟩
    · cases bound.symm.trans same
      refine ⟨matched, fun machine world shallow => ?_⟩
      rw [callFunction_eq machine written shallow, runBody, bound]
      rfl
    · cases bound.symm.trans same
  · obtain ⟨complaint, bound, mismatch⟩ := refuses fit
    refine ⟨⟨fun ⟨frame, same⟩ => ?_, fun fits => absurd fits fit⟩, fun frame same => ?_,
      fun other same => ?_⟩
    · cases bound.symm.trans same
    · cases bound.symm.trans same
    · cases bound.symm.trans same
      exact ⟨mismatch.1, fun world shallow => callFunction_refused written shallow bound mismatch⟩

/-- A method with the parameters `self, a, b=1, c=2`, bound to a receiver. Called with a value for
`a` and one named `c`, it takes the default for `b` alone. A value named `self` is refused, because
the receiver has filled that parameter. -/
theorem bound_method_matches_arguments :
    let definition : Definition := ⟨[⟨"self", none⟩, ⟨"a", none⟩,
      ⟨"b", some (.integer ⟨"m", 1⟩ 1)⟩, ⟨"c", some (.integer ⟨"m", 1⟩ 2)⟩], []⟩
    let defaults : List (String × Ref) := [("b", ⟨50⟩), ("c", ⟨51⟩)]
    let method : Function := ⟨"f", .written definition [] defaults, [⟨40⟩]⟩
    let world := World.bare { files := ⟨"/", []⟩, input := "", output := "" } []
    (definition.parameters.map (·.name)).Nodup ∧
    (∃ frame, Arguments.bind "f" definition.parameters defaults ([⟨40⟩] ++ [⟨41⟩]) [("c", ⟨42⟩)] =
        .ok frame ∧
      frame.get? "self" = some ⟨40⟩ ∧ frame.get? "a" = some ⟨41⟩ ∧ frame.get? "b" = some ⟨50⟩ ∧
      frame.get? "c" = some ⟨42⟩ ∧ frame.get? "d" = none) ∧
    ∃ id after text, after.IsException (after.raisedAt id).value .typeError text ∧
      ∀ machine, callFunction machine method [⟨41⟩] [("self", ⟨42⟩)] world =
        .error (.raised id) after := by
  intro definition defaults method world
  have distinct : (definition.parameters.map (·.name)).Nodup := by decide
  obtain ⟨succeeds, matches_, -⟩ := @call_matches_arguments method definition []
    defaults [⟨41⟩] [("c", ⟨42⟩)] rfl distinct (by decide)
  obtain ⟨fits, -, refuses⟩ := @call_matches_arguments method definition []
    defaults [⟨41⟩] [("self", ⟨42⟩)] rfl distinct (by decide)
  refine ⟨distinct, ?_, ?_⟩
  · obtain ⟨frame, bound⟩ := succeeds.mpr ⟨by decide, by decide, by decide⟩
    have matched := (matches_ frame bound).1
    have unbound : frame.get? "d" = none := by
      rw [← Option.not_isSome_iff_eq_none, matched.exactly]
      decide
    exact ⟨frame, bound, matched.filled ⟨"self", none⟩ ⟨40⟩ (by simp [definition, method]),
      matched.filled ⟨"a", none⟩ ⟨41⟩ (by simp [definition, method]),
      matched.others ⟨"b", some (.integer ⟨"m", 1⟩ 1)⟩ (by simp [definition, method]),
      matched.others ⟨"c", some (.integer ⟨"m", 1⟩ 2)⟩ (by simp [definition, method]), unbound⟩
  · cases bound : Arguments.bind method.name definition.parameters defaults
        (method.bound ++ [⟨41⟩]) [("self", ⟨42⟩)] with
    | error complaint => exact (refuses complaint bound).2 world (by decide)
    | ok frame =>
      have filled := (fits.mp ⟨frame, bound⟩).known "self" (by simp)
      exact absurd filled (by decide)

end Exec

end Offside
