/-
This file says what binding a module under a path does to the dotted names of a scope. The
modules on the way to those that were bound form a tree that hangs in the scope. A binding keeps
the tree that is there: it walks what it finds, makes what is missing, and writes only the first
place where the tree does not yet say what it should. So every other dotted name means what it
meant, if nothing is in the way.
-/

import Offside.Proofs.Modules.Packages
import Offside.Proofs.Modules.Pending

namespace Offside

/-! ### Dotted names -/

/-- The name is one of the paths, or the beginning of one. -/
def Mentioned (paths : List (List String)) (name : List String) : Prop :=
  name ≠ [] ∧ ∃ path ∈ paths, name <+: path

theorem mentioned_cons {path name : List String} {paths : List (List String)} :
    Mentioned (path :: paths) name ↔ Mentioned [path] name ∨ Mentioned paths name := by
  simp only [Mentioned, List.mem_cons, List.not_mem_nil, or_false, exists_eq_left,
    exists_eq_or_imp, ← and_or_left]

theorem Mentioned.self {path : List String} (nonempty : path ≠ []) : Mentioned [path] path :=
  ⟨nonempty, path, List.mem_singleton_self path, List.prefix_refl path⟩

theorem Mentioned.shorten {paths : List (List String)} {name longer : List String}
    (mentioned : Mentioned paths longer) (nonempty : name ≠ []) (isPrefix : name <+: longer) :
    Mentioned paths name := by
  obtain ⟨-, path, listed, longerPrefix⟩ := mentioned
  exact ⟨nonempty, path, listed, isPrefix.trans longerPrefix⟩

theorem Mentioned.eq_singleton {first : String} {name : List String}
    (mentioned : Mentioned [[first]] name) : name = [first] := by
  obtain ⟨nonempty, path, listed, isPrefix⟩ := mentioned
  rw [List.mem_singleton.mp listed] at isPrefix
  exact (List.prefix_cons_iff.mp isPrefix).elim (absurd · nonempty) fun ⟨rest, whole, isEmpty⟩ => by
    rw [whole, List.prefix_nil.mp isEmpty]

theorem Mentioned.extend {paths : List (List String)} {walked path name : List String}
    (mentioned : Mentioned (walked :: paths) name) (isPrefix : walked <+: path) :
    Mentioned (path :: paths) name := by
  rw [mentioned_cons] at mentioned ⊢
  refine mentioned.imp_left fun ⟨nonempty, _, listed, shorter⟩ => ?_
  rw [List.mem_singleton.mp listed] at shorter
  exact ⟨nonempty, path, List.mem_singleton_self path, shorter.trans isPrefix⟩

/-- A dotted name as an expression: each further part is an attribute of what comes before. -/
def Expr.dotted (location : Location) (first : String) (rest : List String) : Expr :=
  rest.foldl (fun object name => .attribute location object name) (.name location first)

namespace World

/-- The value of a name in a scope. -/
def boundTo? (world : World) (env : Env) (name : String) : Option Ref :=
  match world.meaning env name with
  | .bound value => some value
  | _ => none

/-- What a dotted name means in a scope. -/
def denoted? (world : World) (env : Env) : List String → Option Ref
  | [] => none
  | first :: rest => world.below? (world.boundTo? env first) rest

/-- The table in which a dotted name stands, with its last part. -/
inductive Stands (world : World) (env : Env) : List String → SpaceId → String → Prop
  | inScope {frame : Frame} {name : String} (innermost : env.head? = some frame) :
    Stands world env [name] frame.space name
  | inObject {path : List String} {name : String} {ref : Ref} {space : SpaceId}
    (parent : world.denoted? env path = some ref) (held : (world.object ref).space = some space) :
    Stands world env (path ++ [name]) space name

/-- Names that end in different parts stand in different places. -/
theorem Stands.getLast? {world : World} {env : Env} {name : List String} {space : SpaceId}
    {last : String} (stands : world.Stands env name space last) : name.getLast? = some last := by
  cases stands with
  | inScope _ => rfl
  | inObject _ _ => exact List.getLast?_concat

theorem denoted?_concat {world : World} {env : Env} {path : List String} (nonempty : path ≠ [])
    (last : String) :
    world.denoted? env (path ++ [last]) =
      (world.denoted? env path).bind (world.ownAttribute? · last) := by
  cases path with
  | nil => exact absurd rfl nonempty
  | cons first rest => exact below?_concat _ _ _

theorem ne_nil_of_denoted {world : World} {env : Env} {path : List String} {ref : Ref}
    (denoted : world.denoted? env path = some ref) : path ≠ [] := by
  rintro rfl
  cases denoted

/-- The dotted name means a module with a table, and its first part is bound in the innermost frame
of the scope. -/
structure Node (world : World) (env : Env) (name : List String) (ref : Ref) : Prop where
  denoted : world.denoted? env name = some ref
  housed : world.Housed ref
  own : ∀ first, name = [first] → ∃ frame ∈ env.head?,
    (world.namespaceAt frame.space).meaning? first = some (.bound ref)

/-- No place of these names gets another value, and no variable among them gets pending. -/
structure Leaves (before : World) (env : Env) (names : List String → Prop) (after : World) :
    Prop where
  bindings : ∀ name space last, names name → before.Stands env name space last →
    (after.namespaceAt space).get? last = (before.namespaceAt space).get? last
  pending : ∀ first, names [first] → ∀ frame ∈ env.head?,
    after.isPending frame.space first = true → before.isPending frame.space first = true

theorem Leaves.of_calm {before after : World} {env : Env} {names : List String → Prop}
    (calm : before.Calm after)
    (bindings : ∀ name space last, names name → before.Stands env name space last →
      (after.namespaceAt space).get? last = (before.namespaceAt space).get? last) :
    before.Leaves env names after :=
  ⟨bindings, fun first _ frame _ => calm.pending frame.space first⟩

/-- Every dotted name that the paths mention means a module. -/
def Tree (world : World) (env : Env) (paths : List (List String)) : Prop :=
  ∀ name, Mentioned paths name → ∃ ref, world.Node env name ref

section Node

variable {world before after : World} {env : Env} {name path : List String} {ref : Ref}
  {space : SpaceId} {last : String}

theorem meaning?_eq_bound {table : Namespace} {name : String} {value : Ref} :
    table.meaning? name = some (.bound value) ↔
      table.isPending name = false ∧ table.get? name = some value := by
  rw [Namespace.meaning?]
  split
  next waits => simp [waits]
  next settled => simp [settled]

theorem meaning_of_own {frame : Frame} {name : String} {value : Ref}
    (innermost : frame ∈ env.head?)
    (own : (world.namespaceAt frame.space).meaning? name = some (.bound value)) :
    world.meaning env name = .bound value := by
  obtain ⟨outer, rfl⟩ := List.head?_eq_some_iff.mp innermost
  rw [World.meaning, List.findSome?_cons, own]
  rfl

/-- A node is what its place binds. -/
theorem Node.get? (node : world.Node env name ref) (stands : world.Stands env name space last) :
    (world.namespaceAt space).get? last = some ref := by
  cases stands with
  | inScope innermost =>
    obtain ⟨frame, head, own⟩ := node.own _ rfl
    cases innermost.symm.trans head
    exact (meaning?_eq_bound.mp own).2
  | inObject parent held =>
    have denoted := node.denoted
    rw [denoted?_concat (ne_nil_of_denoted parent), parent] at denoted
    exact (ownAttribute?_of_space held).symm.trans denoted

/-- What is left alone still means what it meant. -/
theorem Node.leave {names : List String → Prop} (lasts : before.Lasts after)
    (leaves : before.Leaves env names after)
    (shorten : ∀ path last, path ≠ [] → names (path ++ [last]) → names path)
    (nodes : ∀ name, names name → ∃ ref, before.Node env name ref) :
    names name → before.Node env name ref → after.Node env name ref := by
  induction name using List.reverseRecOn generalizing ref with
  | nil => exact fun _ node => by cases node.denoted
  | append_singleton path last inductionHypothesis =>
    intro named node
    by_cases short : path = []
    · subst short
      obtain ⟨frame, innermost, own⟩ := node.own last rfl
      obtain ⟨settled, found⟩ := meaning?_eq_bound.mp own
      have stands : before.Stands env [last] frame.space last := .inScope innermost
      have ownAfter : (after.namespaceAt frame.space).meaning? last = some (.bound ref) := by
        refine meaning?_eq_bound.mpr ⟨?_, (leaves.bindings _ _ _ named stands).trans found⟩
        by_contra waits
        have early := leaves.pending last named frame innermost ((Bool.not_eq_false _).mp waits)
        exact Bool.false_ne_true (settled.symm.trans early)
      refine ⟨?_, node.housed.last lasts, ?_⟩
      · change after.boundTo? env last = some ref
        rw [boundTo?, meaning_of_own innermost ownAfter]
      · rintro _ ⟨⟩
        exact ⟨frame, innermost, ownAfter⟩
    · obtain ⟨parent, parentNode⟩ := nodes path (shorten path last short named)
      have parentAfter := inductionHypothesis (shorten path last short named) parentNode
      obtain ⟨space, held, -⟩ := parentNode.housed.table
      have stands : before.Stands env (path ++ [last]) space last :=
        .inObject parentNode.denoted held
      refine ⟨?_, node.housed.last lasts, fun first same => ?_⟩
      · rw [denoted?_concat short, parentAfter.denoted, Option.bind_some,
          ownAttribute?_of_space (lasts.space parent space held),
          leaves.bindings _ _ _ named stands, node.get? stands]
      · exact absurd (List.append_eq_singleton_iff.mp same) (by simp [short])

theorem Tree.leave {paths : List (List String)} (tree : before.Tree env paths)
    (lasts : before.Lasts after) (leaves : before.Leaves env (Mentioned paths) after) :
    after.Tree env paths := by
  intro name mentioned
  obtain ⟨ref, node⟩ := tree name mentioned
  exact ⟨ref, node.leave lasts leaves (fun path last nonempty longer =>
    longer.shorten nonempty (List.prefix_append _ _)) tree mentioned⟩

theorem Tree.cons {paths : List (List String)} (tree : world.Tree env paths)
    (nodes : ∀ name, Mentioned [path] name → ∃ ref, world.Node env name ref) :
    world.Tree env (path :: paths) :=
  fun name mentioned => (mentioned_cons.mp mentioned).elim (nodes name) (tree name)

end Node

/-- Nothing is in the way of a binding of a module under a path, after other paths were bound. -/
structure Clear (world : World) (env : Env) (paths : List (List String)) (path : List String)
    (module_ : Ref) : Prop where
  /-- Different names stand in different places. -/
  apart : ∀ name other space last, Mentioned (path :: paths) name →
    Mentioned (path :: paths) other → world.Stands env name space last →
    world.Stands env other space last → name = other
  /-- A module on the way that none of the paths mentions has its table. -/
  furnished : ∀ name ref, Mentioned [path] name → name ≠ path → ¬ Mentioned paths name →
    world.denoted? env name = some ref → Exec.isModule world ref = true → world.Housed ref
  /-- The beginning of a longer path is only bound to what it means already. -/
  whole : ∀ longer ∈ paths, path <+: longer → path ≠ longer →
    world.denoted? env path = some module_

/-- What mentioned names keep when a path is bound: all places but that of the path, which keeps
its value as well if it is what the path gets. -/
def Spared (world : World) (env : Env) (paths : List (List String)) (path : List String)
    (module_ : Ref) (name : List String) : Prop :=
  Mentioned paths name ∧ (name = path → world.denoted? env path = some module_)

/-- A module was bound under a path. -/
structure Binds (before : World) (env : Env) (paths : List (List String)) (path : List String)
    (module_ : Ref) (after : World) : Prop where
  lasts : before.Lasts after
  node : after.Node env path module_
  nodes : ∀ name, Mentioned [path] name → ∃ ref, after.Node env name ref
  bindings : ∀ name space last, before.Spared env paths path module_ name →
    before.Stands env name space last →
    (after.namespaceAt space).get? last = (before.namespaceAt space).get? last

section Walk

open Exec

variable {world : World} {env : Env} {paths : List (List String)} {path : List String}
  {module_ : Ref}

theorem Clear.module_housed (clear : world.Clear env paths path module_)
    (tree : world.Tree env paths) {name : List String} {ref : Ref}
    (mentioned : Mentioned [path] name) (onTheWay : name ≠ path)
    (denoted : world.denoted? env name = some ref)
    (isModule : Exec.isModule world ref = true) : world.Housed ref := by
  by_cases known : Mentioned paths name
  · obtain ⟨other, node⟩ := tree name known
    cases node.denoted.symm.trans denoted
    exact node.housed
  · exact clear.furnished name ref mentioned onTheWay known denoted isModule

section Step

variable {walked rest : List String} {first : String} {parent : Ref} {space : SpaceId}

theorem Node.denoted?_concat (node : world.Node env walked parent) :
    world.denoted? env (walked ++ [first]) = world.ownAttribute? parent first := by
  rw [World.denoted?_concat (ne_nil_of_denoted node.denoted), node.denoted, Option.bind_some]

/-- Of all mentioned names only the next one of the walk stands in the place where it stands. -/
theorem Clear.eq_of_stands (clear : world.Clear env paths path module_)
    (whole : path = walked ++ first :: rest) (node : world.Node env walked parent)
    (held : (world.object parent).space = some space) {name : List String}
    (mentioned : Mentioned (walked :: paths) name) (stands : world.Stands env name space first) :
    name = walked ++ [first] := by
  have isBeginning : walked ++ [first] <+: path := ⟨rest, by rw [whole]; simp⟩
  have next : Mentioned [path] (walked ++ [first]) :=
    (Mentioned.self (whole ▸ by simp)).shorten (by simp) isBeginning
  exact clear.apart name _ space first
    (mentioned.extend ((List.prefix_append _ _).trans isBeginning))
    (mentioned_cons.mpr (.inl next)) stands (.inObject node.denoted held)

/-- The next module of a walk is a node. -/
theorem Clear.next_node (clear : world.Clear env paths path module_)
    (tree : world.Tree env paths) (whole : path = walked ++ first :: rest) (further : rest ≠ [])
    (node : world.Node env walked parent) {child : Ref}
    (own : world.ownAttribute? parent first = some child)
    (isModule : Exec.isModule world child = true) : world.Node env (walked ++ [first]) child := by
  have denoted := node.denoted?_concat.trans own
  have next : Mentioned [path] (walked ++ [first]) :=
    (Mentioned.self (whole ▸ by simp)).shorten (by simp) ⟨rest, by rw [whole]; simp⟩
  have onTheWay : walked ++ [first] ≠ path := by simpa [whole] using further.symm
  refine ⟨denoted, clear.module_housed tree next onTheWay denoted isModule, fun only same => ?_⟩
  have nonempty := ne_nil_of_denoted node.denoted
  exact absurd (List.append_eq_singleton_iff.mp same) (by simp [nonempty])

theorem Tree.concat (tree : world.Tree env (walked :: paths)) {child : Ref}
    (node : world.Node env (walked ++ [first]) child) :
    world.Tree env ((walked ++ [first]) :: paths) := by
  intro name mentioned
  rw [mentioned_cons] at mentioned
  rcases mentioned with ⟨nonempty, _, listed, isPrefix⟩ | mentioned
  · rw [List.mem_singleton.mp listed] at isPrefix
    rcases List.prefix_concat_iff.mp isPrefix with rfl | shorter
    · exact ⟨child, node⟩
    · exact tree name (mentioned_cons.mpr (.inl ⟨nonempty, walked, List.mem_singleton_self _,
        shorter⟩))
  · exact tree name (mentioned_cons.mpr (.inr mentioned))

end Step

/-- Below a module the names that mean modules are walked, and the rest is made. -/
theorem graft_succeeds (rest : List String) {first : String} {parent : Ref}
    {walked : List String} (whole : path = walked ++ first :: rest)
    (clear : world.Clear env paths path module_) (tree : world.Tree env (walked :: paths))
    (node : world.Node env walked parent) :
    ∃ after, graft parent walked module_ (first :: rest) world = .ok () after ∧
      world.Lasts after ∧ after.LeadsTo parent (first :: rest) module_ ∧
      ∀ name space last, world.Spared env (walked :: paths) path module_ name →
        world.Stands env name space last →
        (after.namespaceAt space).get? last = (world.namespaceAt space).get? last := by
  induction rest generalizing first parent walked with
  | nil =>
    obtain ⟨space, held, bound⟩ := node.housed.table
    have lasts := world.lasts_put space first module_
    refine ⟨_, setAttribute_of_space held, lasts,
      .single (ownAttribute?_put held bound), ?_⟩
    intro name other last spared stands
    by_cases here : other = space ∧ last = first
    · obtain ⟨rfl, rfl⟩ := here
      have isPath := (clear.eq_of_stands whole node held spared.1 stands).trans whole.symm
      have denoted := spared.2 isPath
      rw [whole, node.denoted?_concat, ownAttribute?_of_space held] at denoted
      rw [get?_put bound, if_pos rfl, denoted]
    · exact get?_put_of_ne here
  | cons second rest inductionHypothesis =>
    obtain ⟨space, held, bound⟩ := node.housed.table
    have others : world.Tree env paths := fun name mentioned =>
      tree name (mentioned_cons.mpr (.inr mentioned))
    have next : world.Stands env (walked ++ [first]) space first := .inObject node.denoted held
    have further : path = (walked ++ [first]) ++ second :: rest := by rw [whole]; simp
    by_cases known : ∃ child, world.ownAttribute? parent first = some child ∧
        isModule world child = true
    · obtain ⟨child, own, childIsModule⟩ := known
      have childNode := clear.next_node others whole (by simp) node own childIsModule
      have grown := tree.concat childNode
      obtain ⟨after, grafted, lasts, leads, kept⟩ := inductionHypothesis further grown childNode
      have ownAfter : after.ownAttribute? parent first = some child := by
        rw [ownAttribute?_of_space (lasts.space _ _ held), ← own, ownAttribute?_of_space held]
        refine kept _ _ _ ⟨mentioned_cons.mpr (.inl (.self (by simp))), fun isPath => ?_⟩ next
        exact absurd (isPath.trans further) (by simp)
      refine ⟨after, (bind_of_ok (childModule_known own childIsModule)).trans grafted, lasts,
        .cons (childNode.housed.last lasts) ownAfter leads, fun name space last spared => ?_⟩
      exact kept name space last ⟨spared.1.extend (List.prefix_append _ _), spared.2⟩
    · have unknown (child : Ref) (own : world.ownAttribute? parent first = some child) :
          isModule world child = false := by
        by_contra childIsModule
        exact known ⟨child, own, (Bool.not_eq_false _).mp childIsModule⟩
      obtain ⟨after, grafted, lasts, leads, kept⟩ :=
        graft_unknown module_ walked (second :: rest) node.housed.bound node.housed.tabled unknown
      refine ⟨after, grafted, lasts, leads, fun name table last spared stands => ?_⟩
      obtain ⟨ref, other⟩ := tree name spared.1
      refine kept table last (bound_of_get? (other.get? stands)) ?_
      rintro ⟨shared, rfl⟩
      cases held.symm.trans shared
      have denoted := other.denoted
      rw [clear.eq_of_stands whole node held spared.1 stands, node.denoted?_concat] at denoted
      have isChild := unknown ref denoted
      rw [other.housed.isModule] at isChild
      cases isChild

end Walk

/-! ### Binding a module -/

section Root

variable {world : World} {frame : Frame} {outer : Env} {first name : String} {value : Ref}

theorem meaning?_set_of_ne (table : Namespace) (different : name ≠ first) :
    (table.set first value).meaning? name = table.meaning? name := by
  rw [Namespace.meaning?, Namespace.meaning?, Namespace.isPending_set_of_ne table different,
    Namespace.get?_set, if_neg different]

theorem meaning?_put_of_ne (different : name ≠ first) (space other : SpaceId) :
    ((world.put space first value).namespaceAt other).meaning? name =
      (world.namespaceAt other).meaning? name := by
  by_cases here : other = space
  · subst here
    by_cases bound : other.index < world.spaces.size
    · rw [put, namespaceAt_modify bound, meaning?_set_of_ne _ different]
    · rw [namespaceAt_put_of_le (Nat.not_lt.mp bound)]
  · rw [namespaceAt_put_of_ne here]

theorem boundTo?_put_of_ne (different : name ≠ first) (space : SpaceId) (env : Env) :
    (world.put space first value).boundTo? env name = world.boundTo? env name := by
  have same : (fun frame : Frame =>
        ((world.put space first value).namespaceAt frame.space).meaning? name) =
      fun frame => (world.namespaceAt frame.space).meaning? name := by
    funext frame
    exact meaning?_put_of_ne different space frame.space
  rw [boundTo?, boundTo?, World.meaning, World.meaning, same]

theorem own_put (bound : frame.space.index < world.spaces.size) :
    ((world.put frame.space first value).namespaceAt frame.space).meaning? first =
      some (.bound value) := by
  refine meaning?_eq_bound.mpr ⟨?_, (get?_put bound).trans (if_pos rfl)⟩
  rw [put, namespaceAt_modify bound, Namespace.isPending_set]

theorem boundTo?_of_own
    (own : (world.namespaceAt frame.space).meaning? first = some (.bound value)) :
    world.boundTo? (frame :: outer) first = some value := by
  have innermost : frame ∈ (frame :: outer).head? := rfl
  rw [boundTo?, meaning_of_own innermost own]

end Root

section Bind

open Exec

variable {world : World} {frame : Frame} {outer : Env} {paths : List (List String)}
  {first : String} {rest : List String} {root module_ : Ref}

theorem mentioned_first (paths : List (List String)) (first : String) (rest : List String) :
    Mentioned ((first :: rest) :: paths) [first] :=
  mentioned_cons.mpr (.inl ⟨by simp, _, List.mem_singleton_self _, by simp⟩)

/-- Binding the first part of a path to what it means changes the meaning of no mentioned name. -/
theorem Clear.denoted?_put (clear : world.Clear (frame :: outer) paths (first :: rest) module_)
    (bound : frame.space.index < world.spaces.size)
    (known : world.boundTo? (frame :: outer) first = some root) {name : List String}
    (mentioned : Mentioned ((first :: rest) :: paths) name) :
    (world.put frame.space first root).denoted? (frame :: outer) name =
      world.denoted? (frame :: outer) name := by
  induction name using List.reverseRecOn with
  | nil => rfl
  | append_singleton path last inductionHypothesis =>
    by_cases short : path = []
    · subst short
      by_cases isFirst : last = first
      · subst isFirst
        exact (boundTo?_of_own (own_put bound)).trans known.symm
      · exact boundTo?_put_of_ne isFirst _ _
    · have same := inductionHypothesis (mentioned.shorten short (List.prefix_append _ _))
      rw [denoted?_concat short, denoted?_concat short, same]
      cases parent : world.denoted? (frame :: outer) path with
      | none => rfl
      | some ref =>
        change (world.put frame.space first root).ownAttribute? ref last =
          world.ownAttribute? ref last
        cases held : (world.object ref).space with
        | none =>
          have object : (world.put frame.space first root).object ref = world.object ref := rfl
          rw [ownAttribute?, ownAttribute?, attributes, attributes, object, held]
        | some space =>
          have heldAfter : ((world.put frame.space first root).object ref).space = some space :=
            held
          rw [ownAttribute?_of_space heldAfter, ownAttribute?_of_space held]
          refine get?_put_of_ne ?_
          rintro ⟨rfl, rfl⟩
          have alone := clear.apart _ _ _ _ mentioned (mentioned_first paths last rest)
            (.inObject parent held) (.inScope rfl)
          exact short (by simpa using alone)

theorem Clear.stands_put (clear : world.Clear (frame :: outer) paths (first :: rest) module_)
    (bound : frame.space.index < world.spaces.size)
    (known : world.boundTo? (frame :: outer) first = some root) {name : List String}
    {space : SpaceId} {last : String} (mentioned : Mentioned ((first :: rest) :: paths) name) :
    (world.put frame.space first root).Stands (frame :: outer) name space last ↔
      world.Stands (frame :: outer) name space last := by
  constructor <;> intro stands <;> cases stands with
  | inScope innermost => exact .inScope innermost
  | inObject parent held =>
    have nonempty := ne_nil_of_denoted parent
    have same := clear.denoted?_put bound known
      (mentioned.shorten nonempty (List.prefix_append _ _))
    first
      | exact .inObject (same.symm.trans parent) held
      | exact .inObject (same.trans parent) held

theorem Clear.put (clear : world.Clear (frame :: outer) paths (first :: rest) module_)
    (bound : frame.space.index < world.spaces.size)
    (known : world.boundTo? (frame :: outer) first = some root) :
    (world.put frame.space first root).Clear (frame :: outer) paths (first :: rest) module_ where
  apart name other space last nameMentioned otherMentioned nameStands otherStands :=
    clear.apart name other space last nameMentioned otherMentioned
      ((clear.stands_put bound known nameMentioned).mp nameStands)
      ((clear.stands_put bound known otherMentioned).mp otherStands)
  furnished name ref mentioned onTheWay unknown denoted isModule := by
    rw [clear.denoted?_put bound known (mentioned_cons.mpr (.inl mentioned))] at denoted
    exact (clear.furnished name ref mentioned onTheWay unknown denoted isModule).last
      (world.lasts_put _ _ _)
  whole longer listed isPrefix shorter := by
    rw [clear.denoted?_put bound known (mentioned_cons.mpr (.inl (.self (by simp))))]
    exact clear.whole longer listed isPrefix shorter

/-- Names that are mentioned do not stand where the first part of the path does, but for the first
part itself. -/
theorem Clear.get?_put (clear : world.Clear (frame :: outer) paths (first :: rest) module_)
    (bound : frame.space.index < world.spaces.size) (tree : world.Tree (frame :: outer) paths)
    (root : Ref) (same : ∀ ref, world.Node (frame :: outer) [first] ref → ref = root)
    {name : List String} {space : SpaceId} {last : String} (mentioned : Mentioned paths name)
    (stands : world.Stands (frame :: outer) name space last) :
    ((world.put frame.space first root).namespaceAt space).get? last =
      (world.namespaceAt space).get? last := by
  by_cases here : space = frame.space ∧ last = first
  · obtain ⟨rfl, rfl⟩ := here
    obtain ⟨ref, node⟩ := tree name mentioned
    rw [World.get?_put bound, if_pos rfl, node.get? stands]
    rw [clear.apart name [last] _ _ (mentioned_cons.mpr (.inr mentioned))
      (mentioned_first paths last rest) stands (.inScope rfl)] at node
    rw [same ref node]
  · exact get?_put_of_ne here

/-- A module that the first part of a path means, and what it leads to, are nodes. -/
theorem Node.lead {second : String} (node : world.Node (frame :: outer) [first] root)
    (leads : world.LeadsTo root (second :: rest) module_) (housed : world.Housed module_) :
    world.Node (frame :: outer) (first :: second :: rest) module_ ∧
      ∀ name, Mentioned [first :: second :: rest] name →
        ∃ ref, world.Node (frame :: outer) name ref := by
  have below (names : List String) :
      world.denoted? (frame :: outer) (first :: names) = world.below? (some root) names :=
    congrArg (world.below? · names) node.denoted
  refine ⟨⟨(below _).trans leads.found, housed, by simp⟩, ?_⟩
  rintro (_ | ⟨start, names⟩) ⟨nonempty, path, listed, isPrefix⟩
  · exact absurd rfl nonempty
  · rw [List.mem_singleton.mp listed] at isPrefix
    obtain ⟨rfl, shorter⟩ := List.cons_prefix_cons.mp isPrefix
    by_cases isEmpty : names = []
    · rw [isEmpty]
      exact ⟨root, node⟩
    · have onlyFirst (ref : Ref) : ∀ only, start :: names = [only] →
          ∃ innermost ∈ (frame :: outer).head?,
            (world.namespaceAt innermost.space).meaning? only = some (.bound ref) :=
        fun only same => absurd (List.cons.inj same).2 isEmpty
      by_cases isWhole : names = second :: rest
      · rw [isWhole] at onlyFirst ⊢
        exact ⟨module_, (below _).trans leads.found, housed, onlyFirst module_⟩
      · obtain ⟨ref, found, refHoused⟩ := leads.housed names isEmpty isWhole shorter
        exact ⟨ref, (below names).trans found, refHoused, onlyFirst ref⟩

/-- The first part of a path is bound to a new value. -/
theorem node_put (bound : frame.space.index < world.spaces.size) (housed : world.Housed root) :
    (world.put frame.space first root).Node (frame :: outer) [first] root where
  denoted := boundTo?_of_own (own_put bound)
  housed := housed.last (world.lasts_put _ _ _)
  own := by
    rintro _ ⟨⟩
    exact ⟨frame, rfl, own_put bound⟩

theorem Node.keep_first {after : World} (node : world.Node (frame :: outer) [first] root)
    (calm : world.Calm after)
    (same : (after.namespaceAt frame.space).get? first =
      (world.namespaceAt frame.space).get? first) :
    after.Node (frame :: outer) [first] root := by
  obtain ⟨_, ⟨⟩, own⟩ := node.own first rfl
  obtain ⟨settled, found⟩ := meaning?_eq_bound.mp own
  have ownAfter : (after.namespaceAt frame.space).meaning? first = some (.bound root) :=
    meaning?_eq_bound.mpr ⟨calm.not_pending settled, same.trans found⟩
  refine ⟨boundTo?_of_own ownAfter, node.housed.last calm.lasts, ?_⟩
  rintro _ ⟨⟩
  exact ⟨frame, rfl, ownAfter⟩

theorem bindModule_single (clear : world.Clear (frame :: outer) paths [first] module_)
    (tree : world.Tree (frame :: outer) paths) (bound : frame.space.index < world.spaces.size)
    (housed : world.Housed module_) :
    ∃ after, bindModule (frame :: outer) [first] none module_ world = .ok () after ∧
      world.Binds (frame :: outer) paths [first] module_ after := by
  have node : (world.put frame.space first module_).Node (frame :: outer) [first] module_ :=
    node_put bound housed
  refine ⟨_, rfl, world.lasts_put frame.space first module_, node, fun name mentioned => ?_, ?_⟩
  · rw [mentioned.eq_singleton]
    exact ⟨module_, node⟩
  · intro name space last spared stands
    by_cases here : space = frame.space ∧ last = first
    · obtain ⟨rfl, rfl⟩ := here
      have isFirst := clear.apart name [last] _ _ (mentioned_cons.mpr (.inr spared.1))
        (mentioned_first paths last []) stands (.inScope rfl)
      obtain ⟨ref, known⟩ := tree name spared.1
      have same := known.denoted
      rw [isFirst, spared.2 isFirst] at same
      change ((world.put frame.space last module_).namespaceAt frame.space).get? last = _
      rw [World.get?_put bound, if_pos rfl, known.get? stands, same]
    · exact get?_put_of_ne here

theorem meaning_of_boundTo? {env : Env} {name : String} {value : Ref}
    (known : world.boundTo? env name = some value) : world.meaning env name = .bound value := by
  unfold boundTo? at known
  split at known
  next found means =>
    cases known
    exact means
  next => cases known

theorem rootModule_known (known : world.boundTo? (frame :: outer) first = some root)
    (rootIsModule : isModule world root = true) :
    rootModule (frame :: outer) first world = .ok root world := by
  rw [rootModule, read_bind, meaning_of_boundTo? known]
  dsimp only
  rw [if_pos rootIsModule]
  rfl

theorem rootModule_unknown
    (unknown : ∀ value, world.boundTo? (frame :: outer) first = some value →
      isModule world value = false) :
    rootModule (frame :: outer) first world = newPackage [first] world := by
  rw [rootModule, read_bind]
  cases means : world.meaning (frame :: outer) first with
  | bound value =>
    have isOther := unknown value (by rw [boundTo?, means])
    dsimp only
    rw [if_neg (by rw [isOther]; exact Bool.false_ne_true)]
  | pending => rfl
  | undefined => rfl

theorem bindModule_known {second : String}
    (clear : world.Clear (frame :: outer) paths (first :: second :: rest) module_)
    (tree : world.Tree (frame :: outer) paths) (bound : frame.space.index < world.spaces.size)
    (housed : world.Housed module_) (known : world.boundTo? (frame :: outer) first = some root)
    (rootIsModule : isModule world root = true) :
    ∃ after, bindModule (frame :: outer) (first :: second :: rest) none module_ world =
        .ok () after ∧
      world.Binds (frame :: outer) paths (first :: second :: rest) module_ after := by
  let rooted : World := world.put frame.space first root
  have calm : world.Calm rooted := world.calm_put frame.space first root
  have rootMentioned : Mentioned [first :: second :: rest] [first] := mentioned_first [] _ _
  have node : rooted.Node (frame :: outer) [first] root :=
    node_put bound (clear.module_housed tree rootMentioned (by simp) known rootIsModule)
  have same (ref : Ref) (other : world.Node (frame :: outer) [first] ref) : ref = root :=
    Option.some.inj (other.denoted.symm.trans known)
  have unchanged {name : List String} {space : SpaceId} {last : String}
      (mentioned : Mentioned paths name) (stands : world.Stands (frame :: outer) name space last) :
      (rooted.namespaceAt space).get? last = (world.namespaceAt space).get? last :=
    clear.get?_put bound tree root same mentioned stands
  have rootedTree : rooted.Tree (frame :: outer) ([first] :: paths) := by
    have leaves : world.Leaves (frame :: outer) (Mentioned paths) rooted :=
      .of_calm calm fun _ _ _ => unchanged
    refine (tree.leave calm.lasts leaves).cons fun name mentioned => ?_
    rw [mentioned.eq_singleton]
    exact ⟨root, node⟩
  obtain ⟨after, grafted, grown, leads, kept⟩ :=
    graft_succeeds rest (rfl : first :: second :: rest = [first] ++ second :: rest)
      (clear.put bound known) rootedTree node
  have nodeAfter : after.Node (frame :: outer) [first] root := by
    refine node.keep_first ((still_graft _ _ _ _).of_ok grafted) ?_
    exact kept [first] _ _ ⟨mentioned_cons.mpr (.inl (.self (by simp))), by simp⟩ (.inScope rfl)
  obtain ⟨moduleNode, nodes⟩ := nodeAfter.lead leads ((housed.last calm.lasts).last grown)
  refine ⟨after, ?_, calm.lasts.trans grown, moduleNode, nodes,
    fun name space last spared stands => ?_⟩
  · rw [bindModule, bind_of_ok (rootModule_known known rootIsModule)]
    exact grafted
  · have mentioned : Mentioned ((first :: second :: rest) :: paths) name :=
      mentioned_cons.mpr (.inr spared.1)
    refine (kept name space last ⟨mentioned_cons.mpr (.inr spared.1), fun isPath => ?_⟩
      ((clear.stands_put bound known mentioned).mpr stands)).trans (unchanged spared.1 stands)
    rw [clear.denoted?_put bound known (mentioned_cons.mpr (.inl (.self (by simp))))]
    exact spared.2 isPath

theorem bindModule_unknown {second : String}
    (clear : world.Clear (frame :: outer) paths (first :: second :: rest) module_)
    (tree : world.Tree (frame :: outer) paths) (bound : frame.space.index < world.spaces.size)
    (housed : world.Housed module_)
    (unknown : ∀ value, world.boundTo? (frame :: outer) first = some value →
      isModule world value = false) :
    ∃ after, bindModule (frame :: outer) (first :: second :: rest) none module_ world =
        .ok () after ∧
      world.Binds (frame :: outer) paths (first :: second :: rest) module_ after := by
  obtain ⟨package, middle, made, lasts, kept, -, class_, ⟨table, held, new, tableBound⟩,
    barren⟩ := newPackage_succeeds [first] world
  let rooted : World := middle.put frame.space first package
  have calm : middle.Calm rooted := middle.calm_put frame.space first package
  have rootedHeld : (rooted.object package).space = some table := held
  have rootedBound := tableBound.trans_le calm.lasts.spaces
  have packageHoused : middle.Housed package := ⟨class_, table, held, tableBound⟩
  have node : rooted.Node (frame :: outer) [first] package :=
    node_put (bound.trans_le lasts.spaces) packageHoused
  have fresh {other : SpaceId} (there : other.index < world.spaces.size) : other ≠ table :=
    fun same => by
      rw [same, new] at there
      exact Nat.lt_irrefl _ there
  have rootedHoused : rooted.Housed package := packageHoused.last calm.lasts
  obtain ⟨after, grafted, grown, leads, untouched⟩ :=
    graft_unknown module_ [first] rest rootedHoused.bound rootedHoused.tabled
      (barren.put held (Ne.symm (fresh bound)) second)
  rw [rootedHeld] at untouched
  have old {other : SpaceId} (last : String) (there : other.index < world.spaces.size) :
      (after.namespaceAt other).get? last = (rooted.namespaceAt other).get? last :=
    untouched other last (there.trans_le (lasts.trans calm.lasts).spaces)
      fun here => fresh there (Option.some.inj here.1).symm
  have nodeAfter : after.Node (frame :: outer) [first] package :=
    node.keep_first ((still_graft _ _ _ _).of_ok grafted) (old first bound)
  obtain ⟨moduleNode, nodes⟩ :=
    nodeAfter.lead leads ((housed.last (lasts.trans calm.lasts)).last grown)
  refine ⟨after, ?_, lasts.trans (calm.lasts.trans grown), moduleNode, nodes, ?_⟩
  · rw [bindModule, bind_of_ok ((rootModule_unknown unknown).trans made)]
    exact grafted
  · intro name space last spared stands
    obtain ⟨ref, other⟩ := tree name spared.1
    have there := bound_of_get? (other.get? stands)
    have different : ¬ (space = frame.space ∧ last = first) := by
      rintro ⟨rfl, rfl⟩
      have denoted := other.denoted
      rw [clear.apart name [last] _ _ (mentioned_cons.mpr (.inr spared.1))
        (mentioned_first paths last _) stands (.inScope rfl)] at denoted
      have isOther := unknown ref denoted
      rw [other.housed.isModule] at isOther
      cases isOther
    rw [old last there, get?_put_of_ne different, kept space there]

/-- A module is bound under a path, if nothing is in the way. -/
theorem bindModule_succeeds {path : List String} (nonempty : path ≠ [])
    (clear : world.Clear (frame :: outer) paths path module_)
    (tree : world.Tree (frame :: outer) paths) (bound : frame.space.index < world.spaces.size)
    (housed : world.Housed module_) :
    ∃ after, bindModule (frame :: outer) path none module_ world = .ok () after ∧
      world.Binds (frame :: outer) paths path module_ after := by
  match path with
  | [] => exact absurd rfl nonempty
  | [first] => exact bindModule_single clear tree bound housed
  | first :: second :: rest =>
    by_cases known : ∃ root, world.boundTo? (frame :: outer) first = some root ∧
        isModule world root = true
    · obtain ⟨root, known, rootIsModule⟩ := known
      exact bindModule_known clear tree bound housed known rootIsModule
    · refine bindModule_unknown clear tree bound housed fun value means => ?_
      by_contra valueIsModule
      exact known ⟨value, means, (Bool.not_eq_false _).mp valueIsModule⟩

end Bind

/-! ### Reading a dotted name -/

/-- A dotted name that is mentioned evaluates to its module. -/
theorem Node.evaluate {host : Host} {searchPath : List String} {world : World}
    (begun : (bare host searchPath).Lasts world) {env : Env} {paths : List (List String)}
    (tree : world.Tree env paths) (machine : Machine) (location : Location) {first : String}
    {rest : List String} {ref : Ref} (mentioned : Mentioned paths (first :: rest))
    (node : world.Node env (first :: rest) ref) :
    Exec.evaluate machine env (.dotted location first rest) world = .ok ref world := by
  induction rest using List.reverseRecOn generalizing ref with
  | nil =>
    have means := meaning_of_boundTo? (node.denoted : world.boundTo? env first = some ref)
    rw [Expr.dotted, List.foldl_nil, Exec.evaluate, Exec.lookupName, Exec.read_bind, means]
    rfl
  | append_singleton rest last inductionHypothesis =>
    have shorter := mentioned.shorten (List.cons_ne_nil first rest)
      ⟨[last], List.cons_append⟩
    obtain ⟨parent, parentNode⟩ := tree _ shorter
    have denoted := node.denoted
    rw [← List.cons_append, parentNode.denoted?_concat] at denoted
    rw [Expr.dotted, List.foldl_concat, Exec.evaluate]
    refine (Exec.bind_of_ok (inductionHypothesis shorter parentNode)).trans ?_
    exact Exec.getAttribute_of_own (begun.ne_vacantRef parentNode.housed.class_) denoted

end World

end Offside
