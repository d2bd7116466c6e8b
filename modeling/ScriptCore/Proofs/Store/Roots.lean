import ScriptCore.Proofs.Store.Evolution
import ScriptCore.Store.Lookup

/-!
# Roots of a store

The global scope and the scopes of modules are the roots of a store. Every other scope has been
opened by a block, a loop, a branch or an invocation, and has its call site. From a root, links
outwards and modules in use lead to roots alone, so a name that is looked up in a root is found
among what has been declared in roots.
-/
namespace ScriptCore.Store

/-- A scope that no block and no invocation has opened. -/
def IsRoot (store : Store) (location : Location) : Prop :=
  ∃ frame, store.frame? location = some frame ∧ frame.callSite = none

/-- A frame of a root has allowed functions under their own names, and leads to roots. -/
structure Frame.Rooted (allowed : Callable → Prop) (isRoot : Location → Prop) (frame : Frame) :
    Prop where
  functions : frame.callSite = none → ∀ name callable, frame.function? name = some callable →
    callable.name = name ∧ allowed callable
  outwards : frame.callSite = none → ∀ outer, frame.enclosing = some outer → isRoot outer
  used : frame.callSite = none → ∀ module ∈ frame.expanded, isRoot module
  inner : frame.callSite ≠ none → frame.enclosing ≠ none

structure Rooted (allowed : Callable → Prop) (store : Store) : Prop where
  frames : ∀ location frame, store.frame? location = some frame →
    frame.Rooted allowed store.IsRoot
  modules : ∀ name module, store.modules.get? name = some module → store.IsRoot module

/-- A scope that may take these functions: one that is no root, or one where all are allowed. -/
def Takes (allowed : Callable → Prop) (env : Location) (declared : List Callable) (store : Store) :
    Prop :=
  ∃ frame, store.frame? env = some frame ∧
    (frame.callSite = none → ∀ callable ∈ declared, allowed callable)

variable {allowed wider : Callable → Prop} {env location : Location} {store old new : Store}

theorem Frame.Rooted.mono {isRoot isRoot' : Location → Prop} {frame : Frame}
    (rooted : frame.Rooted allowed isRoot) (weaker : ∀ callable, allowed callable → wider callable)
    (roots : ∀ location, isRoot location → isRoot' location) : frame.Rooted wider isRoot' where
  functions root name callable found :=
    (rooted.functions root name callable found).imp id (weaker callable)
  outwards root outer link := roots outer (rooted.outwards root outer link)
  used root module mem := roots module (rooted.used root module mem)
  inner := rooted.inner

theorem Rooted.mono (rooted : store.Rooted allowed)
    (weaker : ∀ callable, allowed callable → wider callable) : store.Rooted wider :=
  ⟨fun location frame there => (rooted.frames location frame there).mono weaker fun _ root => root,
    rooted.modules⟩

theorem IsRoot.evolves (root : old.IsRoot location) (evolves : Evolves env old new) :
    new.IsRoot location := by
  obtain ⟨frame, there, site⟩ := root
  obtain ⟨frame', there', grows, -⟩ := evolves location frame there
  exact ⟨frame', there', grows.callSite.trans site⟩

theorem Takes.evolves {declared : List Callable} (takes : old.Takes allowed location declared)
    (evolves : Evolves env old new) : new.Takes allowed location declared := by
  obtain ⟨frame, there, allows⟩ := takes
  obtain ⟨frame', there', grows, -⟩ := evolves location frame there
  exact ⟨frame', there', fun root => allows (grows.callSite.symm.trans root)⟩

theorem IsRoot.takes {declared : List Callable} (root : store.IsRoot env)
    (allows : ∀ callable ∈ declared, allowed callable) : store.Takes allowed env declared := by
  obtain ⟨frame, there, -⟩ := root
  exact ⟨frame, there, fun _ => allows⟩

/-- A scope that takes functions and has nothing around it is a root. -/
theorem Rooted.isRoot_of_isGlobal {declared : List Callable} (rooted : store.Rooted allowed)
    (takes : store.Takes allowed env declared) (isGlobal : (store.frame env).isGlobal = true) :
    store.IsRoot env := by
  obtain ⟨frame, there, -⟩ := takes
  refine ⟨frame, there, ?_⟩
  rw [frame_of_frame? there, Frame.isGlobal, Option.isNone_iff_eq_none] at isGlobal
  cases site : frame.callSite with
  | none => rfl
  | some _ =>
    have around := (rooted.frames env frame there).inner (by simp [site])
    exact absurd isGlobal around

/-- A change of one frame that leaves its place in the tree as it is. -/
theorem Rooted.update (rooted : store.Rooted allowed) {change : Frame → Frame}
    (site : ∀ frame, (change frame).callSite = frame.callSite)
    (changed : ∀ frame, store.frame? location = some frame → frame.Rooted allowed store.IsRoot →
      (change frame).Rooted allowed store.IsRoot) :
    (store.update location change).Rooted allowed := by
  have roots : ∀ other, store.IsRoot other → (store.update location change).IsRoot other := by
    rintro other ⟨frame, there, root⟩
    rw [IsRoot, frame?_update]
    by_cases same : location = other
    · exact ⟨change frame, by simp [same, there], (site frame).trans root⟩
    · exact ⟨frame, by simp [same, there], root⟩
  refine ⟨fun other frame there => ?_, fun name module opened =>
    roots module (rooted.modules name module opened)⟩
  obtain ⟨before, was, ⟨rfl, -⟩ | ⟨rfl, rfl⟩⟩ := of_frame?_update there
  · exact (rooted.frames other frame was).mono (fun _ h => h) roots
  · exact (changed before was (rooted.frames _ before was)).mono (fun _ h => h) roots

theorem Rooted.add (rooted : store.Rooted allowed) {frame : Frame}
    (added : frame.Rooted allowed store.IsRoot) : (store.add frame).Rooted allowed := by
  have grows : Evolves store.next store (store.add frame) := evolves_add
  have roots : ∀ other, store.IsRoot other → (store.add frame).IsRoot other :=
    fun other root => root.evolves grows
  refine ⟨fun other frame' there => ?_, fun name module opened =>
    roots module (rooted.modules name module opened)⟩
  rw [frame?_add] at there
  split at there
  · cases there
    exact added.mono (fun _ h => h) roots
  · exact (rooted.frames other frame' there).mono (fun _ h => h) roots

theorem Rooted.setVariable (rooted : store.Rooted allowed) {name : String} {binding : Binding} :
    (store.setVariable location name binding).Rooted allowed :=
  rooted.update (fun _ => rfl) fun _ _ before =>
    ⟨before.functions, before.outwards, before.used, before.inner⟩

theorem Rooted.declareFunction (rooted : store.Rooted allowed) {callable : Callable}
    (takes : store.Takes allowed env [callable]) :
    (store.declareFunction env callable.name callable).Rooted allowed := by
  obtain ⟨frame, there, allows⟩ := takes
  refine rooted.update (fun _ => rfl) fun before was rest => ?_
  obtain rfl := Option.some.inj (was.symm.trans there)
  refine ⟨fun root name found declared => ?_, rest.outwards, rest.used, rest.inner⟩
  rcases Frame.of_function?_insert declared with ⟨same, rfl⟩ | old
  · exact ⟨same, allows root _ List.mem_cons_self⟩
  · exact rest.functions root name found old

theorem Rooted.expand (rooted : store.Rooted allowed) {module : Location}
    (root : store.IsRoot module) : (store.expand env module).Rooted allowed := by
  rw [Store.expand]
  split
  · exact rooted
  · refine rooted.update (fun _ => rfl) fun before _ rest => ?_
    refine ⟨rest.functions, rest.outwards, fun site other mem => ?_, rest.inner⟩
    rcases List.mem_append.mp mem with known | new
    · exact rest.used site other known
    · exact List.mem_singleton.mp new ▸ root

/-- A scope with a call site is no root. -/
theorem Rooted.child (rooted : store.Rooted allowed) {site : CallSite} :
    (store.add (.create (some env) (some site))).Rooted allowed :=
  rooted.add ⟨nofun, nofun, nofun, nofun⟩

/-- The scope of a new module is a root inside a root. -/
theorem Rooted.module (rooted : store.Rooted allowed) (root : store.IsRoot env) (name : String) :
    ({ store.add (.create (some env) none) with
      modules := store.modules.insert name store.next } : Store).Rooted allowed := by
  have added : (store.add (.create (some env) none)).Rooted allowed := rooted.add
    ⟨nofun, fun _ outer link => Option.some.inj link ▸ root, nofun, nofun⟩
  refine ⟨added.frames, fun other module opened => ?_⟩
  rw [Table.get?_insert] at opened
  split at opened
  · cases opened
    exact ⟨.create (some env) none, frame?_add_next, rfl⟩
  · exact added.modules other module opened

/-- What is found from a root belongs to a root. -/
theorem Rooted.of_findWithin (rooted : store.Rooted allowed) {α : Type} {own : Frame → Option α}
    {found : α} {steps : Nat} (root : store.IsRoot env)
    (result : store.findWithin own steps env = some found) :
    ∃ location frame, store.frame? location = some frame ∧ frame.callSite = none ∧
      own frame = some found := by
  induction steps generalizing env with
  | zero => cases result
  | succ steps ih =>
    obtain ⟨frame, there, site⟩ := root
    have inRoot := rooted.frames env frame there
    rw [findWithin, there] at result
    cases here : own frame with
    | some value =>
      simp only [here, Option.some.injEq] at result
      exact ⟨env, frame, there, site, result ▸ here⟩
    | none =>
      simp only [here] at result
      cases outside : frame.enclosing.bind (findWithin store own steps) with
      | some value =>
        simp only [outside, Option.some.injEq] at result
        obtain ⟨outer, link, inner⟩ := Option.bind_eq_some_iff.mp outside
        exact ih (inRoot.outwards site outer link) (result ▸ inner)
      | none =>
        simp only [outside] at result
        obtain ⟨module, mem, inModule⟩ := List.exists_of_findSome?_eq_some result
        obtain ⟨moduleFrame, there', site'⟩ := inRoot.used site module mem
        refine ⟨module, moduleFrame, there', site', ?_⟩
        simp only [findInModule, there', Option.bind_some] at inModule
        cases owned : own moduleFrame with
        | none => simp [owned] at inModule
        | some value =>
          simp only [owned] at inModule
          split at inModule
          · exact inModule
          · cases inModule

/-- A function that is looked up in a root is an allowed one of that name. -/
theorem Rooted.of_lookupFunction (rooted : store.Rooted allowed) (root : store.IsRoot env)
    {name : String} {callable : Callable} (found : store.lookupFunction env name = .ok callable) :
    callable.name = name ∧ allowed callable := by
  rw [lookupFunction] at found
  split at found
  · rename_i result
    cases found
    obtain ⟨location, frame, there, site, here⟩ := rooted.of_findWithin root result
    exact (rooted.frames location frame there).functions site name callable here
  · cases found

end ScriptCore.Store
