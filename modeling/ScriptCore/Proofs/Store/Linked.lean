import ScriptCore.Proofs.Store.Frames
import ScriptCore.Store.Lookup

/-!
# Links between scopes and modules

In a linked store the module table names scopes right inside the global one, each by one name, and
every scope uses modules of the table alone, each of them once and never itself. As the table keeps
its modules, no module in use is ever given up, and what is found in a linked store does not depend
on the scopes that are held on to.
-/
namespace ScriptCore.Store

/-- The scope at `env` uses modules that are opened, each once and none from within itself. -/
structure Frame.Uses (modules : Table Location) (env : Location) (frame : Frame) : Prop where
  nodup : frame.expanded.Nodup
  other : env ∉ frame.expanded
  opened : ∀ module ∈ frame.expanded, ∃ name, modules.get? name = some module

structure Linked (global : Location) (store : Store) : Prop where
  root : ∃ frame, store.frame? global = some frame ∧ frame.enclosing = none
  unique : ∀ env frame, store.frame? env = some frame → frame.enclosing = none → env = global
  modules : ∀ name module, store.modules.get? name = some module →
    ∃ frame, store.frame? module = some frame ∧ frame.enclosing = some global ∧
      frame.callSite = none
  distinct : ∀ name other module, store.modules.get? name = some module →
    store.modules.get? other = some module → name = other
  uses : ∀ env frame, store.frame? env = some frame → frame.Uses store.modules env

/-- An opened module keeps its scope. -/
def KeepsModules (old new : Store) : Prop :=
  ∀ name module, old.modules.get? name = some module → new.modules.get? name = some module

variable {global env module : Location} {store old middle new : Store}

theorem KeepsModules.refl : store.KeepsModules store := fun _ _ opened => opened

theorem KeepsModules.trans (first : old.KeepsModules middle) (second : middle.KeepsModules new) :
    old.KeepsModules new :=
  fun name module opened => second name module (first name module opened)

theorem Frame.Uses.mono {modules modules' : Table Location} {frame : Frame}
    (uses : frame.Uses modules env)
    (opened : ∀ name module, modules.get? name = some module →
      ∃ name, modules'.get? name = some module) : frame.Uses modules' env := by
  refine ⟨uses.nodup, uses.other, fun module mem => ?_⟩
  obtain ⟨name, known⟩ := uses.opened module mem
  exact opened name module known

theorem Linked.lt_next (linked : store.Linked global) : global < store.next := by
  obtain ⟨frame, there, -⟩ := linked.root
  exact lt_next_of_frame? there

/-- Of the scopes of the store the global one has nothing around it, and no other has. -/
theorem Linked.isGlobal_iff (linked : store.Linked global) (inside : env < store.next) :
    (store.frame env).isGlobal = true ↔ env = global := by
  obtain ⟨frame, there⟩ := exists_of_lt_next inside
  rw [frame_of_frame? there, Frame.isGlobal, Option.isNone_iff_eq_none]
  constructor
  · exact linked.unique env frame there
  · rintro rfl
    obtain ⟨own, here, root⟩ := linked.root
    obtain rfl := Option.some.inj (there.symm.trans here)
    exact root

section Changes

/-- A change of one frame that leaves its place in the tree as it is. -/
theorem Linked.update (linked : store.Linked global) {change : Frame → Frame}
    (enclosing : ∀ frame, (change frame).enclosing = frame.enclosing)
    (callSite : ∀ frame, (change frame).callSite = frame.callSite)
    (uses : ∀ frame, store.frame? env = some frame → frame.Uses store.modules env →
      (change frame).Uses store.modules env) :
    (store.update env change).Linked global where
  root := by
    obtain ⟨frame, there, root⟩ := linked.root
    rw [frame?_update]
    by_cases same : env = global
    · exact ⟨change frame, by simp [same, there], (enclosing frame).trans root⟩
    · exact ⟨frame, by simp [same, there], root⟩
  unique location frame there root := by
    obtain ⟨before, was, ⟨rfl, -⟩ | ⟨rfl, -⟩⟩ := of_frame?_update there
    · exact linked.unique location frame was root
    · exact linked.unique location before was ((enclosing before).symm.trans root)
  modules name module opened := by
    obtain ⟨frame, there, inGlobal, site⟩ := linked.modules name module opened
    rw [frame?_update]
    by_cases same : env = module
    · exact ⟨change frame, by simp [same, there], (enclosing frame).trans inGlobal,
        (callSite frame).trans site⟩
    · exact ⟨frame, by simp [same, there], inGlobal, site⟩
  distinct := linked.distinct
  uses location frame there := by
    obtain ⟨before, was, ⟨rfl, -⟩ | ⟨rfl, rfl⟩⟩ := of_frame?_update there
    · exact linked.uses location frame was
    · exact uses before was (linked.uses _ before was)

theorem Linked.setVariable (linked : store.Linked global) {name : String} {binding : Binding} :
    (store.setVariable env name binding).Linked global :=
  linked.update (fun _ => rfl) (fun _ => rfl) fun _ _ uses => ⟨uses.nodup, uses.other, uses.opened⟩

theorem Linked.declareFunction (linked : store.Linked global) {name : String}
    {callable : Callable} : (store.declareFunction env name callable).Linked global :=
  linked.update (fun _ => rfl) (fun _ => rfl) fun _ _ uses => ⟨uses.nodup, uses.other, uses.opened⟩

/-- A module is put behind those in use only if it is none of them. -/
theorem Linked.expand (linked : store.Linked global) {name : String}
    (opened : store.modules.get? name = some module) :
    (store.expand env module).Linked global := by
  rw [Store.expand]
  split
  · exact linked
  · rename_i new
    rw [Bool.or_eq_true, not_or, decide_eq_true_eq, List.contains_iff_mem] at new
    refine linked.update (fun _ => rfl) (fun _ => rfl) fun frame there uses => ?_
    rw [frame_of_frame? there] at new
    refine ⟨?_, ?_, fun other mem => ?_⟩
    · refine List.nodup_append.mpr ⟨uses.nodup, by simp, ?_⟩
      rintro other mem last here rfl
      exact new.2 (List.mem_singleton.mp here ▸ mem)
    · rw [List.mem_append, List.mem_singleton, not_or]
      exact ⟨uses.other, new.1⟩
    · rcases List.mem_append.mp mem with known | here
      · exact uses.opened other known
      · exact List.mem_singleton.mp here ▸ ⟨name, opened⟩

theorem Linked.add (linked : store.Linked global) {outer : Location} {site : Option CallSite} :
    (store.add (.create (some outer) site)).Linked global := by
  constructor
  · obtain ⟨frame, there, root⟩ := linked.root
    exact ⟨frame, frame?_add_of_frame? there, root⟩
  · intro location frame there root
    rw [frame?_add] at there
    split at there
    · cases there
      cases root
    · exact linked.unique location frame there root
  · intro name module opened
    obtain ⟨frame, there, inGlobal, site⟩ := linked.modules name module opened
    exact ⟨frame, frame?_add_of_frame? there, inGlobal, site⟩
  · exact linked.distinct
  · intro location frame there
    rw [frame?_add] at there
    split at there
    · cases there
      exact ⟨.nil, List.not_mem_nil, nofun⟩
    · exact linked.uses location frame there

theorem keepsModules_opened {name : String} (unknown : store.modules.get? name = none) :
    store.KeepsModules { store.add (.create (some global) none) with
      modules := store.modules.insert name store.next } := by
  intro other module opened
  rw [Table.get?_insert_of_ne]
  · exact opened
  · rintro rfl
    rw [unknown] at opened
    cases opened

/-- A module that is opened anew has a scope that no other module has. -/
theorem Linked.opened (linked : store.Linked global) {name : String}
    (unknown : store.modules.get? name = none) :
    ({ store.add (.create (some global) none) with
      modules := store.modules.insert name store.next } : Store).Linked global := by
  have added : (store.add (.create (some global) none)).Linked global := linked.add
  have fresh : ∀ {other}, store.modules.get? other ≠ some store.next := by
    intro other opened
    obtain ⟨frame, there, -⟩ := linked.modules other _ opened
    exact Nat.lt_irrefl _ (lt_next_of_frame? there)
  refine ⟨added.root, added.unique, fun other module opened => ?_,
    fun first second module opened opened' => ?_, fun location frame there => ?_⟩
  · rw [Table.get?_insert] at opened
    split at opened
    · cases opened
      exact ⟨_, frame?_add_next, rfl, rfl⟩
    · exact added.modules other module opened
  · simp only [Table.get?_insert] at opened opened'
    split at opened <;> split at opened'
    · rename_i same same'
      exact same.symm.trans same'
    · cases opened
      exact absurd opened' fresh
    · cases opened'
      exact absurd opened fresh
    · exact linked.distinct first second module opened opened'
  · refine (added.uses location frame there).mono fun other module opened => ⟨other, ?_⟩
    exact keepsModules_opened unknown other module opened

theorem modules_expand : (store.expand env module).modules = store.modules := by
  rw [expand]
  split <;> rfl

theorem next_expand : (store.expand env module).next = store.next := by
  rw [expand]
  split
  · rfl
  · exact next_update

end Changes

section Held

/-- The module table keeps the scopes of its modules. -/
theorem isLive_of_opened {name : String} (opened : store.modules.get? name = some module) :
    store.isLive module = true := by
  refine isLive_of_mem_roots (List.mem_append_left _ ?_)
  exact List.mem_map.mpr ⟨(name, module), Table.mem_of_get? opened, rfl⟩

theorem Linked.isLive (linked : store.Linked global) {frame : Frame}
    (there : store.frame? env = some frame) (mem : module ∈ frame.expanded) :
    store.isLive module = true := by
  obtain ⟨name, opened⟩ := (linked.uses env frame there).opened module mem
  exact isLive_of_opened opened

theorem findSome?_findInModule_held {α : Type} {own : Frame → Option α} (held : List Location)
    {modules : List Location}
    (opened : ∀ module ∈ modules, ∃ name, store.modules.get? name = some module) :
    modules.findSome? (({ store with held := held } : Store).findInModule own) =
      modules.findSome? (store.findInModule own) := by
  induction modules with
  | nil => rfl
  | cons module rest ih =>
    obtain ⟨⟨name, known⟩, others⟩ := List.forall_mem_cons.mp opened
    have live : store.isLive module = true := isLive_of_opened known
    have known' : ({ store with held := held } : Store).modules.get? name = some module := known
    have live' := isLive_of_opened known'
    have same : ({ store with held := held } : Store).findInModule own module =
        store.findInModule own module := by
      rw [findInModule, findInModule, live, live']
      rfl
    rw [List.findSome?_cons, List.findSome?_cons, same, ih others]

/-- What is found does not depend on what is held on to: all modules in use are live anyway. -/
theorem Linked.findWithin_held (linked : store.Linked global) (held : List Location) {α : Type}
    {own : Frame → Option α} {steps : Nat} :
    ({ store with held := held } : Store).findWithin own steps env =
      store.findWithin own steps env := by
  induction steps generalizing env with
  | zero => rfl
  | succ steps ih =>
    have same : ({ store with held := held } : Store).frame? env = store.frame? env := rfl
    rw [findWithin, findWithin, same]
    cases there : store.frame? env with
    | none => rfl
    | some frame =>
      have outwards : frame.enclosing.bind
            (({ store with held := held } : Store).findWithin own steps) =
          frame.enclosing.bind (store.findWithin own steps) :=
        Option.bind_congr fun _ _ => ih
      have modules : frame.expanded.findSome?
            (({ store with held := held } : Store).findInModule own) =
          frame.expanded.findSome? (store.findInModule own) :=
        findSome?_findInModule_held held (linked.uses env frame there).opened
      simp only [outwards, modules]

theorem frame_held (held : List Location) :
    ({ store with held := held } : Store).frame env = store.frame env := rfl

theorem chainWithin_held (held : List Location) (steps : Nat) :
    ({ store with held := held } : Store).chainWithin steps env = store.chainWithin steps env := by
  induction steps generalizing env with
  | zero => rfl
  | succ steps ih =>
    simp only [chainWithin, ih]
    rfl

theorem backtrace_held (held : List Location) :
    ({ store with held := held } : Store).backtrace env = store.backtrace env := by
  rw [backtrace, backtrace, chain, chain, chainWithin_held]
  rfl

end Held

end ScriptCore.Store
