import ScriptCore.Proofs.Eval.Triple
import ScriptCore.Proofs.Node.Parts
import ScriptCore.Proofs.Store.Linked
import ScriptCore.Proofs.Store.Tree

/-!
# Stores without closures

A named function runs in a scope inside that of its call, a closure in one inside the scope that it
was created in. Where there are no anonymous functions there are no closures either, and then the
call sites around a scope are those of the calls under way.
-/
namespace ScriptCore

namespace Node

def isAnonymous : Node → Bool
  | anonymous _ _ _ => true
  | _ => false

/-- There is no anonymous function among these nodes, nor at any depth below them. -/
def ClosureFree (nodes : List Node) : Prop := ∀ node ∈ all nodes, node.isAnonymous = false

variable {node : Node} {nodes rest first second : List Node}

theorem closureFree_cons : ClosureFree (node :: rest) ↔ ClosureFree [node] ∧ ClosureFree rest :=
  forall_all_cons

theorem closureFree_append :
    ClosureFree (first ++ second) ↔ ClosureFree first ∧ ClosureFree second :=
  forall_all_append

theorem ClosureFree.parts (free : ClosureFree [node]) : ClosureFree node.parts :=
  (forall_all_singleton.mp free).2

theorem ClosureFree.of_mem (free : ClosureFree nodes) (mem : node ∈ nodes) : ClosureFree [node] :=
  forall_all_of_mem free mem

theorem ClosureFree.part (free : ClosureFree [node]) {part : Node} (mem : part ∈ node.parts) :
    ClosureFree [part] :=
  free.parts.of_mem mem

end Node

/-- A callable that is no closure and creates none. -/
def Callable.ClosureFree : Callable → Prop
  | function _ body => Node.ClosureFree body
  | closure _ _ _ => False
  | native _ | constructor _ => True

namespace Value

def ClosureFree : Value → Prop
  | callable c => c.ClosureFree
  | _ => True

theorem closureFree_of_asCallable? {value : Value} (plain : value.asCallable? = none) :
    value.ClosureFree := by
  cases value with
  | callable c => cases plain
  | _ => exact trivial

theorem ClosureFree.asCallable? {value : Value} (free : value.ClosureFree) {callable : Callable}
    (is : value.asCallable? = some callable) : callable.ClosureFree := by
  cases value with
  | callable c => exact Option.some.inj is ▸ free
  | _ => cases is

end Value

def Arguments.ClosureFree (arguments : Arguments) : Prop :=
  ∀ argument ∈ arguments, argument.2.ClosureFree

namespace Store

structure Frame.ClosureFree (frame : Frame) : Prop where
  values : ∀ name value, frame.value? name = some value → value.ClosureFree
  callables : ∀ name callable, frame.function? name = some callable → callable.ClosureFree

/-- A tree of scopes in which nothing is bound that is a closure or creates one. -/
structure ClosureFree (store : Store) : Prop where
  frames : ∀ env frame, store.frame? env = some frame → frame.ClosureFree
  tree : store.IsTree

/-- Every scope keeps its place in the tree and its call site. -/
def KeepsPlaces (old new : Store) : Prop :=
  ∀ env frame, old.frame? env = some frame → ∃ frame', new.frame? env = some frame' ∧
    frame'.enclosing = frame.enclosing ∧ frame'.callSite = frame.callSite

variable {store old middle new : Store} {env : Location} {name : String}

namespace KeepsPlaces

theorem refl : store.KeepsPlaces store := fun _ frame there => ⟨frame, there, rfl, rfl⟩

theorem trans (first : old.KeepsPlaces middle) (second : middle.KeepsPlaces new) :
    old.KeepsPlaces new := by
  intro env frame there
  obtain ⟨frame₁, there₁, enclosing₁, site₁⟩ := first env frame there
  obtain ⟨frame₂, there₂, enclosing₂, site₂⟩ := second env frame₁ there₁
  exact ⟨frame₂, there₂, enclosing₂.trans enclosing₁, site₂.trans site₁⟩

theorem lt_next (keeps : old.KeepsPlaces new) (inside : env < old.next) : env < new.next := by
  obtain ⟨frame, there⟩ := exists_of_lt_next inside
  obtain ⟨frame', there', -⟩ := keeps env frame there
  exact lt_next_of_frame? there'

/-- The call sites around a scope stay the same. -/
theorem backtrace_eq (keeps : old.KeepsPlaces new) (tree : old.IsTree) (tree' : new.IsTree)
    (inside : env < old.next) : new.backtrace env = old.backtrace env := by
  revert inside
  refine tree.induction_outwards (P := fun env => env < old.next →
    new.backtrace env = old.backtrace env) (fun env ih inside => ?_) env
  obtain ⟨frame, there⟩ := exists_of_lt_next inside
  obtain ⟨frame', there', enclosing, site⟩ := keeps env frame there
  rw [tree.backtrace_eq, tree'.backtrace_eq, frame_of_frame? there', enclosing, site,
    ← frame_of_frame? there]
  refine congrArg (_ ++ ·.getD []) (Option.map_congr fun outer around => ?_)
  exact ih outer around (Nat.lt_trans (tree.older around) inside)

end KeepsPlaces

theorem keepsPlaces_add {frame : Frame} : store.KeepsPlaces (store.add frame) :=
  fun _ frame there => ⟨frame, frame?_add_of_frame? there, rfl, rfl⟩

/-- A change that leaves the links outwards and the call sites as they are. -/
theorem keepsPlaces_update {change : Frame → Frame}
    (enclosing : ∀ frame, (change frame).enclosing = frame.enclosing)
    (site : ∀ frame, (change frame).callSite = frame.callSite) :
    store.KeepsPlaces (store.update env change) := by
  intro location frame there
  rw [frame?_update]
  by_cases same : env = location
  · exact ⟨change frame, by simp [same, there], enclosing frame, site frame⟩
  · exact ⟨frame, by simp [same, there], rfl, rfl⟩

theorem keepsPlaces_expand {module : Location} : store.KeepsPlaces (store.expand env module) := by
  rw [expand]
  split
  · exact .refl
  · exact keepsPlaces_update (fun _ => rfl) fun _ => rfl

namespace ClosureFree

variable (free : store.ClosureFree)

include free

theorem update {change : Frame → Frame}
    (enclosing : ∀ frame, (change frame).enclosing = frame.enclosing)
    (keeps : ∀ frame, frame.ClosureFree → (change frame).ClosureFree) :
    (store.update env change).ClosureFree :=
  ⟨forall_frame_update free.frames keeps, free.tree.update enclosing⟩

theorem setVariable {binding : Binding} (bound : binding.value.ClosureFree) :
    (store.setVariable env name binding).ClosureFree := by
  refine free.update (fun _ => rfl) fun frame before => ⟨fun other value found => ?_, ?_⟩
  · rcases Frame.of_value?_insert found with ⟨-, rfl⟩ | old
    · exact bound
    · exact before.values other value old
  · exact before.callables

theorem declareFunction {callable : Callable} (declared : callable.ClosureFree) :
    (store.declareFunction env name callable).ClosureFree := by
  refine free.update (fun _ => rfl) fun frame before => ⟨before.values, ?_⟩
  intro other found known
  rcases Frame.of_function?_insert known with ⟨-, rfl⟩ | old
  · exact declared
  · exact before.callables other found old

theorem expand {module : Location} : (store.expand env module).ClosureFree := by
  rw [Store.expand]
  split
  · exact free
  · exact free.update (fun _ => rfl) fun _ before => ⟨before.values, before.callables⟩

theorem child (inside : env < store.next) {site : Option CallSite} :
    (store.add (.create (some env) site)).ClosureFree :=
  ⟨forall_frame_add free.frames ⟨nofun, nofun⟩, free.tree.child inside⟩

theorem held (held : List Location) : ({ store with held := held } : Store).ClosureFree :=
  ⟨free.frames, free.tree⟩

/-- What is found in a store without closures is bound in one of its frames. -/
theorem lookup {value : Value} (found : store.lookup env name = .ok value) :
    value.ClosureFree := by
  rw [Store.lookup] at found
  split at found
  · rename_i seen
    obtain ⟨location, frame, there, here⟩ := exists_of_findWithin seen
    cases found
    exact (free.frames location frame there).values name _ here
  · cases found

theorem lookupFunction {callable : Callable}
    (found : store.lookupFunction env name = .ok callable) : callable.ClosureFree := by
  rw [Store.lookupFunction] at found
  split at found
  · rename_i seen
    obtain ⟨location, frame, there, here⟩ := exists_of_findWithin seen
    cases found
    exact (free.frames location frame there).callables name _ here
  · cases found

end ClosureFree

/-- The call sites around a new scope are its own and those around the scope that it is opened
in. -/
theorem IsTree.backtrace_child (tree : store.IsTree) (inside : env < store.next)
    (site : CallSite) : (store.add (.create (some env) (some site))).backtrace store.next =
      site :: store.backtrace env := by
  have tree' : (store.add (.create (some env) (some site))).IsTree := tree.child inside
  have outer := KeepsPlaces.backtrace_eq keepsPlaces_add tree tree' inside
  rw [tree'.backtrace_eq, frame_add_next]
  exact congrArg (site :: ·) outer

end Store

end ScriptCore
