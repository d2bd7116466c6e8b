import ScriptCore.Proofs.Node.Parts
import ScriptCore.Proofs.Store.Linked
import ScriptCore.Proofs.Store.Tree

/-!
# Functions that every scope finds

From every scope the links lead outwards to the global one, so a function that is there, or in a
module that is used there, is found from every scope (`Answers.lookupFunction`). Only two things
could keep it from being found later: a closure that runs in a scope which is not in the store, and
a native function that the host does not have under this very name. `Answers` excludes both, and
every operation on a store keeps it.
-/
namespace ScriptCore

/-- The name under which the host has the function that a node declares. -/
def Node.hostName? : Node → Option String
  | native _ header => some header.hostName
  | _ => none

/-- No node here or below declares the function that the host has under this name. -/
def Node.SparesHost (host : String) (nodes : List Node) : Prop :=
  ∀ node ∈ Node.all nodes, node.hostName? ≠ some host

instance {host : String} {nodes : List Node} : Decidable (Node.SparesHost host nodes) :=
  inferInstanceAs (Decidable (∀ node ∈ Node.all nodes, node.hostName? ≠ some host))

/-- A callable whose code spares a function of the host, and that was created in one of the first
scopes if it is a closure. -/
def Callable.Safe (host : String) (scopes : Nat) : Callable → Prop
  | function _ body => Node.SparesHost host body
  | closure _ body scope => Node.SparesHost host body ∧ scope < scopes
  | native header => header.hostName ≠ host
  | constructor _ => True

def Value.Safe (host : String) (scopes : Nat) : Value → Prop
  | callable c => c.Safe host scopes
  | _ => True

def Arguments.Safe (host : String) (scopes : Nat) (arguments : Arguments) : Prop :=
  ∀ argument ∈ arguments, argument.2.Safe host scopes

section Safe

variable {host : String} {fewer scopes : Nat} {value : Value} {callable : Callable}

theorem Callable.Safe.mono (safe : callable.Safe host fewer) (le : fewer ≤ scopes) :
    callable.Safe host scopes := by
  cases callable with
  | closure => exact ⟨safe.1, Nat.lt_of_lt_of_le safe.2 le⟩
  | _ => exact safe

theorem Value.Safe.mono (safe : value.Safe host fewer) (le : fewer ≤ scopes) :
    value.Safe host scopes := by
  cases value with
  | callable c => exact Callable.Safe.mono safe le
  | _ => trivial

theorem Value.safe_of_asCallable? (plain : value.asCallable? = none) :
    value.Safe host scopes := by
  cases value with
  | callable c => cases plain
  | _ => trivial

theorem Value.Safe.asCallable? (safe : value.Safe host scopes)
    (is : value.asCallable? = some callable) : callable.Safe host scopes := by
  cases value with
  | callable c => exact Option.some.inj is ▸ safe
  | _ => cases is

end Safe

namespace Store

structure Frame.Safe (host : String) (scopes : Nat) (frame : Frame) : Prop where
  values : ∀ name value, frame.value? name = some value → value.Safe host scopes
  callables : ∀ name callable, frame.function? name = some callable → callable.Safe host scopes

/-- The global scope has a function of this name, or uses a module that has one. -/
def Offers (global : Location) (name : String) (store : Store) : Prop :=
  ∃ place, (place = global ∨ place ∈ (store.frame global).expanded) ∧
    ∃ callable, (store.frame place).function? name = some callable

/-- A linked tree of at least so many scopes with safe callables. If the name is asked for, it is
that of a function that every scope finds. -/
structure Answers (global : Location) (name : String) (asked : Prop) (scopes : Nat)
    (store : Store) : Prop where
  linked : store.Linked global
  tree : store.IsTree
  frames : ∀ env frame, store.frame? env = some frame → frame.Safe name store.next
  offers : asked → store.Offers global name
  enough : scopes ≤ store.next

variable {store old new : Store} {global env outer place : Location} {name other : String}
  {asked : Prop} {fewer scopes : Nat} {frame : Frame} {value : Value} {callable : Callable}

theorem Frame.Safe.mono (safe : frame.Safe name fewer) (le : fewer ≤ scopes) :
    frame.Safe name scopes :=
  ⟨fun other value found => (safe.values other value found).mono le,
    fun other callable found => (safe.callables other callable found).mono le⟩

theorem Frame.safe_create {site : Option CallSite} {enclosing : Option Location} :
    (Frame.create enclosing site).Safe name scopes :=
  ⟨nofun, nofun⟩

theorem Evolves.next_le (evolves : Evolves env old new) : old.next ≤ new.next := by
  refine Nat.le_of_not_lt fun fewer => ?_
  obtain ⟨frame, there⟩ := exists_of_lt_next fewer
  obtain ⟨frame', there', -⟩ := evolves new.next frame there
  exact absurd (lt_next_of_frame? there') (Nat.lt_irrefl _)

/-- What is offered stays so, as no scope loses functions or modules. -/
theorem Offers.evolves (offers : old.Offers global name) (evolves : Evolves env old new) :
    new.Offers global name := by
  have grows {location : Location} (own : old.frame location ≠ .create none none) :
      (old.frame location).Grows (new.frame location) := by
    obtain ⟨frame, there⟩ := exists_of_lt_next (lt_next_of_frame_ne own)
    obtain ⟨frame', there', grows, -⟩ := evolves location frame there
    rw [frame_of_frame? there, frame_of_frame? there']
    exact grows
  obtain ⟨place, at_place, callable, own⟩ := offers
  have nonempty : old.frame place ≠ .create none none := by
    intro blank
    rw [blank] at own
    cases own
  have contains : (old.frame place).functions.contains name = true := by
    rw [Table.contains, show (old.frame place).functions.get? name = _ from own]
    rfl
  refine ⟨place, at_place.imp_right fun used => ?_, ?_⟩
  · have uses : old.frame global ≠ .create none none := by
      intro blank
      rw [blank] at used
      cases used
    exact (grows uses).expanded.subset used
  · exact Option.isSome_iff_exists.mp ((grows nonempty).functions name contains)

/-- What is found in the global scope is offered. -/
theorem Linked.offers (linked : store.Linked global) (tree : store.IsTree)
    (found : store.lookupFunction global name = .ok callable) : store.Offers global name := by
  obtain ⟨frame, there, root⟩ := linked.root
  have search : store.find global (Frame.function? name) = some callable := by
    rw [Store.lookupFunction] at found
    split at found
    · rename_i same
      rwa [Except.ok.inj found] at same
    · cases found
  have none_around : (frame.enclosing.bind fun outer =>
      store.find outer (Frame.function? name)) = none := by
    rw [root]
    rfl
  rw [tree.find_eq, there] at search
  cases here : frame.function? name with
  | some own => exact ⟨global, .inl rfl, own, by rw [frame_of_frame? there, here]⟩
  | none =>
    simp only [here, none_around] at search
    obtain ⟨module, used, inModule⟩ := List.exists_of_findSome?_eq_some search
    refine ⟨module, .inr (frame_of_frame? there ▸ used), ?_⟩
    cases placed : store.frame? module with
    | none => simp [findInModule, placed] at inModule
    | some own =>
      cases has : own.function? name with
      | none => simp [findInModule, placed, has] at inModule
      | some callable => exact ⟨callable, by rw [frame_of_frame? placed, has]⟩

/-- What a module that is used in the global scope has is found among the modules there. -/
theorem Linked.exists_inModules (linked : store.Linked global)
    (there : store.frame? global = some frame) (used : place ∈ frame.expanded)
    (own : (store.frame place).function? name = some callable) :
    ∃ first, frame.expanded.findSome? (store.findInModule (Frame.function? name)) = some first := by
  obtain ⟨opened, known⟩ := (linked.uses global frame there).opened place used
  obtain ⟨module, placed, -⟩ := linked.modules opened place known
  have found : store.findInModule (Frame.function? name) place = some callable := by
    rw [frame_of_frame? placed] at own
    rw [findInModule, placed, Option.bind_some, own, isLive_of_opened known]
    rfl
  refine Option.isSome_iff_exists.mp (List.findSome?_isSome_iff.mpr ⟨place, used, ?_⟩)
  rw [found]
  rfl

namespace Answers

/-- Ask for a function that the global scope finds. -/
theorem ask (answers : store.Answers global name asked scopes)
    (found : store.lookupFunction global name = .ok callable) :
    store.Answers global name True scopes :=
  { answers with offers := fun _ => answers.linked.offers answers.tree found }

theorem mono (answers : store.Answers global name asked scopes) (le : fewer ≤ scopes) :
    store.Answers global name asked fewer :=
  { answers with enough := Nat.le_trans le answers.enough }

/-- All scopes of the store count. -/
theorem all (answers : store.Answers global name asked scopes) :
    store.Answers global name asked store.next :=
  { answers with enough := Nat.le_refl _ }

/-- The function that is asked for is found from every scope. -/
theorem lookupFunction (answers : store.Answers global name asked scopes) (ask : asked)
    (inside : env < store.next) : ∃ callable, store.lookupFunction env name = .ok callable := by
  obtain ⟨place, offered, callable, own⟩ := answers.offers ask
  have finds : ∃ found, store.find env (Frame.function? name) = some found := by
    revert inside
    refine answers.tree.induction_outwards (P := fun env => env < store.next →
      ∃ found, store.find env (Frame.function? name) = some found) (fun env ih inside => ?_) env
    obtain ⟨frame, there⟩ := exists_of_lt_next inside
    rw [answers.tree.find_eq, there]
    rw [frame_of_frame? there] at ih
    cases here : frame.function? name with
    | some found => exact ⟨found, by simp only [here]⟩
    | none =>
      cases around : frame.enclosing with
      | some outer =>
        have older := answers.tree env frame outer there around
        obtain ⟨found, outside⟩ := ih outer around (Nat.lt_trans older inside)
        have outwards : (frame.enclosing.bind fun outer =>
            store.find outer (Frame.function? name)) = some found := by
          rw [around]
          exact outside
        exact ⟨found, by simp only [here, outwards]⟩
      | none =>
        -- this is the global scope, and it is one of its modules that has the function
        obtain rfl := answers.linked.unique env frame there around
        rw [frame_of_frame? there] at offered
        rcases offered with rfl | used
        · rw [frame_of_frame? there, here] at own
          cases own
        · obtain ⟨first, hit⟩ := answers.linked.exists_inModules there used own
          have outermost : (frame.enclosing.bind fun outer =>
              store.find outer (Frame.function? name)) = none := by
            rw [around]
            rfl
          exact ⟨first, by simp only [here, outermost, hit]⟩
  obtain ⟨found, there⟩ := finds
  exact ⟨found, by rw [Store.lookupFunction, there]⟩

/-- A store that has evolved answers if it is a linked tree with safe callables still. -/
theorem evolves (answers : old.Answers global name asked scopes) (evolves : Evolves env old new)
    (linked : new.Linked global) (tree : new.IsTree)
    (frames : ∀ env frame, new.frame? env = some frame → frame.Safe name new.next) :
    new.Answers global name asked scopes :=
  ⟨linked, tree, frames, fun ask => (answers.offers ask).evolves evolves,
    Nat.le_trans answers.enough evolves.next_le⟩

/-- A change of one frame that leaves its place in the tree as it is. -/
theorem update (answers : store.Answers global name asked scopes) {change : Frame → Frame}
    (evolves : Evolves outer store (store.update env change))
    (linked : (store.update env change).Linked global)
    (enclosing : ∀ frame, (change frame).enclosing = frame.enclosing)
    (safe : ∀ frame : Frame, frame.Safe name store.next → (change frame).Safe name store.next) :
    (store.update env change).Answers global name asked scopes := by
  refine answers.evolves evolves linked (answers.tree.update enclosing) ?_
  rw [next_update]
  exact forall_frame_update answers.frames safe

theorem setVariable (answers : store.Answers global name asked scopes)
    (safe : value.Safe name store.next) {mutability : Mutability}
    (evolves : Evolves outer store (store.setVariable env other ⟨value, mutability⟩)) :
    (store.setVariable env other ⟨value, mutability⟩).Answers global name asked scopes := by
  refine answers.update evolves answers.linked.setVariable (fun _ => rfl) fun frame before => ?_
  refine ⟨fun seen value' found => ?_, before.callables⟩
  rcases Frame.of_value?_insert found with ⟨-, rfl⟩ | old
  · exact safe
  · exact before.values seen value' old

theorem declareFunction (answers : store.Answers global name asked scopes)
    (safe : callable.Safe name store.next) :
    (store.declareFunction env other callable).Answers global name asked scopes := by
  have evolves : Evolves env store (store.declareFunction env other callable) :=
    evolves_declareFunction
  refine answers.update evolves answers.linked.declareFunction (fun _ => rfl) fun frame before => ?_
  refine ⟨before.values, fun seen callable' found => ?_⟩
  rcases Frame.of_function?_insert found with ⟨-, rfl⟩ | old
  · exact safe
  · exact before.callables seen callable' old

theorem expand (answers : store.Answers global name asked scopes) {module : String}
    (opened : store.modules.get? module = some place) :
    (store.expand env place).Answers global name asked scopes := by
  have evolves : Evolves env store (store.expand env place) := evolves_expand
  have linked : (store.expand env place).Linked global := answers.linked.expand opened
  rw [Store.expand] at evolves linked ⊢
  split
  · exact answers
  · rename_i unused
    rw [if_neg unused] at evolves linked
    exact answers.update evolves linked (fun _ => rfl) fun frame before =>
      ⟨before.values, before.callables⟩

theorem safe_add (answers : store.Answers global name asked scopes) {site : Option CallSite} :
    ∀ location frame, (store.add (.create (some env) site)).frame? location = some frame →
      frame.Safe name (store.add (.create (some env) site)).next := by
  have later : store.next ≤ (store.add (.create (some env) site)).next := by simp [next_add]
  refine forall_frame_add (fun location frame there => ?_) Frame.safe_create
  exact (answers.frames location frame there).mono later

/-- A new scope inside one of the store. -/
theorem child (answers : store.Answers global name asked scopes) (inside : env < store.next)
    {site : CallSite} :
    (store.add (.create (some env) (some site))).Answers global name asked (store.next + 1) :=
  have evolves : Evolves env store (store.add (.create (some env) (some site))) := evolves_add
  { answers.evolves evolves answers.linked.add (answers.tree.child inside) answers.safe_add with
    enough := by simp [next_add] }

/-- A new module. -/
theorem opened (answers : store.Answers global name asked scopes) {module : String}
    (unknown : store.modules.get? module = none) :
    ({ store.add (.create (some global) none) with
        modules := store.modules.insert module store.next } : Store).Answers global name asked
      scopes := by
  have evolves : Evolves global store (store.add (.create (some global) none)) := evolves_add
  have tree : (store.add (.create (some global) none)).IsTree :=
    answers.tree.child answers.linked.lt_next
  exact answers.evolves evolves (answers.linked.opened unknown) tree answers.safe_add

end Answers

end Store

end ScriptCore
