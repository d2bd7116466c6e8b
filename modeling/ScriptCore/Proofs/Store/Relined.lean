import ScriptCore.Proofs.Store.Frames
import ScriptCore.Proofs.Value.Relined
import ScriptCore.Store.Lookup

/-!
# Stores on other lines

Two stores that differ in the lines of callables and of call sites alone have the same names bound
to values that differ in lines alone, keep the same scopes alive, and stay so under every step.
-/
namespace ScriptCore

/-- What becomes of lines. Those of nodes are mapped. For those that errors and call sites report it
is said which may be reported instead; the mapped one always may. -/
structure Relining where
  map : Line → Line
  Reports : Line → Line → Prop
  reports_map : ∀ line, Reports line (map line)

variable {r : Relining}

section Tables

variable {α β : Type} {related : α → β → Prop} {table : Table α} {table' : Table β}

/-- Tables with the same names in the same order, and related values under them. -/
def Table.Related (related : α → β → Prop) (table : Table α) (table' : Table β) : Prop :=
  List.Forall₂ (fun entry entry' => entry'.1 = entry.1 ∧ related entry.2 entry'.2) table.entries
    table'.entries

namespace Table

theorem Related.get? (tables : Related related table table') (name : String) :
    Option.Rel related (table.get? name) (table'.get? name) := by
  obtain ⟨entries⟩ := table
  obtain ⟨entries'⟩ := table'
  change List.Forall₂ _ entries entries' at tables
  change Option.Rel related (lookup entries name) (lookup entries' name)
  induction tables with
  | nil => exact .none
  | @cons entry entry' _ _ first _ ih =>
    obtain ⟨key, value⟩ := entry
    obtain ⟨_, value'⟩ := entry'
    obtain ⟨rfl, same⟩ := first
    rw [lookup, lookup]
    split
    · exact .some same
    · exact ih

theorem Related.insert (tables : Related related table table') (name : String) {value : α}
    {value' : β} (same : related value value') :
    Related related (table.insert name value) (table'.insert name value') := by
  obtain ⟨entries⟩ := table
  obtain ⟨entries'⟩ := table'
  change List.Forall₂ _ entries entries' at tables
  change List.Forall₂ _ (replace entries name value) (replace entries' name value')
  induction tables with
  | nil => exact .cons ⟨rfl, same⟩ .nil
  | @cons entry entry' _ _ first rest ih =>
    obtain ⟨key, old⟩ := entry
    obtain ⟨_, old'⟩ := entry'
    obtain ⟨rfl, was⟩ := first
    rw [replace, replace]
    split
    · exact .cons ⟨rfl, same⟩ rest
    · exact .cons ⟨rfl, was⟩ ih

theorem Related.contains_eq (tables : Related related table table') (name : String) :
    table'.contains name = table.contains name := by
  rw [contains, contains]
  rcases rel_cases (tables.get? name) with ⟨missing, missing'⟩ | ⟨_, _, there, there', -⟩
  · rw [missing, missing']
    rfl
  · rw [there, there']
    rfl

theorem Related.names_eq (tables : Related related table table') : table'.names = table.names := by
  obtain ⟨entries⟩ := table
  obtain ⟨entries'⟩ := table'
  change List.Forall₂ _ entries entries' at tables
  change entries'.map Prod.fst = entries.map Prod.fst
  induction tables with
  | nil => rfl
  | cons first _ ih => rw [List.map_cons, List.map_cons, first.1, ih]

/-- What is collected of related values is the same. -/
theorem Related.flatMap_eq (tables : Related related table table') {γ : Type} {collect : α → List γ}
    {collect' : β → List γ} (same : ∀ value value', related value value' →
      collect' value' = collect value) :
    (table'.entries.flatMap fun entry => collect' entry.2) =
      table.entries.flatMap fun entry => collect entry.2 := by
  obtain ⟨entries⟩ := table
  obtain ⟨entries'⟩ := table'
  change List.Forall₂ _ entries entries' at tables
  dsimp only
  induction tables with
  | nil => rfl
  | cons first _ ih => rw [List.flatMap_cons, List.flatMap_cons, same _ _ first.2, ih]

end Table

end Tables

structure CallSite.Relined (r : Relining) (site site' : CallSite) : Prop where
  label : site'.label = site.label
  line : r.Reports site.line site'.line

structure Binding.Relined (f : Line → Line) (binding binding' : Binding) : Prop where
  value : Value.Relined f binding.value binding'.value
  mutability : binding'.mutability = binding.mutability

namespace Store

structure Frame.Relined (r : Relining) (frame frame' : Frame) : Prop where
  bindings : Table.Related (Binding.Relined r.map) frame.bindings frame'.bindings
  functions : Table.Related (Callable.Relined r.map) frame.functions frame'.functions
  expanded : frame'.expanded = frame.expanded
  enclosing : frame'.enclosing = frame.enclosing
  callSite : Option.Rel (CallSite.Relined r) frame.callSite frame'.callSite

namespace Frame

variable {frame frame' : Frame}

theorem relined_create (enclosing : Option Location) {site site' : Option CallSite}
    (sites : Option.Rel (CallSite.Relined r) site site') :
    Relined r (create enclosing site) (create enclosing site') :=
  ⟨.nil, .nil, rfl, rfl, sites⟩

theorem Relined.kept_eq (relined : Relined r frame frame') : frame'.kept = frame.kept := by
  rw [kept, kept, relined.enclosing, relined.bindings.flatMap_eq fun _ _ same => same.value.kept_eq,
    relined.functions.flatMap_eq fun _ _ same => same.kept_eq]

theorem Relined.value? (relined : Relined r frame frame') (name : String) :
    Option.Rel (Value.Relined r.map) (frame.value? name) (frame'.value? name) :=
  rel_map (relined.bindings.get? name) fun _ _ same => same.value

end Frame

structure Relined (r : Relining) (store store' : Store) : Prop where
  next : store'.next = store.next
  frames : ∀ env, Option.Rel (Frame.Relined r) (store.frame? env) (store'.frame? env)
  modules : store'.modules = store.modules
  held : store'.held = store.held

variable {store store' : Store} {env : Location} {name : String}

theorem relined_empty : Relined r .empty .empty :=
  ⟨rfl, fun _ => .none, rfl, rfl⟩

namespace Relined

theorem frame (relined : Relined r store store') (env : Location) :
    Frame.Relined r (store.frame env) (store'.frame env) := by
  rw [Store.frame, Store.frame]
  rcases rel_cases (relined.frames env) with ⟨missing, missing'⟩ | ⟨_, _, there, there', same⟩
  · rw [missing, missing']
    exact Frame.relined_create none .none
  · rw [there, there']
    exact same

theorem holdingOnly (relined : Relined r store store') (held : List Location) :
    Relined r { store with held := held } { store' with held := held } :=
  ⟨relined.next, relined.frames, relined.modules, rfl⟩

theorem add (relined : Relined r store store') {new new' : Frame}
    (frames : Frame.Relined r new new') : Relined r (store.add new) (store'.add new') where
  next := by
    rw [next_add, next_add, relined.next]
  frames := by
    intro env
    rw [frame?_add, frame?_add, relined.next]
    split
    · exact .some frames
    · exact relined.frames env
  modules := relined.modules
  held := relined.held

theorem update (relined : Relined r store store') (env : Location) {change change' : Frame → Frame}
    (changes : ∀ frame frame', Frame.Relined r frame frame' →
      Frame.Relined r (change frame) (change' frame')) :
    Relined r (store.update env change) (store'.update env change') where
  next := by
    rw [next_update, next_update, relined.next]
  frames := by
    intro location
    rw [frame?_update, frame?_update]
    split
    · exact rel_map (relined.frames location) changes
    · exact relined.frames location
  modules := relined.modules
  held := relined.held

theorem setVariable (relined : Relined r store store') (env : Location) (name : String)
    {binding binding' : Binding} (same : Binding.Relined r.map binding binding') :
    Relined r (store.setVariable env name binding) (store'.setVariable env name binding') :=
  relined.update env fun _ _ frames =>
    { frames with bindings := frames.bindings.insert name same }

theorem declareFunction (relined : Relined r store store') (env : Location) (name : String)
    {callable callable' : Callable} (same : Callable.Relined r.map callable callable') :
    Relined r (store.declareFunction env name callable)
      (store'.declareFunction env name callable') :=
  relined.update env fun _ _ frames =>
    { frames with functions := frames.functions.insert name same }

theorem expand (relined : Relined r store store') (env module : Location) :
    Relined r (store.expand env module) (store'.expand env module) := by
  rw [Store.expand, Store.expand, (relined.frame env).expanded]
  split
  · exact relined
  · refine relined.update env fun _ _ frames => { frames with expanded := ?_ }
    rw [frames.expanded]

theorem contains_eq (relined : Relined r store store') (env : Location) (name : String) :
    store'.contains env name = store.contains env name :=
  (relined.frame env).bindings.contains_eq name

theorem chainWithin_eq (relined : Relined r store store') (steps : Nat) (env : Location) :
    store'.chainWithin steps env = store.chainWithin steps env := by
  induction steps generalizing env with
  | zero => rfl
  | succ steps ih =>
    simp only [chainWithin, (relined.frame env).enclosing, ih]

/-- The call sites around a scope are the same but for their lines. -/
theorem backtrace (relined : Relined r store store') (env : Location) :
    List.Forall₂ (CallSite.Relined r) (store.backtrace env) (store'.backtrace env) := by
  rw [Store.backtrace, Store.backtrace, chain, chain, relined.chainWithin_eq]
  generalize store.chainWithin (env + 1) env = chain
  induction chain with
  | nil => exact .nil
  | cons location rest ih =>
    rw [List.filterMap_cons, List.filterMap_cons]
    rcases rel_cases (relined.frame location).callSite with
      ⟨missing, missing'⟩ | ⟨_, _, there, there', same⟩
    · rw [missing, missing']
      exact ih
    · rw [there, there']
      exact .cons same ih

theorem holderWithin (relined : Relined r store store') (name : String) (steps : Nat)
    (env : Location) :
    Option.Rel (fun held held' => held'.1 = held.1 ∧ Binding.Relined r.map held.2 held'.2)
      (store.holderWithin name steps env) (store'.holderWithin name steps env) := by
  induction steps generalizing env with
  | zero => exact .none
  | succ steps ih =>
    rw [Store.holderWithin, Store.holderWithin, (relined.frame env).enclosing]
    rcases rel_cases ((relined.frame env).bindings.get? name) with
      ⟨missing, missing'⟩ | ⟨_, _, there, there', same⟩
    · rw [missing, missing']
      cases (store.frame env).enclosing with
      | none => exact .none
      | some outer => exact ih outer
    · rw [there, there']
      exact .some ⟨rfl, same⟩

section Liveness

theorem roots_eq (relined : Relined r store store') : store'.roots = store.roots := by
  rw [roots, roots, relined.modules, relined.held]

theorem keepers_eq (relined : Relined r store store') : store'.keepers = store.keepers := by
  have size : store'.frames.size = store.frames.size := relined.next
  have kept : store'.frames.map Frame.kept = store.frames.map Frame.kept := by
    refine Array.ext_getElem? fun env => ?_
    rw [Array.getElem?_map, Array.getElem?_map]
    rcases rel_cases (relined.frames env) with ⟨missing, missing'⟩ | ⟨_, _, there, there', same⟩
    · rw [frame?] at missing missing'
      rw [missing, missing']
    · rw [frame?] at there there'
      rw [there, there']
      exact congrArg some same.kept_eq
  have counted (s : Store) (start : Keepers) :
      s.frames.foldl (fun keepers frame => keepers.add frame.kept) start =
        (s.frames.map Frame.kept).foldl (fun keepers kept => keepers.add kept) start :=
    Array.foldl_map.symm
  rw [keepers, keepers, counted, counted, kept, relined.roots_eq, size]

theorem sweep_eq (relined : Relined r store store') : store'.sweep = store.sweep := by
  have size : store'.frames.size = store.frames.size := relined.next
  have same : store'.giveUp = store.giveUp := by
    funext env keepers
    rw [giveUp, giveUp, (relined.frame env).kept_eq]
  funext keepers
  rw [sweep, sweep, size, same]

theorem settleWithin_eq (relined : Relined r store store') (rounds : Nat) (keepers : Keepers) :
    store'.settleWithin rounds keepers = store.settleWithin rounds keepers := by
  induction rounds generalizing keepers with
  | zero => rfl
  | succ rounds ih => rw [settleWithin, settleWithin, relined.sweep_eq, ih]

/-- The same scopes have been given up. -/
theorem isLive_eq (relined : Relined r store store') (env : Location) :
    store'.isLive env = store.isLive env := by
  have size : store'.frames.size = store.frames.size := relined.next
  rw [isLive, isLive, settle, settle, relined.roots_eq, relined.keepers_eq, size,
    relined.settleWithin_eq]

end Liveness

section Lookup

variable {α : Type} {own : Frame → Option α} {related : α → α → Prop}

theorem findInModule (relined : Relined r store store')
    (owns : ∀ frame frame', Frame.Relined r frame frame' →
      Option.Rel related (own frame) (own frame')) (module : Location) :
    Option.Rel related (store.findInModule own module) (store'.findInModule own module) := by
  rw [Store.findInModule, Store.findInModule, relined.isLive_eq]
  rcases rel_cases (rel_bind (relined.frames module) owns) with
    ⟨missing, missing'⟩ | ⟨_, _, there, there', same⟩
  · rw [missing, missing']
    exact .none
  · rw [there, there']
    dsimp only
    split
    · exact .some same
    · exact .none

theorem findInModules (relined : Relined r store store')
    (owns : ∀ frame frame', Frame.Relined r frame frame' →
      Option.Rel related (own frame) (own frame')) (modules : List Location) :
    Option.Rel related (modules.findSome? (store.findInModule own))
      (modules.findSome? (store'.findInModule own)) := by
  induction modules with
  | nil => exact .none
  | cons module rest ih =>
    rw [List.findSome?_cons, List.findSome?_cons]
    rcases rel_cases (relined.findInModule owns module) with
      ⟨missing, missing'⟩ | ⟨_, _, there, there', same⟩
    · rw [missing, missing']
      exact ih
    · rw [there, there']
      exact .some same

theorem findWithin (relined : Relined r store store')
    (owns : ∀ frame frame', Frame.Relined r frame frame' →
      Option.Rel related (own frame) (own frame')) (steps : Nat) (env : Location) :
    Option.Rel related (store.findWithin own steps env) (store'.findWithin own steps env) := by
  induction steps generalizing env with
  | zero => exact .none
  | succ steps ih =>
    rw [Store.findWithin, Store.findWithin]
    rcases rel_cases (relined.frames env) with
      ⟨missing, missing'⟩ | ⟨frame, frame', there, there', same⟩
    · rw [missing, missing']
      exact .none
    rw [there, there']
    dsimp only
    rcases rel_cases (owns frame frame' same) with ⟨missing, missing'⟩ | ⟨_, _, here, here', found⟩
    · rw [missing, missing', same.enclosing, same.expanded]
      dsimp only
      have outside : Option.Rel related (frame.enclosing.bind (store.findWithin own steps))
          (frame.enclosing.bind (store'.findWithin own steps)) :=
        rel_bind_self frame.enclosing ih
      rcases rel_cases outside with ⟨missing, missing'⟩ | ⟨_, _, outer, outer', found⟩
      · rw [missing, missing']
        exact relined.findInModules owns frame.expanded
      · rw [outer, outer']
        exact .some found
    · rw [here, here']
      exact .some found

theorem lookup (relined : Relined r store store') (env : Location) (name : String) :
    Outcome Eq (Value.Relined r.map) (store.lookup env name) (store'.lookup env name) := by
  rw [Store.lookup, Store.lookup, find, find]
  rcases rel_cases (relined.findWithin (fun _ _ same => same.value? name) (env + 1) env) with
    ⟨missing, missing'⟩ | ⟨_, _, there, there', found⟩
  · rw [missing, missing']
    exact .error rfl
  · rw [there, there']
    exact .ok found

theorem lookupFunction (relined : Relined r store store') (env : Location) (name : String) :
    Outcome Eq (Callable.Relined r.map) (store.lookupFunction env name)
      (store'.lookupFunction env name) := by
  have owns (frame frame' : Frame) (same : Frame.Relined r frame frame') :
      Option.Rel (Callable.Relined r.map) (frame.function? name) (frame'.function? name) :=
    same.functions.get? name
  rw [Store.lookupFunction, Store.lookupFunction, find, find]
  rcases rel_cases (relined.findWithin owns (env + 1) env) with
    ⟨missing, missing'⟩ | ⟨_, _, there, there', found⟩
  · rw [missing, missing']
    exact .error rfl
  · rw [there, there']
    exact .ok found

theorem openedModule_eq (relined : Relined r store store') (name : String) :
    store'.openedModule name = store.openedModule name := by
  rw [openedModule, openedModule, relined.modules]

end Lookup

/-- The text of a scope names no line. -/
theorem inspect_eq (relined : Relined r store store') (env : Location) :
    store'.inspect env = store.inspect env := by
  have depth : store'.depth env = store.depth env := by
    rw [Store.depth, Store.depth, chain, chain, relined.chainWithin_eq]
  have frames := relined.frame env
  unfold inspect
  dsimp only
  rw [depth, frames.bindings.names_eq, frames.functions.names_eq, frames.expanded]

end Relined

section Steps

variable {α α' : Type}

/-- Steps that lead from related stores to related stores, with results that match or with one
fault. -/
abbrev Parallel (r : Relining) (results : α → α' → Prop) : StoreStep α → StoreStep α' → Prop :=
  Attempt.Matches (Relined r) Eq results

theorem parallel_declare {value value' : Value} (env : Location) (name : String)
    (same : Value.Relined r.map value value') (mutability : Mutability) :
    Parallel r Eq (declare env name value mutability) (declare env name value' mutability) := by
  intro store store' relined
  rw [declare, declare, relined.contains_eq]
  split
  · exact ⟨.error rfl, relined⟩
  · exact ⟨.ok rfl, relined.setVariable env name ⟨same, rfl⟩⟩

theorem parallel_assign {value value' : Value} (env : Location) (name : String)
    (same : Value.Relined r.map value value') :
    Parallel r Eq (assign env name value) (assign env name value') := by
  intro store store' relined
  rw [assign, assign, holder?, holder?]
  rcases rel_cases (relined.holderWithin name (env + 1) env) with
    ⟨missing, missing'⟩ | ⟨⟨holder, old, mutability⟩, ⟨holder', old', mutability'⟩,
      there, there', place, bound⟩
  · rw [missing, missing']
    exact ⟨.error rfl, relined⟩
  · cases (show holder' = holder from place)
    cases (show mutability' = mutability from bound.mutability)
    rw [there, there']
    cases mutability with
    | «mutable» => exact ⟨.ok rfl, relined.setVariable holder name ⟨same, rfl⟩⟩
    | immutable => exact ⟨.error rfl, relined⟩

theorem parallel_openModule (name : String) (env : Location) :
    Parallel r Eq (openModule name env) (openModule name env) := by
  intro store store' relined
  have isGlobal : (store'.frame env).isGlobal = (store.frame env).isGlobal := by
    rw [Frame.isGlobal, Frame.isGlobal, (relined.frame env).enclosing]
  rw [openModule, openModule, isGlobal, relined.modules, relined.next]
  split
  · cases store.modules.get? name with
    | some module => exact ⟨.ok rfl, relined⟩
    | none =>
      have added := relined.add (Frame.relined_create (some env) .none)
      refine ⟨.ok rfl, added.next, added.frames, ?_, added.held⟩
      exact congrArg (fun modules : Table Location => modules.insert name store.next)
        relined.modules
  · exact ⟨.error rfl, relined⟩

end Steps

end Store

end ScriptCore
