import ScriptCore.Proofs.Store.Tree

/-!
# Looking up is a search of a flat list

A lookup goes outwards recursively, and at each scope it comes back to the modules in use there.
What it finds is nevertheless the first hit in one flat list of scopes (`find_eq_findSome?`): the
scopes outwards come first, then the live modules that they use, those of the outermost scope first.
-/
namespace ScriptCore.Store

variable {store : Store} {env : Location} {α : Type} {own : Frame → Option α}

/-- The live modules that are used around a scope, those of the outermost scope first, and those of
one scope in the order in which they were taken into use. -/
def imports (store : Store) (env : Location) : List Location :=
  (store.chain env).reverse.flatMap fun scope => (store.frame scope).expanded.filter store.isLive

/-- The scopes whose own names can be seen from a scope, the nearest first. -/
def places (store : Store) (env : Location) : List Location := store.chain env ++ store.imports env

/-- The scope whose own name is the first that `own` finds, as seen from a scope. -/
def placeOf? (store : Store) (env : Location) (own : Frame → Option α) : Option Location :=
  (store.places env).find? fun place => (own (store.frame place)).isSome

theorem findSome?_findInModule (blank : own (.create none none) = none) (modules : List Location) :
    modules.findSome? (store.findInModule own) =
      (modules.filter store.isLive).findSome? fun module => own (store.frame module) := by
  have owned (module : Location) :
      (store.frame? module).bind own = own (store.frame module) := by
    cases there : store.frame? module with
    | none => simp [frame_of_none there, blank]
    | some frame => simp [frame_of_frame? there]
  induction modules with
  | nil => rfl
  | cons module rest ih =>
    rw [List.findSome?_cons, List.filter_cons, ih, findInModule, owned]
    cases here : own (store.frame module) <;> cases live : store.isLive module <;> simp [here]

namespace IsTree

variable (tree : store.IsTree)

include tree

theorem imports_eq (env : Location) :
    store.imports env = ((store.frame env).enclosing.map store.imports).getD [] ++
      (store.frame env).expanded.filter store.isLive := by
  rw [imports, tree.chain_eq, List.reverse_cons, List.flatMap_append]
  cases (store.frame env).enclosing <;> simp [imports]

theorem places_eq (env : Location) :
    store.places env = env :: ((store.frame env).enclosing.map store.places).getD [] ++
      (store.frame env).expanded.filter store.isLive := by
  rw [places, tree.chain_eq, tree.imports_eq]
  cases (store.frame env).enclosing <;> simp [places]

/-- The nested search outwards has the result of the search of the flat list. -/
theorem find_eq_findSome? (blank : own (.create none none) = none) (env : Location) :
    store.find env own = (store.places env).findSome? fun place => own (store.frame place) := by
  refine tree.induction_outwards (P := fun env => store.find env own =
    (store.places env).findSome? fun place => own (store.frame place)) (fun env ih => ?_) env
  rw [tree.find_eq, tree.places_eq]
  cases there : store.frame? env with
  | none =>
    have alone : (Frame.create none none).enclosing = none ∧
        (Frame.create none none).expanded = [] := ⟨rfl, rfl⟩
    simp [frame_of_none there, alone, blank]
  | some frame =>
    rw [frame_of_frame? there] at ih
    simp only [frame_of_frame? there, List.cons_append, List.findSome?_cons, List.findSome?_append,
      findSome?_findInModule blank]
    cases here : own frame with
    | some found => rfl
    | none =>
      cases around : frame.enclosing with
      | none => simp
      | some outer =>
        simp only [Option.bind_some, Option.map_some, Option.getD_some, ih outer around]
        cases (store.places outer).findSome? fun place => own (store.frame place) <;> rfl

/-- What is found is what its place has. -/
theorem find_eq_placeOf? (blank : own (.create none none) = none) (env : Location) :
    store.find env own = (store.placeOf? env own).bind fun place => own (store.frame place) := by
  rw [tree.find_eq_findSome? blank, placeOf?]
  induction store.places env with
  | nil => rfl
  | cons place rest ih =>
    rw [List.findSome?_cons, List.find?_cons]
    cases here : own (store.frame place) with
    | none => exact ih
    | some found => simp [here]

end IsTree

/-- In a tree of scopes a name is looked up as by a search of a flat list: from the scopes `c₀`
(itself), `c₁`, …, `cₙ` (global) outwards, and behind them the live modules that `cₙ` uses, that
`cₙ₋₁` uses, and so on to those that `c₀` uses, the first that has the name gives it, and the lookup
fails if none has it. So a scope outwards hides every module, and of a module only its own names
count. -/
theorem lookup_is_flat_search (tree : store.IsTree) (env : Location) :
    ∃ scopes modules, store.Outwards env scopes ∧
      modules = scopes.reverse.flatMap
        (fun scope => (store.frame scope).expanded.filter store.isLive) ∧
      ∀ name,
        (∀ value, store.lookup env name = .ok value ↔
          (scopes ++ modules).findSome? (fun place => (store.frame place).value? name) =
            some value) ∧
        (∀ fault, store.lookup env name = .error fault ↔
          (∀ place ∈ scopes ++ modules, (store.frame place).value? name = none) ∧
            fault = .undefinedVariable name) ∧
        (∀ callable, store.lookupFunction env name = .ok callable ↔
          (scopes ++ modules).findSome? (fun place => (store.frame place).function? name) =
            some callable) ∧
        (∀ fault, store.lookupFunction env name = .error fault ↔
          (∀ place ∈ scopes ++ modules, (store.frame place).function? name = none) ∧
            fault = .undefinedFunction name) ∧
        (∀ value, scopes.findSome? (fun place => (store.frame place).value? name) = some value →
          store.lookup env name = .ok value) ∧
        ∀ callable, scopes.findSome? (fun place => (store.frame place).function? name) =
          some callable → store.lookupFunction env name = .ok callable := by
  refine ⟨store.chain env, store.imports env, tree.outwards_chain env, rfl, fun name => ?_⟩
  have values : store.find env (Frame.value? name) = _ := tree.find_eq_findSome? rfl env
  have callables : store.find env (Frame.function? name) = _ := tree.find_eq_findSome? rfl env
  rw [← places, lookup, lookupFunction, values, callables]
  refine ⟨fun value => ?_, fun fault => ?_, fun callable => ?_, fun fault => ?_,
    fun value first => ?_, fun callable first => ?_⟩
  · cases (store.places env).findSome? _ <;> simp
  · rw [← List.findSome?_eq_none_iff]
    cases (store.places env).findSome? _ <;> simp [eq_comm]
  · cases (store.places env).findSome? _ <;> simp
  · rw [← List.findSome?_eq_none_iff]
    cases (store.places env).findSome? _ <;> simp [eq_comm]
  · rw [places, List.findSome?_append, first]
    rfl
  · rw [places, List.findSome?_append, first]
    rfl

/-- A block in the global scope. Both use modules; two of them have a variable `y`, and the one
variable `w` is in a module that only another module uses. -/
def nestedUses : Store :=
  let bound (names : List (String × Int64)) : Table Binding :=
    ⟨names.map fun entry => (entry.1, ⟨.int entry.2, .immutable⟩)⟩
  { frames := #[
      ⟨bound [("x", 1)], .empty, [2], none, none⟩,
      ⟨bound [("y", 10)], .empty, [3], some 0, none⟩,
      ⟨bound [("x", 20), ("y", 21)], .empty, [], some 0, none⟩,
      ⟨bound [("w", 30)], .empty, [], some 0, none⟩,
      ⟨bound [], .empty, [1], some 0, some ⟨"block", ⟨1⟩⟩⟩]
    modules := ⟨[("A", 1), ("B", 2), ("C", 3)]⟩
    held := [4] }

theorem lookup_is_flat_search_nestedUses :
    nestedUses.IsTree ∧ nestedUses.lookup 4 "x" = .ok (.int 1) ∧
      nestedUses.lookup 4 "y" = .ok (.int 21) ∧
      nestedUses.lookup 4 "w" = .error (.undefinedVariable "w") := by
  have tree : nestedUses.IsTree := isTree_of_frames (by decide +kernel)
  obtain ⟨scopes, modules, outwards, rfl, search⟩ := lookup_is_flat_search tree 4
  obtain rfl := outwards.eq_chain tree
  have missing : (nestedUses.places 4).findSome?
      (fun place => (nestedUses.frame place).value? "w") = none := rfl
  refine ⟨tree, ((search "x").1 _).mpr rfl, ((search "y").1 _).mpr rfl, ?_⟩
  exact ((search "w").2.1 _).mpr ⟨List.findSome?_eq_none_iff.mp missing, rfl⟩

end ScriptCore.Store
