import ScriptCore.Proofs.Store.Evolution
import ScriptCore.Store.Lookup

/-!
# The tree of scopes

In a store that is a tree every link outwards ends at an older scope, so the links from any scope
lead to a global one in the end. The walks outwards have a bound on their steps, which a tree never
exhausts: each of them is given by one equation over the scope around (`chain_eq`, `find_eq`,
`backtrace_eq`).
-/
namespace ScriptCore.Store

/-- Every link outwards ends at an older scope. -/
def IsTree (store : Store) : Prop :=
  ∀ env frame outer, store.frame? env = some frame → frame.enclosing = some outer → outer < env

/-- Links lead from the scope through all of these scopes, itself first, to a global one. -/
inductive Outwards (store : Store) : Location → List Location → Prop
  | root {env : Location} (global : (store.frame env).enclosing = none) : Outwards store env [env]
  | link {env outer : Location} {scopes : List Location}
      (around : (store.frame env).enclosing = some outer) (rest : Outwards store outer scopes) :
      Outwards store env (env :: scopes)

variable {store old new : Store} {env outer : Location}

theorem frame_of_none (absent : store.frame? env = none) : store.frame env = .create none none := by
  rw [Store.frame, absent]
  rfl

/-- A frame with anything in it is one of the store. -/
theorem lt_next_of_frame_ne (own : store.frame env ≠ .create none none) : env < store.next :=
  Nat.lt_of_not_ge fun outside => own (frame_of_none (Array.getElem?_eq_none outside))

namespace IsTree

theorem older (tree : store.IsTree) (around : (store.frame env).enclosing = some outer) :
    outer < env := by
  cases there : store.frame? env with
  | none =>
    rw [frame_of_none there] at around
    cases around
  | some frame =>
    rw [frame_of_frame? there] at around
    exact tree env frame outer there around

/-- What passes inwards along every link holds of every scope. -/
theorem induction_outwards (tree : store.IsTree) {P : Location → Prop}
    (inwards : ∀ env, (∀ outer, (store.frame env).enclosing = some outer → P outer) → P env)
    (env : Location) : P env := by
  induction env using Nat.strongRecOn with
  | ind env ih => exact inwards env fun outer around => ih outer (tree.older around)

/-- A walk outwards that is bounded by the location of its start never comes to its bound. -/
theorem walk_eq (tree : store.IsTree) {β : Type} (walk : Nat → Location → β)
    (visit : Location → Option β → β)
    (walk_succ : ∀ steps env,
      walk (steps + 1) env = visit env ((store.frame env).enclosing.map (walk steps)))
    (env : Location) :
    walk (env + 1) env =
      visit env ((store.frame env).enclosing.map fun outer => walk (outer + 1) outer) := by
  have settled : ∀ env steps, env < steps → walk steps env = walk (env + 1) env := by
    refine tree.induction_outwards fun env ih steps enough => ?_
    obtain ⟨steps, rfl⟩ := Nat.exists_eq_add_one_of_ne_zero (Nat.ne_zero_of_lt enough)
    rw [walk_succ, walk_succ]
    refine congrArg (visit env) (Option.map_congr fun outer around => ?_)
    have below := tree.older around
    have within := Nat.lt_of_lt_of_le below (Nat.le_of_lt_succ enough)
    rw [ih outer around steps within, ih outer around env below]
  rw [walk_succ]
  refine congrArg (visit env) (Option.map_congr fun outer around => ?_)
  exact settled outer env (tree.older around)

theorem chain_eq (tree : store.IsTree) (env : Location) :
    store.chain env = env :: ((store.frame env).enclosing.map store.chain).getD [] := by
  refine tree.walk_eq store.chainWithin
    (fun env outwards => env :: outwards.getD []) (fun steps env => ?_) env
  cases around : (store.frame env).enclosing <;> simp [chainWithin, around]

theorem holder?_eq (tree : store.IsTree) (env : Location) (name : String) :
    store.holder? env name =
      match (store.frame env).bindings.get? name with
      | some binding => some (env, binding)
      | none => (store.frame env).enclosing.bind fun outer => store.holder? outer name := by
  have walked := tree.walk_eq (store.holderWithin name)
    (fun env outwards =>
      match (store.frame env).bindings.get? name with
      | some binding => some (env, binding)
      | none => outwards.join) (fun steps env => ?_) env
  · rw [holder?, walked]
    cases (store.frame env).enclosing <;> rfl
  · rw [holderWithin]
    cases (store.frame env).enclosing <;> rfl

theorem find_eq (tree : store.IsTree) (env : Location) {α : Type} (own : Frame → Option α) :
    store.find env own =
      match store.frame? env with
      | none => none
      | some frame =>
        match own frame with
        | some found => some found
        | none =>
          match frame.enclosing.bind fun outer => store.find outer own with
          | some found => some found
          | none => frame.expanded.findSome? (store.findInModule own) := by
  have walked := tree.walk_eq (store.findWithin own)
    (fun env outwards =>
      match store.frame? env with
      | none => none
      | some frame =>
        match own frame with
        | some found => some found
        | none =>
          match outwards.join with
          | some found => some found
          | none => frame.expanded.findSome? (store.findInModule own)) (fun steps env => ?_) env
  · rw [find, walked]
    cases there : store.frame? env with
    | none => rfl
    | some frame =>
      simp only [frame_of_frame? there]
      cases frame.enclosing <;> rfl
  · rw [findWithin]
    cases there : store.frame? env with
    | none => rfl
    | some frame =>
      simp only [frame_of_frame? there]
      cases frame.enclosing <;> rfl

theorem backtrace_eq (tree : store.IsTree) (env : Location) :
    store.backtrace env = (store.frame env).callSite.toList ++
      ((store.frame env).enclosing.map store.backtrace).getD [] := by
  have around : store.backtrace = fun env =>
      (store.chain env).filterMap fun scope => (store.frame scope).callSite := rfl
  rw [backtrace, tree.chain_eq, List.filterMap_cons]
  cases (store.frame env).enclosing <;> cases (store.frame env).callSite <;> simp [around]

theorem outwards_chain (tree : store.IsTree) (env : Location) :
    store.Outwards env (store.chain env) := by
  refine tree.induction_outwards (P := fun env => store.Outwards env (store.chain env)) ?_ env
  intro env ih
  rw [tree.chain_eq]
  cases around : (store.frame env).enclosing with
  | none => exact .root around
  | some outer => exact .link around (ih outer around)

end IsTree

theorem Outwards.eq_chain (tree : store.IsTree) {scopes : List Location}
    (outwards : store.Outwards env scopes) : scopes = store.chain env := by
  induction outwards with
  | root global => simp [tree.chain_eq, global]
  | @link env outer scopes around rest ih => simp [tree.chain_eq env, around, ih]

/-- A store is a tree if this can be read off its frames one by one. -/
theorem isTree_of_frames
    (frames : ∀ env < store.next, ∀ outer ∈ (store.frame env).enclosing, outer < env) :
    store.IsTree := by
  intro env frame outer there around
  refine frames env (lt_next_of_frame? there) outer ?_
  rw [frame_of_frame? there]
  exact around

/-- A store whose frames keep their links is a tree still. -/
theorem IsTree.update (tree : store.IsTree) {change : Frame → Frame}
    (enclosing : ∀ frame, (change frame).enclosing = frame.enclosing) :
    (store.update env change).IsTree := by
  intro location frame outer there around
  obtain ⟨before, was, ⟨rfl, -⟩ | ⟨rfl, -⟩⟩ := of_frame?_update there
  · exact tree location frame outer was around
  · exact tree location before outer was ((enclosing before).symm.trans around)

/-- A new scope lies inside one that is there. -/
theorem IsTree.child (tree : store.IsTree) (inside : env < store.next) {site : Option CallSite} :
    (store.add (.create (some env) site)).IsTree := by
  intro location frame outer there around
  rw [frame?_add] at there
  split at there
  · rename_i new
    cases there
    cases around
    exact new ▸ inside
  · exact tree location frame outer there around

end ScriptCore.Store
