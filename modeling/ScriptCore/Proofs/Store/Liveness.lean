import Mathlib.Algebra.BigOperators.Group.Finset.Basic
import Mathlib.Algebra.Order.BigOperators.Group.Finset
import Mathlib.Logic.Relation
import ScriptCore.Proofs.Store.Tree
import ScriptCore.Store.Liveness

/-!
# Which scopes are live

Liveness is found by counting: a scope that nothing keeps is given up, which takes keepers from
other scopes. The counts stay those of the roots and of the scopes that have not been given up
(`Counts`). So the live scopes are the largest set of scopes of which each is a root or is kept by
one of the set (`isLive_iff`).
-/
namespace ScriptCore.Store

open Finset

/-- Each of these scopes is a root, or a scope of the store that is kept by one of them. -/
def SelfKept (store : Store) (live : Location → Prop) : Prop :=
  ∀ env, live env → env ∈ store.roots ∨
    env < store.next ∧ ∃ keeper, live keeper ∧ env ∈ (store.frame keeper).kept

/-- The first scope keeps the second, directly or through others. -/
def Keeps (store : Store) : Location → Location → Prop :=
  Relation.ReflTransGen fun keeper env => env ∈ (store.frame keeper).kept

namespace Keepers

variable {keepers : Keepers} {env : Location}

/-- The scopes that have not been given up. -/
def alive (keepers : Keepers) : Finset Location :=
  (range keepers.size).filter fun env => keepers[env]?.join.isSome

theorem mem_alive : env ∈ keepers.alive ↔ ∃ n, keepers[env]? = some (some n) := by
  rw [alive, mem_filter, Finset.mem_range, Option.isSome_iff_exists]
  constructor
  · rintro ⟨-, n, counted⟩
    exact ⟨n, Option.join_eq_some_iff.mp counted⟩
  · rintro ⟨n, counted⟩
    exact ⟨(Array.getElem?_eq_some_iff.mp counted).1, n, Option.join_eq_some_iff.mpr counted⟩

theorem size_adjust (change : Nat → Nat) (kept : List Location) (keepers : Keepers) :
    (adjust change kept keepers).size = keepers.size := by
  induction kept generalizing keepers with
  | nil => rfl
  | cons env rest ih => rw [adjust, List.foldl_cons, ← adjust, ih, Array.size_modify]

/-- A count changes as often as its scope is kept. -/
theorem getElem?_adjust (change : Nat → Nat) (kept : List Location) (keepers : Keepers) :
    (adjust change kept keepers)[env]? =
      keepers[env]?.map (·.map (change^[kept.count env])) := by
  induction kept generalizing keepers with
  | nil => cases counted : keepers[env]? <;> simp [adjust, counted]
  | cons other rest ih =>
    rw [adjust, List.foldl_cons, ← adjust, ih, Array.getElem?_modify]
    by_cases same : other = env
    · subst same
      cases keepers[other]? <;> simp [Function.comp_def]
    · cases keepers[env]? <;> simp [same]

theorem size_add (kept : List Location) (keepers : Keepers) :
    (keepers.add kept).size = keepers.size :=
  size_adjust _ kept keepers

theorem getElem?_add (kept : List Location) (keepers : Keepers) :
    (keepers.add kept)[env]? = keepers[env]?.map (·.map (· + kept.count env)) := by
  have iterated (times : Nat) : (· + 1)^[times] = fun n : Nat => n + times := by
    funext n
    induction times with
    | zero => rfl
    | succ times ih => rw [Function.iterate_succ_apply', ih, Nat.add_assoc]
  simp only [add, getElem?_adjust, iterated]

theorem getElem?_drop (kept : List Location) (keepers : Keepers) :
    (keepers.drop kept)[env]? = keepers[env]?.map (·.map (· - kept.count env)) := by
  have iterated (times : Nat) : (· - 1)^[times] = fun n : Nat => n - times := by
    funext n
    induction times with
    | zero => rfl
    | succ times ih => rw [Function.iterate_succ_apply', ih, Nat.sub_sub]
  simp only [drop, getElem?_adjust, iterated]

end Keepers

open Keepers

variable {store : Store} {keepers : Keepers} {env other : Location} {live : Location → Prop}

/-- Only a scope of the store keeps others. -/
theorem lt_next_of_mem_kept (kept : other ∈ (store.frame env).kept) : env < store.next := by
  refine lt_next_of_frame_ne fun blank => ?_
  rw [blank] at kept
  cases kept

section GivingUp

theorem giveUp_of_ne_zero (kept : keepers[env]? ≠ some (some 0)) :
    store.giveUp env keepers = keepers := by
  rw [giveUp.eq_def]
  split
  · contradiction
  · rfl

theorem getElem?_giveUp (spent : keepers[env]? = some (some 0)) :
    (store.giveUp env keepers)[other]? =
      if env = other then some none
      else keepers[other]?.map (·.map (· - (store.frame env).kept.count other)) := by
  rw [giveUp, spent]
  simp only [getElem?_drop, Array.getElem?_modify]
  by_cases same : env = other
  · subst same
    simp [spent]
  · simp [same]

theorem size_giveUp : (store.giveUp env keepers).size = keepers.size := by
  rw [giveUp.eq_def]
  split
  · rw [drop, size_adjust, Array.size_modify]
  · rfl

theorem alive_giveUp (spent : keepers[env]? = some (some 0)) :
    (store.giveUp env keepers).alive = keepers.alive.erase env := by
  ext other
  rw [mem_erase, mem_alive, mem_alive, getElem?_giveUp spent]
  by_cases same : env = other
  · simp [same]
  · cases keepers[other]? with
    | none => simp [same]
    | some count => cases count <;> simp [same, Ne.symm same]

theorem alive_giveUp_subset : (store.giveUp env keepers).alive ⊆ keepers.alive := by
  by_cases spent : keepers[env]? = some (some 0)
  · rw [alive_giveUp spent]
    exact erase_subset _ _
  · rw [giveUp_of_ne_zero spent]

/-- What giving up one scope keeps holds once nothing more can be given up. -/
theorem settleWithin_induction (holds : Keepers → Prop)
    (step : ∀ env keepers, holds keepers → holds (store.giveUp env keepers)) (rounds : Nat)
    (start : holds keepers) : holds (store.settleWithin rounds keepers) := by
  have swept : ∀ keepers, holds keepers → holds (store.sweep keepers) := by
    intro keepers now
    rw [sweep]
    induction List.range store.frames.size with
    | nil => exact now
    | cons env rest ih => exact step env _ ih
  induction rounds generalizing keepers with
  | zero => exact start
  | succ rounds ih =>
    rw [settleWithin]
    split
    · exact ih (swept keepers start)
    · exact start

/-- A scope without keepers is given up by the next sweep. -/
theorem notMem_alive_sweep (inside : env < store.next) (spent : keepers[env]? = some (some 0)) :
    env ∉ (store.sweep keepers).alive := by
  -- on its way through the scopes a sweep comes to `env`, which has no keepers until then
  have swept : ∀ scopes : List Location, (scopes.foldr store.giveUp keepers)[env]? = some none ∨
      env ∉ scopes ∧ (scopes.foldr store.giveUp keepers)[env]? = some (some 0) := by
    intro scopes
    induction scopes with
    | nil => exact .inr ⟨List.not_mem_nil, spent⟩
    | cons other rest ih =>
      rw [List.foldr_cons]
      by_cases zero : (rest.foldr store.giveUp keepers)[other]? = some (some 0)
      · rw [getElem?_giveUp zero]
        by_cases same : other = env
        · simp [same]
        · rcases ih with gone | ⟨before, counted⟩
          · simp [gone]
          · simp [same, Ne.symm same, before, counted]
      · rw [giveUp_of_ne_zero zero]
        rcases ih with gone | ⟨before, counted⟩
        · exact .inl gone
        · refine .inr ⟨?_, counted⟩
          rw [List.mem_cons, not_or]
          refine ⟨?_, before⟩
          rintro rfl
          exact zero counted
  rcases swept (List.range store.frames.size) with gone | ⟨before, -⟩
  · rw [sweep, mem_alive, gone]
    simp
  · exact absurd (List.mem_range.mpr inside) before

theorem alive_sweep_subset : (store.sweep keepers).alive ⊆ keepers.alive := by
  rw [sweep]
  induction List.range store.frames.size with
  | nil => exact Subset.refl _
  | cons env rest ih => exact alive_giveUp_subset.trans ih

/-- Every sweep gives up a scope, so there are enough rounds for all of them. -/
theorem settleWithin_ne_zero {rounds : Nat} (size : keepers.size = store.next)
    (enough : keepers.alive.card ≤ rounds) :
    (store.settleWithin rounds keepers)[env]? ≠ some (some 0) := by
  induction rounds generalizing keepers with
  | zero =>
    intro spent
    have member : env ∈ keepers.alive := mem_alive.mpr ⟨0, spent⟩
    rw [card_eq_zero.mp (Nat.le_zero.mp enough)] at member
    exact notMem_empty env member
  | succ rounds ih =>
    rw [settleWithin]
    split
    · rename_i left
      obtain ⟨other, inside, spent⟩ := Array.mem_iff_getElem.mp (Array.contains_iff_mem.mp left)
      have zero : keepers[other]? = some (some 0) :=
        Array.getElem?_eq_some_iff.mpr ⟨inside, spent⟩
      have smaller : (store.sweep keepers).alive.card < keepers.alive.card := by
        refine card_lt_card ⟨alive_sweep_subset, fun subset => ?_⟩
        exact notMem_alive_sweep (size ▸ inside) zero (subset (mem_alive.mpr ⟨0, zero⟩))
      refine ih ?_ (by omega)
      rw [← size, sweep]
      induction List.range store.frames.size with
      | nil => rfl
      | cons env rest ih => rw [List.foldr_cons, size_giveUp, ih]
    · rename_i none
      intro spent
      exact none (Array.contains_iff_mem.mpr (Array.mem_of_getElem? spent))

end GivingUp

section Counting

/-- The scopes that are left are counted right: the roots and those scopes keep them so often. -/
structure Counts (store : Store) (keepers : Keepers) : Prop where
  size : keepers.size = store.next
  counted : ∀ env n, keepers[env]? = some (some n) →
    n = store.roots.count env + ∑ keeper ∈ keepers.alive, (store.frame keeper).kept.count env

theorem Counts.giveUp (counts : store.Counts keepers) (env : Location) :
    store.Counts (store.giveUp env keepers) := by
  by_cases spent : keepers[env]? = some (some 0)
  · refine ⟨size_giveUp.trans counts.size, fun other n counted => ?_⟩
    rw [alive_giveUp spent]
    rw [getElem?_giveUp spent] at counted
    split at counted
    · cases counted
    · obtain ⟨count, before, left⟩ := Option.map_eq_some_iff.mp counted
      obtain ⟨m, rfl, rfl⟩ := Option.map_eq_some_iff.mp left
      have all := counts.counted other m before
      have member : env ∈ keepers.alive := mem_alive.mpr ⟨0, spent⟩
      rw [← add_sum_erase _ _ member] at all
      omega
  · rw [giveUp_of_ne_zero spent]
    exact counts

/-- At first no scope has been given up. -/
theorem counts_keepers : store.Counts store.keepers ∧ store.keepers.alive = range store.next := by
  have counted : store.keepers.size = store.next ∧ ∀ env < store.next, store.keepers[env]? =
      some (some (store.roots.count env +
        ∑ keeper ∈ range store.next, (store.frame keeper).kept.count env)) := by
    refine Array.foldl_induction (fun (seen : Nat) (keepers : Keepers) =>
      keepers.size = store.next ∧ ∀ env < store.next, keepers[env]? =
        some (some (store.roots.count env +
          ∑ keeper ∈ range seen, (store.frame keeper).kept.count env))) ⟨?_, ?_⟩ ?_
    · rw [size_add, Array.size_replicate, next]
    · intro env inside
      rw [next] at inside
      rw [getElem?_add, Array.getElem?_replicate, if_pos inside]
      simp
    · rintro ⟨seen, inside⟩ keepers ⟨size, counted⟩
      have there : store.frame seen = store.frames[seen] :=
        frame_of_frame? (Array.getElem?_eq_getElem inside)
      refine ⟨?_, fun env within => ?_⟩
      · rw [size_add, size]
      · rw [getElem?_add, counted env within, sum_range_succ, there]
        simp [Nat.add_assoc]
  have alive : store.keepers.alive = range store.next := by
    ext env
    rw [mem_alive, Finset.mem_range]
    constructor
    · rintro ⟨n, known⟩
      exact counted.1 ▸ (Array.getElem?_eq_some_iff.mp known).1
    · exact fun inside => ⟨_, counted.2 env inside⟩
  refine ⟨⟨counted.1, fun env n known => ?_⟩, alive⟩
  have inside : env < store.next := counted.1 ▸ (Array.getElem?_eq_some_iff.mp known).1
  have same := (counted.2 env inside).symm.trans known
  rw [alive]
  simpa using same.symm

/-- Scopes that keep one another are never given up. -/
theorem SelfKept.giveUp (selfKept : store.SelfKept live) (counts : store.Counts keepers)
    (alive : ∀ env, live env → env < store.next → env ∈ keepers.alive) (env : Location) :
    ∀ other, live other → other < store.next → other ∈ (store.giveUp env keepers).alive := by
  intro other lives inside
  by_cases spent : keepers[env]? = some (some 0)
  · rw [alive_giveUp spent, mem_erase]
    refine ⟨?_, alive other lives inside⟩
    rintro rfl
    have zero := counts.counted other 0 spent
    rcases selfKept other lives with root | ⟨-, keeper, keeps, mem⟩
    · have positive := List.count_pos_iff.mpr root
      omega
    · have there : keeper < store.next := by
        by_contra outside
        have absent : store.frame? keeper = none := Array.getElem?_eq_none (Nat.not_lt.mp outside)
        rw [frame_of_none absent] at mem
        cases mem
      have positive := List.count_pos_iff.mpr mem
      have bounded := single_le_sum (f := fun keeper => (store.frame keeper).kept.count other)
        (fun _ _ => Nat.zero_le _) (alive keeper keeps there)
      omega
  · rw [giveUp_of_ne_zero spent]
    exact alive other lives inside

end Counting

/-- A scope is live if it belongs to some scopes of which each is a root or is kept by one of them,
and only then. -/
theorem isLive_iff :
    store.isLive env = true ↔ ∃ live : Location → Prop, store.SelfKept live ∧ live env := by
  obtain ⟨counts, all⟩ : store.Counts store.keepers ∧ store.keepers.alive = range store.next :=
    counts_keepers
  rw [isLive, Bool.or_eq_true, List.contains_iff_mem, Option.isSome_iff_exists]
  constructor
  · intro lives
    have settled : store.Counts store.settle :=
      settleWithin_induction _ (fun env _ now => now.giveUp env) _ counts
    refine ⟨fun env => env ∈ store.roots ∨ env ∈ store.settle.alive, ?_, ?_⟩
    · rintro other (root | left)
      · exact .inl root
      · obtain ⟨n, known⟩ := mem_alive.mp left
        have positive : n ≠ 0 := by
          rintro rfl
          refine settleWithin_ne_zero counts.size ?_ known
          rw [all, card_range, next]
        have counted := settled.counted other n known
        by_cases root : other ∈ store.roots
        · exact .inl root
        · have inside : other < store.next :=
            settled.size ▸ (Array.getElem?_eq_some_iff.mp known).1
          rw [List.count_eq_zero_of_not_mem root, Nat.zero_add] at counted
          obtain ⟨keeper, keeps, mem⟩ := exists_ne_zero_of_sum_ne_zero (counted ▸ positive)
          exact .inr ⟨inside, keeper, .inr keeps, List.count_pos_iff.mp (Nat.pos_of_ne_zero mem)⟩
    · rcases lives with root | ⟨n, known⟩
      · exact .inl root
      · exact .inr (mem_alive.mpr ⟨n, Option.join_eq_some_iff.mp known⟩)
  · rintro ⟨live, selfKept, lives⟩
    have settled : store.Counts store.settle ∧
        ∀ env, live env → env < store.next → env ∈ store.settle.alive := by
      refine settleWithin_induction (fun keepers => store.Counts keepers ∧
        ∀ env, live env → env < store.next → env ∈ keepers.alive) (fun env _ now => ?_) _ ?_
      · exact ⟨now.1.giveUp env, selfKept.giveUp now.1 now.2 env⟩
      · exact ⟨counts, fun env _ inside => all ▸ Finset.mem_range.mpr inside⟩
    rcases selfKept env lives with root | ⟨inside, -⟩
    · exact .inl root
    · obtain ⟨n, known⟩ := mem_alive.mp (settled.2 env lives inside)
      exact .inr ⟨n, Option.join_eq_some_iff.mpr known⟩

theorem selfKept_isLive : store.SelfKept fun env => store.isLive env = true := by
  intro env lives
  obtain ⟨live, selfKept, member⟩ := isLive_iff.mp lives
  refine (selfKept env member).imp_right ?_
  rintro ⟨inside, keeper, keeps, kept⟩
  exact ⟨inside, keeper, isLive_iff.mpr ⟨live, selfKept, keeps⟩, kept⟩

/-- A scope keeps the scopes around it. -/
theorem IsTree.isLive_chain (tree : store.IsTree) (lives : store.isLive env = true) :
    ∀ scope ∈ store.chain env, store.isLive scope = true := by
  revert lives
  refine tree.induction_outwards (P := fun env => store.isLive env = true →
    ∀ scope ∈ store.chain env, store.isLive scope = true) (fun env ih lives scope mem => ?_) env
  rw [tree.chain_eq, List.mem_cons] at mem
  rcases mem with rfl | mem
  · exact lives
  · cases around : (store.frame env).enclosing with
    | none => simp [around] at mem
    | some outer =>
      have kept : outer ∈ (store.frame env).kept := by simp [Frame.kept, around]
      have inside := lt_next_of_mem_kept kept
      refine ih outer around ?_ scope (by simpa [around] using mem)
      refine isLive_iff.mpr ⟨fun other => store.isLive other = true ∨ other = outer, ?_, .inr rfl⟩
      rintro other (now | rfl)
      · refine (selfKept_isLive other now).imp_right ?_
        rintro ⟨within, keeper, keeps, mem⟩
        exact ⟨within, keeper, .inl keeps, mem⟩
      · exact .inr ⟨(tree.older around).trans inside, env, .inl lives, kept⟩

end ScriptCore.Store
