import Mathlib.Data.List.Nodup
import ScriptCore.Proofs.Scope.Admitted
import ScriptCore.Proofs.Ty.OverloadName

/-!
# Indices of overloads

Read from the outermost frame inwards, the visible overloads of a name have the indices from zero
on, without a gap. This holds of every outer part of a scope as well, so it stays true when frames
are left and filled again in any order. An indexed name determines the name and the index that it
is made of, so no two visible overloads have the same one.
-/
namespace ScriptCore.Scope

/-- The scopes that the operations on scopes lead to. -/
inductive Reachable : Scope → Prop
  | empty : Reachable .empty
  | builtins : Reachable .builtins
  | push {scope : Scope} (before : Reachable scope) : Reachable scope.push
  | pop {scope : Scope} (before : Reachable scope) : Reachable scope.pop
  | define {scope : Scope} (before : Reachable scope) (name : String) (type : Ty) :
      Reachable (scope.define name type)
  | defineType {scope : Scope} (before : Reachable scope) (name : String) (type : Ty) :
      Reachable (scope.defineType name type)
  | defineFunction {scope : Scope} (before : Reachable scope) (name : String) (type : FnTy) :
      Reachable (scope.defineFunction name type)
  | defineExtension {scope : Scope} (before : Reachable scope) (name : String) (type : FnTy) :
      Reachable (scope.defineExtension name type)

/-- The overloads of a name from the outermost of these frames inwards, and inside a frame in the
order of declaration. -/
def inwards (frames : List Frame) (name : String) : List Overload :=
  frames.reverse.flatMap (·.overloads name)

/-- The indexed names of a name with the indices below `count`, in order. -/
def indexedNames (name : String) (count : Nat) : List String :=
  (List.range count).map (overloadName name)

theorem indexedNames_succ (name : String) (count : Nat) :
    indexedNames name (count + 1) = indexedNames name count ++ [overloadName name count] := by
  simp [indexedNames, List.range_succ]

theorem nodup_indexedNames (name : String) (count : Nat) : (indexedNames name count).Nodup :=
  List.nodup_range.map fun _ _ same => (overloadName_inj same).2

theorem inwards_cons (frame : Frame) (outer : List Frame) (name : String) :
    inwards (frame :: outer) name = inwards outer name ++ frame.overloads name := by
  simp [inwards]

theorem inwards_addOverload (frame : Frame) (outer : List Frame) (name other : String)
    (overload : Overload) :
    inwards (frame.addOverload name overload :: outer) other =
      inwards (frame :: outer) other ++ if name = other then [overload] else [] := by
  rw [inwards_cons, inwards_cons, Frame.overloads_addOverload]
  split
  · rename_i same
    rw [same, List.append_assoc]
  · rw [List.append_nil]

/-- Reading inwards finds the visible overloads in another order. -/
theorem inwards_perm (scope : Scope) (name : String) :
    (inwards scope.frames name).Perm (scope.overloads name) :=
  (List.reverse_perm scope.frames).flatMap_right _

/-- The overloads of every name have the indices from zero on. -/
def Gapless (frames : List Frame) : Prop :=
  ∀ name, (inwards frames name).map (·.name) = indexedNames name (inwards frames name).length

/-- Every outer part of the scope is without gaps. -/
def Indexed (scope : Scope) : Prop := ∀ frames, frames <:+ scope.frames → Gapless frames

section Changes

variable {scope : Scope} {name : String}

theorem Indexed.gapless (indexed : scope.Indexed) : Gapless scope.frames :=
  indexed _ (List.suffix_refl _)

/-- A frame without gaps in place of the innermost one. -/
theorem Indexed.withCurrent (indexed : scope.Indexed) {frame : Frame}
    (gapless : Gapless (frame :: scope.outer)) : Indexed ⟨frame, scope.outer⟩ := by
  intro frames part
  rcases List.suffix_cons_iff.mp part with rfl | outside
  · exact gapless
  · exact indexed frames (outside.trans (List.suffix_cons _ _))

/-- Only the overloads of the innermost frame count. -/
theorem Indexed.congr (indexed : scope.Indexed) {frame : Frame}
    (same : ∀ name, frame.overloads name = scope.current.overloads name) :
    Indexed ⟨frame, scope.outer⟩ := by
  refine indexed.withCurrent fun name => ?_
  rw [inwards_cons, same, ← inwards_cons]
  exact indexed.gapless name

theorem Indexed.push (indexed : scope.Indexed) : scope.push.Indexed := by
  intro frames part
  rcases List.suffix_cons_iff.mp part with rfl | outside
  · intro name
    have same : inwards scope.push.frames name = inwards scope.frames name := by
      rw [frames, inwards_cons]
      exact List.append_nil _
    have before := indexed.gapless name
    rw [← same] at before
    exact before
  · exact indexed frames outside

theorem Indexed.pop (indexed : scope.Indexed) : scope.pop.Indexed := by
  obtain ⟨current, outer⟩ := scope
  cases outer with
  | nil => exact indexed
  | cons frame rest => exact fun frames part => indexed frames (part.trans (List.suffix_cons _ _))

theorem Indexed.define (indexed : scope.Indexed) {type : Ty} : (scope.define name type).Indexed :=
  indexed.congr fun _ => rfl

/-- The next overload of a name goes behind all of its visible ones. -/
theorem Indexed.addOverload (indexed : scope.Indexed) {type : FnTy} :
    Indexed ⟨scope.current.addOverload name (scope.nextOverload name type), scope.outer⟩ := by
  refine indexed.withCurrent fun other => ?_
  have before := indexed.gapless other
  have after : inwards (scope.current.addOverload name (scope.nextOverload name type) ::
      scope.outer) other = inwards scope.frames other ++
        if name = other then [scope.nextOverload name type] else [] :=
    inwards_addOverload _ _ name other _
  rw [after]
  split
  · rename_i same
    subst same
    have next : scope.nextIndex name = (inwards scope.frames name).length :=
      (scope.inwards_perm name).length_eq.symm
    calc (inwards scope.frames name ++ [scope.nextOverload name type]).map (·.name)
        = (inwards scope.frames name).map (·.name) ++
            [overloadName name (scope.nextIndex name)] := List.map_append
      _ = indexedNames name ((inwards scope.frames name).length + 1) := by
          rw [before, next, indexedNames_succ]
      _ = _ := by rw [List.length_append, List.length_singleton]
  · rw [List.append_nil]
    exact before

theorem Indexed.defineFunction (indexed : scope.Indexed) {type : FnTy} :
    (scope.defineFunction name type).Indexed :=
  indexed.addOverload

theorem Indexed.defineExtension (indexed : scope.Indexed) {type : FnTy} :
    (scope.defineExtension name type).Indexed :=
  indexed.addOverload.congr fun _ => rfl

theorem Indexed.defineFunctions (indexed : scope.Indexed) (types : List FnTy) :
    (types.foldl (fun scope type => scope.defineFunction name type) scope).Indexed := by
  induction types generalizing scope with
  | nil => exact indexed
  | cons type rest ih => exact ih indexed.defineFunction

/-- A class puts all of its constructors behind each other. -/
theorem Indexed.defineType (indexed : scope.Indexed) {type : Ty} :
    (scope.defineType name type).Indexed :=
  (indexed.defineFunctions (functionsOf type)).congr fun _ => rfl

end Changes

theorem indexed_empty : Indexed .empty := by
  intro frames part
  rcases List.suffix_cons_iff.mp part with rfl | outside
  · exact fun _ => rfl
  · obtain rfl := List.suffix_nil.mp outside
    exact fun _ => rfl

theorem indexed_defineTypes (types : List ClassTy) {scope : Scope} (indexed : scope.Indexed) :
    (types.foldl (fun scope type => scope.defineType type.render (.cls type)) scope).Indexed := by
  induction types generalizing scope with
  | nil => exact indexed
  | cons type rest ih => exact ih indexed.defineType

theorem Reachable.indexed {scope : Scope} (reachable : Reachable scope) : scope.Indexed := by
  induction reachable with
  | empty => exact indexed_empty
  | builtins => exact (indexed_defineTypes ClassTy.builtins indexed_empty).define
  | push _ ih => exact ih.push
  | pop _ ih => exact ih.pop
  | define _ _ _ ih => exact ih.define
  | defineType _ _ _ ih => exact ih.defineType
  | defineFunction _ _ _ ih => exact ih.defineFunction
  | defineExtension _ _ _ ih => exact ih.defineExtension

/-- The indexed names that are visible under a name are the first ones of that name. -/
theorem Indexed.overloads_perm {scope : Scope} (indexed : scope.Indexed) (name : String) :
    ((scope.overloads name).map (·.name)).Perm
      (indexedNames name (scope.overloads name).length) := by
  have names := (scope.inwards_perm name).map (·.name)
  rw [indexed.gapless name, (scope.inwards_perm name).length_eq] at names
  exact names.symm

/-- Indexed names of different names differ. -/
theorem disjoint_indexedNames {name other : String} (different : name ≠ other) (count more : Nat) :
    (indexedNames name count).Disjoint (indexedNames other more) := by
  intro indexed here there
  obtain ⟨index, -, rfl⟩ := List.mem_map.mp here
  obtain ⟨index', -, same⟩ := List.mem_map.mp there
  exact different (overloadName_inj same).1.symm

theorem Indexed.nodup_names {scope : Scope} (indexed : scope.Indexed) {names : List String}
    (distinct : names.Nodup) :
    (names.flatMap fun name => (scope.overloads name).map (·.name)).Nodup := by
  rw [List.nodup_flatMap]
  constructor
  · intro name _
    exact (indexed.overloads_perm name).nodup_iff.mpr (nodup_indexedNames name _)
  · refine List.Pairwise.imp ?_ distinct
    intro name other different
    have apart := disjoint_indexedNames different (scope.overloads name).length
      (scope.overloads other).length
    intro indexed' here there
    exact apart ((indexed.overloads_perm name).subset here)
      ((indexed.overloads_perm other).subset there)

/-- Along every reachable scope the overloads of a name are numbered from the outside in, and an
indexed name belongs to one name and one index. So the indexed names of all visible overloads of
any different names are different. -/
theorem overloads_are_numbered {scope : Scope} (reachable : Reachable scope) :
    (∀ name, (inwards scope.frames name).map (·.name) =
      (List.range (scope.overloads name).length).map (overloadName name)) ∧
    (Function.Injective fun key : String × Nat => overloadName key.1 key.2) ∧
    (∀ names : List String, names.Nodup →
      (names.flatMap fun name => (scope.overloads name).map (·.name)).Nodup) := by
  have indexed := reachable.indexed
  refine ⟨fun name => ?_, fun key other same => ?_, fun names => indexed.nodup_names⟩
  · rw [← (scope.inwards_perm name).length_eq]
    exact indexed.gapless name
  · exact Prod.ext_iff.mpr (overloadName_inj same)

/-- A function that takes nothing. -/
def action : FnTy := ⟨[], .unit, none⟩

/-- Overloads of `f` in two frames, one of them declared anew behind a frame that has been left, a
function whose own name looks indexed, and a class with two constructors. -/
def crowded : Scope :=
  ((((builtins.defineFunction "f" action).push.defineFunction "f-0" action).push.defineExtension
    "f" ⟨[("this", .int)], .unit, some .int⟩).pop.defineFunction "f" action).defineType "R"
      (.cls ⟨some "R", [], [[], [("x", .int)]]⟩)

theorem overloads_are_numbered_crowded :
    Reachable crowded ∧ ["f", "f-0", "R"].Nodup ∧
      (["f", "f-0", "R"].flatMap fun name => (crowded.overloads name).map (·.name)) =
        ["f-1", "f-0", "f-0-0", "R-0", "R-1"] ∧
      (["f", "f-0", "R"].flatMap fun name => (crowded.overloads name).map (·.name)).Nodup := by
  have reachable : Reachable crowded :=
    .defineType (.defineFunction (.pop (.defineExtension (.push (.defineFunction (.push
      (.defineFunction .builtins "f" _)) "f-0" _)) "f" _)) "f" _) "R" _
  have distinct : ["f", "f-0", "R"].Nodup := by decide
  exact ⟨reachable, distinct, by decide +kernel,
    (overloads_are_numbered reachable).2.2 _ distinct⟩

end ScriptCore.Scope
