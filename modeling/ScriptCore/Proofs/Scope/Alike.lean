import ScriptCore.Proofs.Scope.Indices

/-!
# Scopes that answer alike

Two scopes of different frames may answer every question alike. They go on to do so after a name is
defined in both: a variable or a type hides what the name meant before in either of them. A new
overload comes behind the overloads of its own frame but ahead of all others, so for the names of
functions the innermost frames must agree as well. A scope and the same scope with a new frame
agree so on the names that have no overloads yet.
-/
namespace ScriptCore.Scope

/-- The visible extension overloads of a name, for any receiver. -/
def extensionOverloads (scope : Scope) (name : String) : List Overload :=
  scope.frames.flatMap (·.extensionOverloads name)

/-- Scopes that answer alike, and whose innermost frames have the same overloads of each name that
is `free` to be declared. -/
structure Alike (free : String → Prop) (scope scope' : Scope) : Prop where
  lookup : ∀ name, scope'.lookup name = scope.lookup name
  lookupType : ∀ name, scope'.lookupType name = scope.lookupType name
  overloads : ∀ name, scope'.overloads name = scope.overloads name
  extensions : ∀ name, scope'.extensionOverloads name = scope.extensionOverloads name
  ownOverloads : ∀ name, free name →
    scope'.current.overloads name = scope.current.overloads name
  ownExtensions : ∀ name, free name →
    scope'.current.extensionOverloads name = scope.current.extensionOverloads name

section Operations

variable {scope : Scope} {name other : String}

theorem extensionOverloads_push :
    scope.push.extensionOverloads name = scope.extensionOverloads name := rfl

theorem overloads_eq_append :
    scope.overloads name =
      scope.current.overloads name ++ scope.outer.flatMap (·.overloads name) :=
  List.flatMap_cons

theorem extensionOverloads_eq_append :
    scope.extensionOverloads name =
      scope.current.extensionOverloads name ++ scope.outer.flatMap (·.extensionOverloads name) :=
  List.flatMap_cons

theorem extensionOverloads_defineExtension {type : FnTy} :
    (scope.defineExtension name type).extensionOverloads name =
      scope.current.extensionOverloads name ++ [scope.nextOverload name type] ++
        scope.outer.flatMap (·.extensionOverloads name) := by
  rw [extensionOverloads_eq_append]
  congr 1
  exact Frame.extensionOverloads_addExtension.trans (if_pos rfl)

theorem extensionOverloads_defineExtension_of_ne {type : FnTy} (different : name ≠ other) :
    (scope.defineExtension name type).extensionOverloads other =
      scope.extensionOverloads other := by
  rw [extensionOverloads_eq_append, extensionOverloads_eq_append]
  congr 1
  exact Frame.extensionOverloads_addExtension.trans (if_neg different)

end Operations

namespace Alike

variable {free more : String → Prop} {scope scope' : Scope} {name : String}

theorem nextOverload (alike : scope.Alike free scope') {type : FnTy} :
    scope'.nextOverload name type = scope.nextOverload name type := by
  rw [Scope.nextOverload, Scope.nextOverload, nextIndex, nextIndex, alike.overloads]

/-- What the frames around the innermost ones have for a free name is the same as well. -/
theorem outerOverloads (alike : scope.Alike free scope') (isFree : free name) :
    scope'.outer.flatMap (·.overloads name) = scope.outer.flatMap (·.overloads name) := by
  have all := alike.overloads name
  rw [overloads_eq_append, overloads_eq_append, alike.ownOverloads name isFree] at all
  exact List.append_cancel_left all

theorem outerExtensions (alike : scope.Alike free scope') (isFree : free name) :
    scope'.outer.flatMap (·.extensionOverloads name) =
      scope.outer.flatMap (·.extensionOverloads name) := by
  have all := alike.extensions name
  rw [extensionOverloads_eq_append, extensionOverloads_eq_append,
    alike.ownExtensions name isFree] at all
  exact List.append_cancel_left all

/-- In new frames every name is free. -/
theorem push (alike : scope.Alike free scope') : scope.push.Alike more scope'.push where
  lookup name := by rw [lookup_push, lookup_push, alike.lookup]
  lookupType name := by rw [lookupType_push, lookupType_push, alike.lookupType]
  overloads name := by rw [overloads_push, overloads_push, alike.overloads]
  extensions name := by rw [extensionOverloads_push, extensionOverloads_push, alike.extensions]
  ownOverloads _ _ := rfl
  ownExtensions _ _ := rfl

theorem define (alike : scope.Alike free scope') (name : String) (type : Ty) :
    (scope.define name type).Alike free (scope'.define name type) where
  lookup other := by rw [lookup_define, lookup_define, alike.lookup]
  lookupType := alike.lookupType
  overloads := alike.overloads
  extensions := alike.extensions
  ownOverloads := alike.ownOverloads
  ownExtensions := alike.ownExtensions

theorem defineFunction (alike : scope.Alike free scope') (isFree : free name) (type : FnTy) :
    (scope.defineFunction name type).Alike free (scope'.defineFunction name type) where
  lookup := alike.lookup
  lookupType := alike.lookupType
  overloads other := by
    by_cases same : name = other
    · subst same
      rw [overloads_defineFunction, overloads_defineFunction, alike.ownOverloads name isFree,
        alike.nextOverload, alike.outerOverloads isFree]
    · rw [overloads_defineFunction_of_ne _ _ same, overloads_defineFunction_of_ne _ _ same,
        alike.overloads]
  extensions := alike.extensions
  ownOverloads other otherFree := by
    simp only [Scope.defineFunction, Frame.overloads_addOverload, alike.nextOverload,
      alike.ownOverloads name isFree, alike.ownOverloads other otherFree]
  ownExtensions := alike.ownExtensions

/-- An extension is found as a function, and among the extensions behind those of its frame. -/
theorem defineExtension (alike : scope.Alike free scope') (isFree : free name) (type : FnTy) :
    (scope.defineExtension name type).Alike free (scope'.defineExtension name type) where
  lookup := alike.lookup
  lookupType := alike.lookupType
  overloads := (alike.defineFunction isFree type).overloads
  extensions other := by
    by_cases same : name = other
    · subst same
      rw [extensionOverloads_defineExtension, extensionOverloads_defineExtension,
        alike.ownExtensions name isFree, alike.nextOverload, alike.outerExtensions isFree]
    · rw [extensionOverloads_defineExtension_of_ne same,
        extensionOverloads_defineExtension_of_ne same, alike.extensions]
  ownOverloads := (alike.defineFunction isFree type).ownOverloads
  ownExtensions other otherFree := by
    have own (scope : Scope) : (scope.defineExtension name type).current.extensionOverloads other =
        if name = other then
          scope.current.extensionOverloads name ++ [scope.nextOverload name type]
        else scope.current.extensionOverloads other :=
      Frame.extensionOverloads_addExtension
    rw [own, own, alike.nextOverload, alike.ownExtensions name isFree,
      alike.ownExtensions other otherFree]

theorem defineFunctions (alike : scope.Alike free scope') (isFree : free name)
    (types : List FnTy) :
    (types.foldl (fun scope type => scope.defineFunction name type) scope).Alike free
      (types.foldl (fun scope type => scope.defineFunction name type) scope') := by
  induction types generalizing scope scope' with
  | nil => exact alike
  | cons type rest ih => exact ih (alike.defineFunction isFree type)

theorem defineType (alike : scope.Alike free scope') (isFree : free name) (type : Ty) :
    (scope.defineType name type).Alike free (scope'.defineType name type) := by
  have defined := alike.defineFunctions isFree (functionsOf type)
  exact {
    lookup := defined.lookup
    lookupType := fun other => by
      rw [lookupType_defineType, lookupType_defineType, alike.lookupType]
    overloads := defined.overloads
    extensions := defined.extensions
    ownOverloads := defined.ownOverloads
    ownExtensions := defined.ownExtensions }

theorem extensions_eq (alike : scope.Alike free scope') (receiver : Ty) :
    scope'.extensions receiver name = scope.extensions receiver name := by
  have all := alike.extensions name
  rw [extensionOverloads, extensionOverloads] at all
  rw [Scope.extensions, Scope.extensions, all]

end Alike

/-- The extension overloads of a frame are among its overloads. -/
def Frame.Listed (frame : Frame) : Prop :=
  ∀ name, frame.extensionOverloads name ⊆ frame.overloads name

/-- Every frame of the scope lists its extensions. -/
def Listed (scope : Scope) : Prop := ∀ frame ∈ scope.frames, frame.Listed

section Listed

variable {scope : Scope} {name : String}

theorem Frame.listed_empty : Frame.empty.Listed := fun _ => List.Subset.refl _

theorem Frame.Listed.addOverload {frame : Frame} (listed : frame.Listed) {overload : Overload} :
    (frame.addOverload name overload).Listed := by
  intro other
  rw [Frame.overloads_addOverload]
  refine List.Subset.trans (listed other) ?_
  split
  · rename_i same
    subst same
    exact List.subset_append_left _ _
  · exact List.Subset.refl _

theorem Frame.Listed.addExtension {frame : Frame} (listed : frame.Listed) {overload : Overload} :
    ((frame.addOverload name overload).addExtension name overload).Listed := by
  intro other found mem
  rw [Frame.extensionOverloads_addExtension] at mem
  change found ∈ (frame.addOverload name overload).overloads other
  split at mem
  · rename_i same
    subst same
    rcases List.mem_append.mp mem with old | new
    · exact listed.addOverload name old
    · rw [Frame.overloads_addOverload, if_pos rfl]
      exact List.mem_append_right _ new
  · exact listed.addOverload other mem

theorem Listed.current (listed : scope.Listed) : scope.current.Listed :=
  listed _ List.mem_cons_self

/-- A change of the innermost frame alone. -/
theorem Listed.withCurrent (listed : scope.Listed) {frame : Frame} (changed : frame.Listed) :
    Listed ⟨frame, scope.outer⟩ :=
  List.forall_mem_cons.mpr ⟨changed, (List.forall_mem_cons.mp listed).2⟩

theorem Listed.defineType (listed : scope.Listed) {type : Ty} :
    (scope.defineType name type).Listed := by
  have defined (types : List FnTy) :
      (types.foldl (fun scope type => scope.defineFunction name type) scope).Listed := by
    induction types generalizing scope with
    | nil => exact listed
    | cons type rest ih => exact ih (listed.withCurrent listed.current.addOverload)
  exact (defined _).withCurrent (defined _).current

theorem listed_defineTypes (types : List ClassTy) (listed : scope.Listed) :
    (types.foldl (fun scope type => scope.defineType type.render (.cls type)) scope).Listed := by
  induction types generalizing scope with
  | nil => exact listed
  | cons type rest ih => exact ih listed.defineType

theorem Reachable.listed (reachable : Reachable scope) : scope.Listed := by
  have start : Scope.empty.Listed := List.forall_mem_singleton.mpr Frame.listed_empty
  induction reachable with
  | empty => exact start
  | builtins =>
    have types := listed_defineTypes ClassTy.builtins start
    exact types.withCurrent types.current
  | push _ ih => exact List.forall_mem_cons.mpr ⟨Frame.listed_empty, ih⟩
  | @pop scope _ ih =>
    obtain ⟨current, outer⟩ := scope
    cases outer with
    | nil => exact ih
    | cons frame rest => exact (List.forall_mem_cons.mp ih).2
  | define _ _ _ ih => exact ih.withCurrent ih.current
  | defineType _ _ _ ih => exact ih.defineType
  | defineFunction _ _ _ ih => exact ih.withCurrent ih.current.addOverload
  | defineExtension _ _ _ ih => exact ih.withCurrent ih.current.addExtension

/-- A name without visible overloads has no visible extension either. -/
theorem Listed.extensionOverloads_eq_nil (listed : scope.Listed)
    (unused : scope.overloads name = []) : scope.extensionOverloads name = [] := by
  rw [overloads, List.flatMap_eq_nil_iff] at unused
  rw [extensionOverloads, List.flatMap_eq_nil_iff]
  intro frame mem
  have subset := listed frame mem name
  rw [unused frame mem] at subset
  exact List.subset_nil.mp subset

end Listed

/-- A new frame leaves every answer as it was, and all names without overloads are free in it. -/
theorem alike_push {scope : Scope} (reachable : Reachable scope) :
    scope.Alike (fun name => scope.overloads name = []) scope.push where
  lookup _ := lookup_push
  lookupType _ := lookupType_push
  overloads _ := overloads_push
  extensions _ := extensionOverloads_push
  ownOverloads name unused := by
    rw [overloads_eq_append, List.append_eq_nil_iff] at unused
    exact unused.1.symm
  ownExtensions name unused := by
    have none := reachable.listed.extensionOverloads_eq_nil unused
    rw [extensionOverloads_eq_append, List.append_eq_nil_iff] at none
    exact none.1.symm

end ScriptCore.Scope
