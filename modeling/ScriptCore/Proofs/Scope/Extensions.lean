import ScriptCore.Proofs.Lowering.Rules
import ScriptCore.Proofs.Scope.Admitted

/-!
# The extensions of a scope

A frame knows each of its extension functions twice: among all overloads of the name, and among the
extension overloads that a call of a method looks at. In a mirrored scope the second table has
exactly the overloads with a receiver of the first one, in the same order, so what is found for a
receiver is what filtering the visible overloads finds.
-/
namespace ScriptCore

/-- An extension function takes its receiver as its first parameter, under the name `this`. -/
def FnTy.TakesReceiver (type : FnTy) : Prop :=
  ∀ receiver, type.receiver = some receiver → type.parameters.head? = some ("this", receiver)

namespace Scope

section Signatures

variable {scope : Scope} {line : Line}

theorem head?_of_resolveParameters {known resolved : Parameters} {given : List (String × String)}
    {first : String × Ty} (found : scope.resolveParameters line known given = .ok resolved)
    (head : known.head? = some first) : resolved.head? = some first := by
  induction given generalizing known with
  | nil =>
    obtain rfl : known = resolved := by simpa [resolveParameters] using found
    exact head
  | cons parameter rest ih =>
    rw [resolveParameters] at found
    split at found
    · cases found
    · obtain ⟨type, _, found⟩ := except_bind_eq_ok.mp found
      exact ih found (by simp [List.head?_append, head])

theorem takesReceiver_of_resolveFunctionType {receiver : Option Ty} {signature : Signature}
    {type : FnTy} (found : scope.resolveFunctionType line receiver signature = .ok type) :
    type.TakesReceiver := by
  obtain ⟨parameters, result, resolved, _, rfl⟩ := resolveFunctionType_eq_ok.mp found
  rintro given rfl
  exact head?_of_resolveParameters resolved rfl

end Signatures

namespace Frame

/-- The extension overloads are the overloads with a receiver, and take it. -/
structure Mirrored (frame : Frame) : Prop where
  filtered : ∀ name,
    frame.extensionOverloads name = (frame.overloads name).filter (·.type.receiver.isSome)
  takes : ∀ name, ∀ overload ∈ frame.extensionOverloads name, overload.type.TakesReceiver

variable {frame : Frame} {name : String} {overload : Overload}

theorem mirrored_empty : empty.Mirrored := ⟨fun _ => rfl, nofun⟩

theorem Mirrored.defineVariable (mirrored : frame.Mirrored) {type : Ty} :
    (frame.defineVariable name type).Mirrored :=
  ⟨mirrored.filtered, mirrored.takes⟩

theorem Mirrored.defineType (mirrored : frame.Mirrored) {type : Ty} :
    (frame.defineType name type).Mirrored :=
  ⟨mirrored.filtered, mirrored.takes⟩

/-- A function without a receiver is no extension. -/
theorem Mirrored.addOverload (mirrored : frame.Mirrored)
    (plain : overload.type.receiver = none) : (frame.addOverload name overload).Mirrored where
  filtered other := by
    rw [overloads_addOverload]
    refine (mirrored.filtered other).trans ?_
    split
    · rename_i same
      subst same
      simp [plain]
    · rfl
  takes := mirrored.takes

/-- A function with a receiver goes behind the others in both tables. -/
theorem Mirrored.addExtension (mirrored : frame.Mirrored) (given : overload.type.receiver.isSome)
    (takes : overload.type.TakesReceiver) :
    ((frame.addOverload name overload).addExtension name overload).Mirrored := by
  have extensions (other : String) :
      ((frame.addOverload name overload).addExtension name overload).extensionOverloads other =
        if name = other then frame.extensionOverloads name ++ [overload]
        else frame.extensionOverloads other :=
    extensionOverloads_addExtension
  constructor
  · intro other
    refine (extensions other).trans (.trans ?_ (congrArg _ overloads_addOverload.symm))
    split
    · rw [List.filter_append, ← mirrored.filtered, List.filter_singleton, given]
      rfl
    · exact mirrored.filtered other
  · intro other found mem
    rw [extensions] at mem
    split at mem
    · rcases List.mem_append.mp mem with old | new
      · exact mirrored.takes name found old
      · rwa [List.mem_singleton.mp new]
    · exact mirrored.takes other found mem

end Frame

/-- Every frame of the scope is mirrored. -/
def Mirrored (scope : Scope) : Prop := ∀ frame ∈ scope.frames, frame.Mirrored

section Changes

variable {scope : Scope} {name : String}

/-- A change of the innermost frame alone. -/
theorem Mirrored.withCurrent (mirrored : scope.Mirrored) {frame : Frame}
    (changed : frame.Mirrored) : Mirrored ⟨frame, scope.outer⟩ :=
  List.forall_mem_cons.mpr ⟨changed, (List.forall_mem_cons.mp mirrored).2⟩

theorem Mirrored.current (mirrored : scope.Mirrored) : scope.current.Mirrored :=
  mirrored _ List.mem_cons_self

theorem Mirrored.push (mirrored : scope.Mirrored) : scope.push.Mirrored :=
  List.forall_mem_cons.mpr ⟨Frame.mirrored_empty, mirrored⟩

theorem Mirrored.pop (mirrored : scope.Mirrored) : scope.pop.Mirrored := by
  obtain ⟨current, outer⟩ := scope
  cases outer with
  | nil => exact mirrored
  | cons next rest => exact (List.forall_mem_cons.mp mirrored).2

theorem Mirrored.define (mirrored : scope.Mirrored) {type : Ty} :
    (scope.define name type).Mirrored :=
  mirrored.withCurrent mirrored.current.defineVariable

theorem Mirrored.defineFunction (mirrored : scope.Mirrored) {type : FnTy}
    (plain : type.receiver = none) : (scope.defineFunction name type).Mirrored :=
  mirrored.withCurrent (mirrored.current.addOverload plain)

theorem Mirrored.defineExtension (mirrored : scope.Mirrored) {type : FnTy}
    (given : type.receiver.isSome) (takes : type.TakesReceiver) :
    (scope.defineExtension name type).Mirrored :=
  mirrored.withCurrent (mirrored.current.addExtension given takes)

theorem Mirrored.defineFunctions {types : List FnTy}
    (plain : ∀ type ∈ types, type.receiver = none) (mirrored : scope.Mirrored) :
    (types.foldl (fun scope type => scope.defineFunction name type) scope).Mirrored := by
  induction types generalizing scope with
  | nil => exact mirrored
  | cons type rest ih =>
    obtain ⟨head, tail⟩ := List.forall_mem_cons.mp plain
    exact ih tail (mirrored.defineFunction head)

/-- A class brings constructors with it, and no extension. -/
theorem Mirrored.defineClass (mirrored : scope.Mirrored) (type : ClassTy) :
    (scope.defineType name (.cls type)).Mirrored := by
  have plain : ∀ fn ∈ functionsOf (.cls type), fn.receiver = none := by
    intro fn mem
    obtain ⟨parameters, -, rfl⟩ := List.mem_map.mp mem
    rfl
  have defined : ((functionsOf (.cls type)).foldl
      (fun scope fn => scope.defineFunction name fn) scope).Mirrored :=
    mirrored.defineFunctions plain
  exact defined.withCurrent defined.current.defineType

end Changes

theorem mirrored_builtins : Scope.builtins.Mirrored := by
  have classes : ∀ (types : List ClassTy) (scope : Scope), scope.Mirrored →
      (types.foldl (fun scope type => scope.defineType type.render (.cls type))
        scope).Mirrored := by
    intro types
    induction types with
    | nil => exact fun _ mirrored => mirrored
    | cons type rest ih => exact fun scope mirrored => ih _ (mirrored.defineClass type)
  refine (classes _ _ ?_).define
  exact List.forall_mem_singleton.mpr Frame.mirrored_empty

/-- The overloads with a receiver of all frames, and among them those of one receiver. -/
theorem Mirrored.extensions_eq {scope : Scope} (mirrored : scope.Mirrored) (receiver : Ty)
    (name : String) : scope.extensions receiver name =
      (scope.overloads name).filter (·.type.receiver = some receiver) := by
  rw [extensions, overloads, List.filter_flatMap, List.filter_flatMap]
  apply List.flatMap_congr
  intro frame mem
  rw [(mirrored frame mem).filtered, List.filter_filter]
  apply List.filter_congr
  intro overload _
  cases overload.type.receiver <;> simp

theorem Mirrored.takes {scope : Scope} (mirrored : scope.Mirrored) {receiver : Ty} {name : String}
    {overload : Overload} (found : overload ∈ scope.extensions receiver name) :
    overload.type.parameters.head? = some ("this", receiver) := by
  obtain ⟨visible, exact⟩ := List.mem_filter.mp found
  obtain ⟨frame, mem, known⟩ := List.mem_flatMap.mp visible
  exact (mirrored frame mem).takes name overload known receiver (of_decide_eq_true exact)

end Scope

end ScriptCore
