import ScriptCore.Proofs.Lowering.WellTyped
import ScriptCore.Proofs.Node.Resolved
import ScriptCore.Proofs.Ty.OverloadName

/-!
# Scopes and the names in sight

A context describes a scope that offers no more than what is in sight, where all types are builtin
classes. Functions in sight have indexed names that the scope counts, so the next overload of a
name takes an indexed name that no function in sight has.
-/
namespace ScriptCore

def Ty.IsBuiltin (type : Ty) : Prop := ∃ made ∈ ClassTy.builtins, type = .cls made

theorem Ty.IsBuiltin.within {type : Ty} (builtin : type.IsBuiltin) :
    type.Within (· ∈ ClassTy.builtins) := by
  obtain ⟨made, known, rfl⟩ := builtin
  exact Ty.within_of_builtin (fun _ known => known) known

namespace Context

/-- What is in sight, as declarations of variables of builtin classes and of functions with results
of builtin classes. -/
def declarations (context : Context) : Declarations where
  vars name type := .var name ∈ context ∧ type.IsBuiltin
  functions name type :=
    type.result.IsBuiltin ∧ ∃ callable, .fn name callable ∈ context ∧ callable.type = type
  hosts _ := True
  classes type := type ∈ ClassTy.builtins

structure Describes (context : Context) (scope : Scope) : Prop where
  admitted : scope.Admitted context.declarations
  types : ∀ table ∈ scope.frames.map (·.types), ∀ name type, table.get? name = some type →
    type.IsBuiltin
  indexed : ∀ name callable, .fn name callable ∈ context →
    ∃ plain index, name = overloadName plain index ∧ index < scope.nextIndex plain

section Frames

variable {context wider : Context} {scope : Scope} {name : String}

theorem admitted_mono (subset : context ⊆ wider) (admitted : scope.Admitted context.declarations) :
    scope.Admitted wider.declarations := by
  have overloads {overload : Overload}
      (known : Scope.OverloadAdmitted context.declarations overload) :
      Scope.OverloadAdmitted wider.declarations overload := by
    obtain ⟨⟨result, callable, mem, typed⟩, within⟩ := known
    exact ⟨⟨result, callable, subset mem, typed⟩, within⟩
  intro frame mem
  have known := admitted frame mem
  exact {
    types := known.types
    vars := by
      intro name type found
      obtain ⟨⟨bound, builtin⟩, within⟩ := known.vars name type found
      exact ⟨⟨subset bound, builtin⟩, within⟩
    functions := fun name overload mem => overloads (known.functions name overload mem)
    extensions := fun name overload mem => overloads (known.extensions name overload mem) }

theorem Describes.push (describes : context.Describes scope) : context.Describes scope.push where
  admitted := describes.admitted.push
  types := List.forall_mem_cons.mpr ⟨nofun, describes.types⟩
  indexed := describes.indexed

theorem Describes.define (describes : context.Describes scope) {type : Ty}
    (builtin : type.IsBuiltin) : Describes (.var name :: context) (scope.define name type) where
  admitted := by
    have before := admitted_mono (List.subset_cons_self (.var name) context) describes.admitted
    exact before.define ⟨List.mem_cons_self, builtin⟩ builtin.within
  types := describes.types
  indexed := by
    intro other callable mem
    rcases List.mem_cons.mp mem with same | older
    · cases same
    · exact describes.indexed other callable older

/-- The order of the parameters in a context does not count. -/
theorem Describes.congr {other : Context} (describes : context.Describes scope)
    (same : ∀ item, item ∈ context ↔ item ∈ other) : other.Describes scope where
  admitted := admitted_mono (fun item mem => (same item).mp mem) describes.admitted
  types := describes.types
  indexed := fun name callable mem => describes.indexed name callable ((same _).mpr mem)

theorem Describes.defineParameters {parameters : Parameters} (describes : context.Describes scope)
    (builtin : ∀ parameter ∈ parameters, parameter.2.IsBuiltin) :
    (ofParameters parameters ++ context).Describes
      (parameters.foldl (fun scope parameter => scope.define parameter.1 parameter.2) scope) := by
  induction parameters generalizing context scope with
  | nil => exact describes
  | cons parameter rest ih =>
    obtain ⟨head, tail⟩ := List.forall_mem_cons.mp builtin
    refine (ih (describes.define head) tail).congr fun item => ?_
    simp only [ofParameters, Parameters.names, List.map_cons, List.cons_append, List.mem_append,
      List.mem_cons]
    tauto

/-- A function takes an indexed name that nothing in sight has. -/
theorem Describes.fresh (describes : context.Describes scope) (type : FnTy) :
    context.Fresh (scope.nextOverload name type).name := by
  intro callable mem
  obtain ⟨plain, index, same, smaller⟩ := describes.indexed _ callable mem
  obtain ⟨rfl, rfl⟩ := overloadName_inj same
  exact Nat.lt_irrefl _ smaller

theorem nextIndex_defineFunction (scope : Scope) (name : String) (type : FnTy) (other : String) :
    scope.nextIndex other ≤ (scope.defineFunction name type).nextIndex other ∧
      scope.nextIndex name < (scope.defineFunction name type).nextIndex name := by
  have grown : (scope.defineFunction name type).nextIndex name = scope.nextIndex name + 1 := by
    rw [Scope.nextIndex, Scope.overloads_defineFunction, Scope.nextIndex, Scope.overloads,
      Scope.frames, List.flatMap_cons]
    simp only [List.length_append, List.length_singleton]
    omega
  refine ⟨?_, by omega⟩
  by_cases same : name = other
  · subst same
    omega
  · have others := Scope.overloads_defineFunction_of_ne scope type same
    exact Nat.le_of_eq (congrArg List.length others.symm)

end Frames

end Context

namespace Lowering

open Context

variable {context : Context} {s : State} {line : Line}

theorem describes_enter (describes : context.Describes s.scope) :
    context.Describes (s.enter []).scope :=
  describes.push

theorem describes_enter_parameters (describes : context.Describes s.scope) {parameters : Parameters}
    (builtin : ∀ parameter ∈ parameters, parameter.2.IsBuiltin) :
    (ofParameters parameters ++ context).Describes (s.enter parameters).scope :=
  describes.push.defineParameters builtin

theorem describes_declare (describes : context.Describes s.scope) (name : String)
    {callable : Callable} (within : Ty.Within (· ∈ ClassTy.builtins) (.fn callable.type))
    (result : callable.type.result.IsBuiltin) :
    Describes (.fn (s.scope.nextOverload name callable.type).name callable :: context)
      (s.declare name callable.type).scope where
  admitted := by
    have before := admitted_mono (List.subset_cons_self
      (.fn (s.scope.nextOverload name callable.type).name callable) context) describes.admitted
    exact admitted_declare before ⟨result, callable, List.mem_cons_self, rfl⟩ within
  types := by
    rw [State.declare]
    split <;> exact describes.types
  indexed := by
    have counts (other : String) :
        (s.declare name callable.type).scope.nextIndex other =
          (s.scope.defineFunction name callable.type).nextIndex other := by
      rw [State.declare]
      split <;> rfl
    intro other known mem
    rcases List.mem_cons.mp mem with same | older
    · cases same
      exact ⟨name, _, rfl, counts name ▸ (nextIndex_defineFunction s.scope name _ name).2⟩
    · obtain ⟨plain, index, rfl, smaller⟩ := describes.indexed other known older
      have grows := (nextIndex_defineFunction s.scope name callable.type plain).1
      exact ⟨plain, index, rfl, counts plain ▸ Nat.lt_of_lt_of_le smaller grows⟩

section Types

variable {scope : Scope} {name : String}

theorem builtin_of_resolveType (describes : context.Describes scope) {type : Ty}
    (found : scope.resolveType line name = .ok type) : type.IsBuiltin := by
  rw [Scope.resolveType_eq_ok] at found
  obtain ⟨frame, mem, get⟩ := List.exists_of_findSome?_eq_some found
  exact describes.types _ (List.mem_map_of_mem mem) name type get

theorem builtin_of_resolveResult (describes : context.Describes scope) {given : Option String}
    {type : Ty} (found : scope.resolveResult line given = .ok type) : type.IsBuiltin := by
  cases given with
  | none =>
    obtain rfl : Ty.unit = type := by simpa [Scope.resolveResult] using found
    exact ⟨.unit, by decide, rfl⟩
  | some name => exact builtin_of_resolveType describes found

/-- Parameters that are known stay. -/
theorem builtin_of_resolveParameters (describes : context.Describes scope)
    {given : List (String × String)} {known resolved : Parameters}
    (builtin : ∀ parameter ∈ known, parameter.2.IsBuiltin)
    (found : scope.resolveParameters line known given = .ok resolved) :
    known ⊆ resolved ∧ ∀ parameter ∈ resolved, parameter.2.IsBuiltin := by
  induction given generalizing known with
  | nil =>
    obtain rfl : known = resolved := by simpa [Scope.resolveParameters] using found
    exact ⟨List.Subset.refl _, builtin⟩
  | cons first rest ih =>
    obtain ⟨name, typeName⟩ := first
    rw [Scope.resolveParameters] at found
    split at found
    · cases found
    · obtain ⟨type, resolvedType, found⟩ := except_bind_eq_ok.mp found
      have more : ∀ parameter ∈ known ++ [(name, type)], parameter.2.IsBuiltin := by
        intro parameter mem
        rcases List.mem_append.mp mem with old | last
        · exact builtin parameter old
        · rw [List.mem_singleton.mp last]
          exact builtin_of_resolveType describes resolvedType
      obtain ⟨subset, all⟩ := ih more found
      exact ⟨fun parameter mem => subset (List.mem_append_left _ mem), all⟩

/-- The type of a function over builtin classes. An extension function has a parameter `this`. -/
theorem builtin_of_resolveFunctionType (describes : context.Describes scope)
    {receiverName : Option String} {receiver : Option Ty} {signature : Signature} {type : FnTy}
    (received : scope.resolveReceiver line receiverName = .ok receiver)
    (found : scope.resolveFunctionType line receiver signature = .ok type) :
    (∀ parameter ∈ type.parameters, parameter.2.IsBuiltin) ∧ type.result.IsBuiltin ∧
      Ty.Within (· ∈ ClassTy.builtins) (.fn type) ∧
        (type.receiver.isSome = true → "this" ∈ Parameters.names type.parameters) := by
  have within := describes.admitted.of_resolveFunctionType (fun _ known => known)
    (describes.admitted.of_resolveReceiver received) found
  obtain ⟨parameters, result, resolved, resolvedResult, rfl⟩ :=
    Scope.resolveFunctionType_eq_ok.mp found
  have first : ∀ parameter ∈ Scope.receiverParameters receiver, parameter.2.IsBuiltin := by
    rcases Scope.resolveReceiver_eq_ok.mp received with ⟨-, rfl⟩ | ⟨name, owner, -, known, rfl⟩
    · nofun
    · exact List.forall_mem_singleton.mpr (builtin_of_resolveType describes known)
  obtain ⟨subset, all⟩ := builtin_of_resolveParameters describes first resolved
  refine ⟨all, builtin_of_resolveResult describes resolvedResult, within, fun extension => ?_⟩
  obtain ⟨owner, rfl⟩ := Option.isSome_iff_exists.mp extension
  have this : ("this", owner) ∈ parameters := subset List.mem_cons_self
  exact List.mem_map_of_mem this

end Types

end Lowering

end ScriptCore
