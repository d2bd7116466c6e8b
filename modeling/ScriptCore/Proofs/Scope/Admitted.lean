import ScriptCore.Proofs.Lowering.Rules
import ScriptCore.Proofs.Node.Parts
import ScriptCore.Proofs.Node.Typed

/-!
# What a scope offers

A scope is admitted when everything in it is declared: each of its variables and functions, and
the classes of each of its types. Resolution in such a scope gives declared names back, and
function types whose parameters have different names.
-/
namespace ScriptCore

/-- The one constructor of a string. -/
def stringConstructor : FnTy := ⟨[("any", .any)], .string, none⟩

namespace Declarations

/-- The functions that are there from the start and that a scope knows of: the constructors of a
string. No restriction on other names. -/
def builtin : Declarations where
  vars _ _ := True
  functions name type := (∃ index, name = overloadName "String" index) ∧ type = stringConstructor
  hosts _ := False
  classes _ := True

/-- The variables, functions and classes that every program starts with. -/
structure HasBuiltins (declared : Declarations) : Prop where
  unit : declared.vars "Unit" .unit
  string : ∀ index, declared.functions (overloadName "String" index)
    ⟨[("any", .any)], .string, none⟩
  classes : ∀ type ∈ ClassTy.builtins, declared.classes type

theorem hasBuiltins_any : any.HasBuiltins := ⟨trivial, fun _ => trivial, fun _ _ => trivial⟩

theorem hasBuiltins_builtin : builtin.HasBuiltins :=
  ⟨trivial, fun index => ⟨⟨index, rfl⟩, rfl⟩, fun _ _ => trivial⟩

/-- Whether what the node itself declares is declared. -/
def Admits (declared : Declarations) : Node → Prop
  | .bind tag _ name _ => declared.vars name tag.type
  | .function _ header _ =>
    declared.functions header.name header.type ∧
      ∀ parameter ∈ header.type.parameters, declared.vars parameter.1 parameter.2
  | .anonymous _ header _ =>
    ∀ parameter ∈ header.type.parameters, declared.vars parameter.1 parameter.2
  | .native _ header => declared.functions header.name header.type ∧ declared.hosts header.type
  | .record tag header =>
    declared.classes ⟨some header.name, header.fields, [header.fields]⟩ ∧
      ∀ index, declared.functions (overloadName header.name index)
        ⟨header.fields, tag.type, none⟩
  | _ => True

/-- Whether all that a body declares, at any depth, is declared. -/
def AdmitsAll (declared : Declarations) (body : List Node) : Prop :=
  ∀ node ∈ Node.all body, declared.Admits node

theorem admits_any (node : Node) : any.Admits node := by
  cases node <;> simp [Admits, any]

variable {declared : Declarations}

theorem admitsAll_any (body : List Node) : any.AdmitsAll body := fun node _ => admits_any node

theorem admitsAll_cons {node : Node} {rest : List Node} :
    declared.AdmitsAll (node :: rest) ↔ declared.AdmitsAll [node] ∧ declared.AdmitsAll rest :=
  Node.forall_all_cons

theorem admitsAll_append {first second : List Node} :
    declared.AdmitsAll (first ++ second) ↔
      declared.AdmitsAll first ∧ declared.AdmitsAll second :=
  Node.forall_all_append

theorem admitsAll_singleton {node : Node} :
    declared.AdmitsAll [node] ↔ declared.Admits node ∧ declared.AdmitsAll node.parts :=
  Node.forall_all_singleton

end Declarations

theorem ClassTy.fields_of_builtin {type : ClassTy} (known : type ∈ builtins) : type.fields = [] := by
  simp only [builtins, List.mem_cons, List.not_mem_nil, or_false] at known
  rcases known with rfl | rfl | rfl | rfl | rfl | rfl <;> rfl

/-- The builtin classes have no fields whose classes could be others. -/
theorem Ty.within_of_builtin {classes : ClassTy → Prop}
    (builtins : ∀ type ∈ ClassTy.builtins, classes type) {type : ClassTy}
    (known : type ∈ ClassTy.builtins) : Ty.Within classes (.cls type) := by
  refine .cls (builtins type known) ?_
  simp [ClassTy.fields_of_builtin known]

namespace Scope

/-- A function that is declared, under its indexed name. -/
def OverloadAdmitted (declared : Declarations) (overload : Overload) : Prop :=
  declared.functions overload.name overload.type ∧
    Ty.Within declared.classes (.fn overload.type)

namespace Frame

structure Admitted (declared : Declarations) (frame : Frame) : Prop where
  types : ∀ name type, frame.types.get? name = some type → type.Within declared.classes
  vars : ∀ name type, frame.vars.get? name = some type →
    declared.vars name type ∧ type.Within declared.classes
  functions : ∀ name, ∀ overload ∈ frame.overloads name, OverloadAdmitted declared overload
  extensions : ∀ name, ∀ overload ∈ frame.extensionOverloads name,
    OverloadAdmitted declared overload

variable {declared : Declarations} {frame : Frame} {name : String}

theorem admitted_empty : empty.Admitted declared where
  types := nofun
  vars := nofun
  functions := nofun
  extensions := nofun

theorem Admitted.defineVariable (admitted : frame.Admitted declared) {type : Ty}
    (known : declared.vars name type) (within : type.Within declared.classes) :
    (frame.defineVariable name type).Admitted declared where
  types := admitted.types
  vars := by
    intro other found get
    rw [Frame.defineVariable, Table.get?_insert] at get
    split at get
    · rename_i same
      obtain rfl : type = found := by simpa using get
      exact same ▸ ⟨known, within⟩
    · exact admitted.vars other found get
  functions := admitted.functions
  extensions := admitted.extensions

theorem Admitted.defineType (admitted : frame.Admitted declared) {type : Ty}
    (within : type.Within declared.classes) :
    (frame.defineType name type).Admitted declared where
  types := by
    intro other found get
    rw [Frame.defineType, Table.get?_insert] at get
    split at get
    · obtain rfl : type = found := by simpa using get
      exact within
    · exact admitted.types other found get
  vars := admitted.vars
  functions := admitted.functions
  extensions := admitted.extensions

theorem overloads_addOverload {other : String} {overload : Overload} :
    (frame.addOverload name overload).overloads other =
      if name = other then frame.overloads name ++ [overload] else frame.overloads other := by
  simp only [Frame.addOverload, Frame.overloads, Table.get?_insert]
  split <;> simp

theorem extensionOverloads_addExtension {other : String} {overload : Overload} :
    (frame.addExtension name overload).extensionOverloads other =
      if name = other then frame.extensionOverloads name ++ [overload]
      else frame.extensionOverloads other := by
  simp only [Frame.addExtension, Frame.extensionOverloads, Table.get?_insert]
  split <;> simp

theorem Admitted.addOverload (admitted : frame.Admitted declared) {overload : Overload}
    (known : OverloadAdmitted declared overload) :
    (frame.addOverload name overload).Admitted declared where
  types := admitted.types
  vars := admitted.vars
  functions := by
    intro other found mem
    rw [overloads_addOverload] at mem
    split at mem
    · rcases List.mem_append.mp mem with old | new
      · exact admitted.functions name found old
      · rwa [List.mem_singleton.mp new]
    · exact admitted.functions other found mem
  extensions := admitted.extensions

theorem Admitted.addExtension (admitted : frame.Admitted declared) {overload : Overload}
    (known : OverloadAdmitted declared overload) :
    (frame.addExtension name overload).Admitted declared where
  types := admitted.types
  vars := admitted.vars
  functions := admitted.functions
  extensions := by
    intro other found mem
    rw [extensionOverloads_addExtension] at mem
    split at mem
    · rcases List.mem_append.mp mem with old | new
      · exact admitted.extensions name found old
      · rwa [List.mem_singleton.mp new]
    · exact admitted.extensions other found mem

end Frame

/-- Every frame of the scope offers declared names alone. -/
def Admitted (declared : Declarations) (scope : Scope) : Prop :=
  ∀ frame ∈ scope.frames, frame.Admitted declared

section Changes

variable {declared : Declarations} {scope : Scope} {name : String}

theorem Admitted.current (admitted : scope.Admitted declared) :
    scope.current.Admitted declared :=
  admitted _ List.mem_cons_self

/-- A change of the innermost frame alone. -/
theorem Admitted.withCurrent (admitted : scope.Admitted declared) {frame : Frame}
    (changed : frame.Admitted declared) : Admitted declared ⟨frame, scope.outer⟩ := by
  intro other mem
  rcases List.mem_cons.mp mem with rfl | old
  · exact changed
  · exact admitted other (List.mem_cons_of_mem _ old)

theorem Admitted.push (admitted : scope.Admitted declared) : scope.push.Admitted declared := by
  intro frame mem
  rcases List.mem_cons.mp mem with rfl | old
  · exact Frame.admitted_empty
  · exact admitted frame old

theorem Admitted.pop (admitted : scope.Admitted declared) : scope.pop.Admitted declared := by
  intro frame mem
  apply admitted
  obtain ⟨current, outer⟩ := scope
  cases outer with
  | nil => exact mem
  | cons next rest => exact List.mem_cons_of_mem _ mem

theorem Admitted.define (admitted : scope.Admitted declared) {type : Ty}
    (known : declared.vars name type) (within : type.Within declared.classes) :
    (scope.define name type).Admitted declared :=
  admitted.withCurrent (admitted.current.defineVariable known within)

theorem Admitted.defineFunction (admitted : scope.Admitted declared) {type : FnTy}
    (known : OverloadAdmitted declared (scope.nextOverload name type)) :
    (scope.defineFunction name type).Admitted declared :=
  admitted.withCurrent (admitted.current.addOverload known)

theorem Admitted.defineExtension (admitted : scope.Admitted declared) {type : FnTy}
    (known : OverloadAdmitted declared (scope.nextOverload name type)) :
    (scope.defineExtension name type).Admitted declared :=
  admitted.withCurrent ((admitted.current.addOverload known).addExtension known)

theorem Admitted.defineFunctions {types : List FnTy}
    (known : ∀ type ∈ types, ∀ index, OverloadAdmitted declared ⟨overloadName name index, type⟩)
    (admitted : scope.Admitted declared) :
    (types.foldl (fun scope type => scope.defineFunction name type) scope).Admitted declared := by
  induction types generalizing scope with
  | nil => exact admitted
  | cons type rest ih =>
    refine ih (fun other mem => known other (List.mem_cons_of_mem _ mem)) ?_
    exact admitted.defineFunction (known type List.mem_cons_self _)

theorem Admitted.defineType (admitted : scope.Admitted declared) {type : Ty}
    (within : type.Within declared.classes)
    (known : ∀ fn ∈ functionsOf type, ∀ index,
      OverloadAdmitted declared ⟨overloadName name index, fn⟩) :
    (scope.defineType name type).Admitted declared :=
  have defined := admitted.defineFunctions known
  defined.withCurrent (defined.current.defineType within)

theorem Admitted.defineVariables {parameters : Parameters}
    (known : ∀ parameter ∈ parameters, declared.vars parameter.1 parameter.2 ∧
      parameter.2.Within declared.classes)
    (admitted : scope.Admitted declared) :
    (parameters.foldl (fun scope parameter => scope.define parameter.1 parameter.2)
      scope).Admitted declared := by
  induction parameters generalizing scope with
  | nil => exact admitted
  | cons parameter rest ih =>
    obtain ⟨head, tail⟩ := List.forall_mem_cons.mp known
    exact ih tail (admitted.define head.1 head.2)

end Changes

section Resolution

variable {declared : Declarations} {scope : Scope} {line : Line} {name : String}

theorem Admitted.of_lookup (admitted : scope.Admitted declared) {type : Ty}
    (found : scope.lookup name = .ok type) :
    declared.vars name type ∧ type.Within declared.classes := by
  rw [lookup_eq_ok] at found
  obtain ⟨frame, mem, get⟩ := List.exists_of_findSome?_eq_some found
  exact (admitted frame mem).vars name type get

theorem Admitted.of_resolveVariable (admitted : scope.Admitted declared) {type : Ty}
    (found : scope.resolveVariable line name = .ok type) :
    declared.vars name type ∧ type.Within declared.classes :=
  admitted.of_lookup (lookup_eq_ok.mpr (resolveVariable_eq_ok.mp found))

theorem Admitted.of_resolveType (admitted : scope.Admitted declared) {type : Ty}
    (found : scope.resolveType line name = .ok type) : type.Within declared.classes := by
  rw [resolveType_eq_ok] at found
  obtain ⟨frame, mem, get⟩ := List.exists_of_findSome?_eq_some found
  exact (admitted frame mem).types name type get

theorem Admitted.of_overloads (admitted : scope.Admitted declared) {overload : Overload}
    (mem : overload ∈ scope.overloads name) : OverloadAdmitted declared overload := by
  obtain ⟨frame, inScope, inFrame⟩ := List.mem_flatMap.mp mem
  exact (admitted frame inScope).functions name overload inFrame

theorem Admitted.of_extensions (admitted : scope.Admitted declared) {receiver : Ty}
    {overload : Overload} (mem : overload ∈ scope.extensions receiver name) :
    OverloadAdmitted declared overload := by
  obtain ⟨frame, inScope, inFrame⟩ := List.mem_flatMap.mp (List.mem_filter.mp mem).1
  exact (admitted frame inScope).extensions name overload inFrame

/-- A name that is not yet among the parameters is behind them as well. -/
theorem names_nodup_append {known : Parameters} {type : Ty}
    (distinct : (Parameters.names known).Nodup) (new : Parameters.contains known name = false) :
    (Parameters.names (known ++ [(name, type)])).Nodup := by
  have absent : name ∉ Parameters.names known := by
    intro mem
    obtain ⟨parameter, there, same⟩ := List.mem_map.mp mem
    simp only [Parameters.contains, Parameters.get?, Option.isSome_map, Option.isSome_eq_false_iff,
      Option.isNone_iff_eq_none, List.find?_eq_none] at new
    exact new parameter there (by simpa using same)
  rw [Parameters.names, List.map_append]
  exact List.nodup_append.mpr ⟨distinct, by simp, by
    intro other mem _ last
    obtain rfl : _ = name := by simpa using last
    rintro rfl
    exact absent mem⟩

/-- Resolved parameters have different names. -/
theorem Admitted.of_resolveParameters (admitted : scope.Admitted declared)
    {given : List (String × String)} {known resolved : Parameters}
    (distinct : (Parameters.names known).Nodup)
    (within : ∀ parameter ∈ known, parameter.2.Within declared.classes)
    (found : scope.resolveParameters line known given = .ok resolved) :
    (Parameters.names resolved).Nodup ∧
      ∀ parameter ∈ resolved, parameter.2.Within declared.classes := by
  induction given generalizing known with
  | nil =>
    obtain rfl : known = resolved := by simpa [resolveParameters] using found
    exact ⟨distinct, within⟩
  | cons first rest ih =>
    obtain ⟨name, typeName⟩ := first
    rw [resolveParameters] at found
    split at found
    · cases found
    · rename_i new
      obtain ⟨type, resolvedType, found⟩ := except_bind_eq_ok.mp found
      refine ih (names_nodup_append distinct (by simpa using new)) ?_ found
      intro parameter mem
      rcases List.mem_append.mp mem with old | last
      · exact within parameter old
      · rw [List.mem_singleton.mp last]
        exact admitted.of_resolveType resolvedType

theorem Admitted.of_resolveResult (admitted : scope.Admitted declared)
    (builtins : ∀ type ∈ ClassTy.builtins, declared.classes type) {given : Option String} {type : Ty}
    (found : scope.resolveResult line given = .ok type) : type.Within declared.classes := by
  cases given with
  | none =>
    obtain rfl : Ty.unit = type := by simpa [resolveResult] using found
    exact Ty.within_of_builtin builtins (by decide)
  | some name => exact admitted.of_resolveType found

theorem Admitted.of_resolveReceiver (admitted : scope.Admitted declared) {given : Option String}
    {receiver : Option Ty} (found : scope.resolveReceiver line given = .ok receiver) :
    ∀ type, receiver = some type → type.Within declared.classes := by
  rintro type rfl
  rcases resolveReceiver_eq_ok.mp found with ⟨-, impossible⟩ | ⟨name, _, -, resolved, same⟩
  · cases impossible
  · cases same
    exact admitted.of_resolveType resolved

theorem Admitted.of_resolveFunctionType (admitted : scope.Admitted declared)
    (builtins : ∀ type ∈ ClassTy.builtins, declared.classes type) {receiver : Option Ty}
    {signature : Signature} {type : FnTy}
    (received : ∀ owner, receiver = some owner → owner.Within declared.classes)
    (found : scope.resolveFunctionType line receiver signature = .ok type) :
    Ty.Within declared.classes (.fn type) := by
  obtain ⟨parameters, result, resolved, resolvedResult, rfl⟩ :=
    resolveFunctionType_eq_ok.mp found
  obtain ⟨distinct, within⟩ := admitted.of_resolveParameters
    (by cases receiver <;> simp [receiverParameters, Parameters.names])
    (by cases receiver <;> simp_all [receiverParameters]) resolved
  exact .fn distinct within (admitted.of_resolveResult builtins resolvedResult)

end Resolution

/-- The scope of a fresh session has the builtin classes, `Unit` and the constructor of a string. -/
theorem frames_builtins : builtins.frames =
    [⟨⟨[("Any", .any), ("String", .string), ("Int", .int), ("Double", .double),
        ("Boolean", .boolean), ("Unit", .unit)]⟩,
      ⟨[("Unit", .unit)]⟩, ⟨[("String", [⟨overloadName "String" 0, stringConstructor⟩])]⟩,
      .empty⟩] := rfl

theorem builtin_of_frames {table : Table Ty} (mem : table ∈ builtins.frames.map (·.types))
    {name : String} {type : Ty} (found : table.get? name = some type) :
    ∃ made ∈ ClassTy.builtins, type = .cls made := by
  rw [frames_builtins] at mem
  obtain rfl := List.mem_singleton.mp mem
  have entry := Table.mem_of_get? found
  simp only [List.mem_cons, Prod.mk.injEq, List.not_mem_nil, or_false] at entry
  rcases entry with ⟨-, rfl⟩ | ⟨-, rfl⟩ | ⟨-, rfl⟩ | ⟨-, rfl⟩ | ⟨-, rfl⟩ | ⟨-, rfl⟩ <;>
    exact ⟨_, by decide, rfl⟩

theorem overload_of_frames {frame : Frame} (mem : frame ∈ builtins.frames) {name : String}
    {overload : Overload} (declares : overload ∈ frame.overloads name) :
    overload = ⟨overloadName "String" 0, stringConstructor⟩ := by
  rw [frames_builtins] at mem
  obtain rfl := List.mem_singleton.mp mem
  rw [Frame.overloads] at declares
  cases found : (⟨[("String", [⟨overloadName "String" 0, stringConstructor⟩])]⟩ :
      Table (List Overload)).get? name with
  | none =>
    rw [found] at declares
    cases declares
  | some overloads =>
    obtain ⟨-, rfl⟩ := Prod.mk.inj (List.mem_singleton.mp (Table.mem_of_get? found))
    rw [found] at declares
    exact List.mem_singleton.mp declares

theorem admitted_builtins_of {declared : Declarations}
    (classes : ∀ type ∈ ClassTy.builtins, declared.classes type)
    (unit : declared.vars "Unit" .unit)
    (string : declared.functions (overloadName "String" 0) stringConstructor) :
    builtins.Admitted declared := by
  intro frame mem
  refine ⟨fun name type found => ?_, ?_, fun name overload declares => ?_, ?_⟩
  · obtain ⟨made, known, rfl⟩ := builtin_of_frames (List.mem_map_of_mem mem) found
    exact Ty.within_of_builtin classes known
  · rw [frames_builtins, List.mem_singleton] at mem
    subst mem
    intro name type found
    obtain ⟨rfl, rfl⟩ := Prod.mk.inj (List.mem_singleton.mp (Table.mem_of_get? found))
    exact ⟨unit, Ty.within_of_builtin classes (by decide)⟩
  · obtain rfl := overload_of_frames mem declares
    have any : Ty.any.Within declared.classes := Ty.within_of_builtin classes (by decide)
    refine ⟨string, .fn ?_ ?_ (Ty.within_of_builtin classes (by decide))⟩
    · simp [stringConstructor, Parameters.names]
    · exact List.forall_mem_singleton.mpr any
  · rw [frames_builtins, List.mem_singleton] at mem
    subst mem
    intro name overload declares
    cases declares

/-- The scope of a fresh session offers the builtins alone. -/
theorem admitted_builtins {declared : Declarations} (builtins : declared.HasBuiltins) :
    Scope.builtins.Admitted declared :=
  admitted_builtins_of builtins.classes builtins.unit (builtins.string 0)

end Scope

end ScriptCore
