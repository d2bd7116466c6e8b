import ScriptCore.Proofs.Scope.Admitted

/-!
# Scopes that are only added to

A scope extends another one when it has the same frames around its innermost frame, and that frame
has lost nothing: no name of a type or of a variable, and no overload. New overloads of a name go
behind the old ones, so an overload that was visible is visible under the same indexed name.
-/
namespace ScriptCore.Scope

namespace Frame

/-- What a frame keeps while it is added to. A type or a variable may be defined anew. -/
structure Extends (old new : Frame) : Prop where
  types : ∀ name, old.types.contains name = true → new.types.contains name = true
  vars : ∀ name, old.vars.contains name = true → new.vars.contains name = true
  overloads : ∀ name, old.overloads name <+: new.overloads name
  extensionOverloads : ∀ name, old.extensionOverloads name <+: new.extensionOverloads name

variable {old middle new frame : Frame} {name : String}

theorem Extends.refl (frame : Frame) : frame.Extends frame :=
  ⟨fun _ h => h, fun _ h => h, fun _ => List.prefix_rfl, fun _ => List.prefix_rfl⟩

theorem Extends.trans (first : old.Extends middle) (second : middle.Extends new) :
    old.Extends new where
  types name h := second.types name (first.types name h)
  vars name h := second.vars name (first.vars name h)
  overloads name := (first.overloads name).trans (second.overloads name)
  extensionOverloads name := (first.extensionOverloads name).trans (second.extensionOverloads name)

theorem contains_insert {α : Type} {table : Table α} {other : String} {value : α}
    (h : table.contains other = true) : (table.insert name value).contains other = true := by
  rw [Table.contains, Table.get?_insert]
  by_cases same : name = other
  · simp [same]
  · simpa [same, Table.contains] using h

theorem extends_defineVariable {type : Ty} : frame.Extends (frame.defineVariable name type) :=
  { Extends.refl frame with vars := fun _ h => contains_insert h }

theorem extends_defineType {type : Ty} : frame.Extends (frame.defineType name type) :=
  { Extends.refl frame with types := fun _ h => contains_insert h }

theorem extends_addOverload {overload : Overload} :
    frame.Extends (frame.addOverload name overload) := by
  refine { Extends.refl frame with overloads := fun other => ?_ }
  rw [overloads_addOverload]
  by_cases same : name = other
  · subst same
    simp
  · simp [same]

theorem extends_addExtension {overload : Overload} :
    frame.Extends (frame.addExtension name overload) := by
  refine { Extends.refl frame with extensionOverloads := fun other => ?_ }
  rw [extensionOverloads_addExtension]
  by_cases same : name = other
  · subst same
    simp
  · simp [same]

end Frame

/-- The frames around the innermost one are the same, and the innermost one is added to. -/
structure Extends (old new : Scope) : Prop where
  outer : new.outer = old.outer
  current : old.current.Extends new.current

variable {old middle new scope : Scope} {name : String}

theorem Extends.refl (scope : Scope) : scope.Extends scope := ⟨rfl, .refl _⟩

theorem Extends.trans (first : old.Extends middle) (second : middle.Extends new) :
    old.Extends new :=
  ⟨second.outer.trans first.outer, first.current.trans second.current⟩

theorem Extends.depth_eq (h : old.Extends new) : new.depth = old.depth := by
  simp [depth, frames, h.outer]

/-- A scope that extends one with a new frame can be left for the scope from before. -/
theorem Extends.pop_eq (h : scope.push.Extends new) : new.pop = scope := by
  rw [pop, h.outer]
  rfl

theorem Extends.overloads_sublist (h : old.Extends new) (name : String) :
    (old.overloads name).Sublist (new.overloads name) := by
  simp only [overloads, frames, List.flatMap_cons, h.outer]
  exact (h.current.overloads name).sublist.append_right _

theorem Extends.extensions_sublist (h : old.Extends new) (receiver : Ty) (name : String) :
    (old.extensions receiver name).Sublist (new.extensions receiver name) := by
  apply List.Sublist.filter
  simp only [frames, List.flatMap_cons, h.outer]
  exact (h.current.extensionOverloads name).sublist.append_right _

theorem extends_define {type : Ty} : scope.Extends (scope.define name type) :=
  ⟨rfl, Frame.extends_defineVariable⟩

theorem extends_defineFunction {type : FnTy} : scope.Extends (scope.defineFunction name type) :=
  ⟨rfl, Frame.extends_addOverload⟩

theorem extends_defineExtension {type : FnTy} : scope.Extends (scope.defineExtension name type) :=
  ⟨rfl, Frame.extends_addOverload.trans Frame.extends_addExtension⟩

theorem extends_defineFunctions (types : List FnTy) :
    scope.Extends (types.foldl (fun scope type => scope.defineFunction name type) scope) := by
  induction types generalizing scope with
  | nil => exact .refl scope
  | cons type rest ih => exact extends_defineFunction.trans ih

/-- The constructors of a class come in behind the overloads of its name. -/
theorem extends_defineType {type : Ty} : scope.Extends (scope.defineType name type) :=
  (extends_defineFunctions (functionsOf type)).trans ⟨rfl, Frame.extends_defineType⟩

end ScriptCore.Scope
