import ScriptCore.Machine
import ScriptCore.Ty.Overload

/-!
# Builtins

The bootstrap prepares a global scope: it makes an object of each builtin class, puts the
constructors of the class under their indexed names, and binds `Unit`. A class without
constructors gets one that takes nothing.
-/
namespace ScriptCore.Builtin

/-- The classes that exist at run time, in the order in which they are made. -/
def classes : List ClassTy := [.string, .int, .double, .boolean, .unit]

/-- The types of the constructors of a class at run time. -/
def constructorTypes (type : ClassTy) : List FnTy :=
  match type.constructorTypes with
  | [] => [⟨[], .cls type, none⟩]
  | types => types

/-- Declare constructors of a class, from the one at `index` on. -/
def declareConstructors (global : Location) (made : ClassTy) (index : Nat) :
    List FnTy → Eval (List Callable)
  | [] => return []
  | type :: rest => do
    let stamp ← Eval.freshStamp
    let name := overloadName made.render index
    let callable : Callable := .constructor ⟨stamp, name, type, made⟩
    Eval.declareFunction global name callable
    let callables ← declareConstructors global made (index + 1) rest
    return callable :: callables

/-- Make the object of a class and declare its constructors. -/
def materialize (global : Location) (type : ClassTy) : Eval ClassObject := do
  let stamp ← Eval.freshStamp
  let constructors ← declareConstructors global type 0 (constructorTypes type)
  return ⟨stamp, type, constructors, .empty⟩

def materializeAll (global : Location) : List ClassTy → Eval (Table ClassObject)
  | [] => return .empty
  | type :: rest => do
    let object ← materialize global type
    let others ← materializeAll global rest
    return ⟨(type.render, object) :: others.entries⟩

/-- Prepare a global scope. A scope that has been prepared before refuses a second `Unit`. -/
def bootstrap (global : Location) : Eval (Table ClassObject) := do
  let objects ← materializeAll global classes
  Eval.declare global "Unit" .unit .immutable
  return objects

end ScriptCore.Builtin
