import ScriptCore.Table
import ScriptCore.Ty.Overload

/-!
# Scopes

A scope is a stack of frames with at least one frame. Each frame has tables of its own for
types, variables, functions and extension functions, and a name is looked up from the
innermost frame outwards.

Overloads of one name add up along the stack: a new overload takes the number of those
already visible as its index, so that its indexed name differs from all of theirs.
-/
namespace ScriptCore

namespace Scope

structure Frame where
  types : Table Ty
  vars : Table Ty
  functions : Table (List Overload)
  /-- The extension functions among `functions`, by their plain names. -/
  extensions : Table (List Overload)

namespace Frame

def empty : Frame := ⟨.empty, .empty, .empty, .empty⟩

/-- The overloads of a name in this frame, in the order of declaration. -/
def overloads (frame : Frame) (name : String) : List Overload :=
  (frame.functions.get? name).getD []

/-- The extension overloads of a name in this frame, in the order of declaration. -/
def extensionOverloads (frame : Frame) (name : String) : List Overload :=
  (frame.extensions.get? name).getD []

/-- Whether the frame has a type, a variable or a function of this name. -/
def containsName (frame : Frame) (name : String) : Bool :=
  frame.types.contains name || frame.vars.contains name || frame.functions.contains name

def defineVariable (frame : Frame) (name : String) (type : Ty) : Frame :=
  { frame with vars := frame.vars.insert name type }

def defineType (frame : Frame) (name : String) (type : Ty) : Frame :=
  { frame with types := frame.types.insert name type }

/-- Put an overload behind those of its name. -/
def addOverload (frame : Frame) (name : String) (overload : Overload) : Frame :=
  { frame with functions := frame.functions.insert name (frame.overloads name ++ [overload]) }

/-- Put an extension overload behind those of its name. -/
def addExtension (frame : Frame) (name : String) (overload : Overload) : Frame :=
  let known := frame.extensionOverloads name
  { frame with extensions := frame.extensions.insert name (known ++ [overload]) }

end Frame

end Scope

/-- The innermost frame, and the frames around it from the inside out. -/
structure Scope where
  current : Scope.Frame
  outer : List Scope.Frame

/-- A name that no frame of a scope defines. -/
inductive ScopeError
  | unresolvedVariable (name : String)
  | unresolvedType (name : String)
  deriving DecidableEq

def ScopeError.message : ScopeError → String
  | unresolvedVariable name => "variable " ++ name ++ " not found"
  | unresolvedType name => "type " ++ name ++ " not found"

/-- The name of the kind of error. -/
def ScopeError.kind : ScopeError → String
  | unresolvedVariable _ => "UnresolvedVariable"
  | unresolvedType _ => "UnresolvedType"

namespace Scope

/-- A scope with a single frame that defines nothing. -/
def empty : Scope := ⟨.empty, []⟩

/-- The frames of the scope, innermost first. -/
def frames (scope : Scope) : List Frame := scope.current :: scope.outer

def depth (scope : Scope) : Nat := scope.frames.length

def push (scope : Scope) : Scope := ⟨.empty, scope.frames⟩

/-- Leave the innermost frame. The outermost frame is never left. -/
def pop (scope : Scope) : Scope :=
  match scope.outer with
  | [] => scope
  | frame :: rest => ⟨frame, rest⟩

def lookup (scope : Scope) (name : String) : Except ScopeError Ty :=
  match scope.frames.findSome? (·.vars.get? name) with
  | some type => .ok type
  | none => .error (.unresolvedVariable name)

def lookupType (scope : Scope) (name : String) : Except ScopeError Ty :=
  match scope.frames.findSome? (·.types.get? name) with
  | some type => .ok type
  | none => .error (.unresolvedType name)

/-- The visible overloads of a name: inner frames first, and inside a frame in the order
of declaration. -/
def overloads (scope : Scope) (name : String) : List Overload :=
  scope.frames.flatMap (·.overloads name)

/-- The visible extension overloads of a name whose receiver is exactly `receiver`, in the
order of `overloads`. -/
def extensions (scope : Scope) (receiver : Ty) (name : String) : List Overload :=
  (scope.frames.flatMap (·.extensionOverloads name)).filter (·.type.receiver = some receiver)

/-- Whether the innermost frame defines this name. -/
def containsName (scope : Scope) (name : String) : Bool := scope.current.containsName name

/-- Define a variable in the innermost frame; a variable of that name there is replaced. -/
def define (scope : Scope) (name : String) (type : Ty) : Scope :=
  ⟨scope.current.defineVariable name type, scope.outer⟩

/-- The index that the next overload of a name takes. -/
def nextIndex (scope : Scope) (name : String) : Nat := (scope.overloads name).length

/-- The next overload of a name. -/
def nextOverload (scope : Scope) (name : String) (type : FnTy) : Overload :=
  ⟨overloadName name (scope.nextIndex name), type⟩

/-- Add an overload to the innermost frame. -/
def defineFunction (scope : Scope) (name : String) (type : FnTy) : Scope :=
  ⟨scope.current.addOverload name (scope.nextOverload name type), scope.outer⟩

/-- Add an overload that is also found as an extension of its receiver. -/
def defineExtension (scope : Scope) (name : String) (type : FnTy) : Scope :=
  let overload := scope.nextOverload name type
  ⟨(scope.current.addOverload name overload).addExtension name overload, scope.outer⟩

/-- The functions that a type brings with it: itself, or the constructors of a class. -/
def functionsOf : Ty → List FnTy
  | .fn type => [type]
  | .cls type => type.constructorTypes

/-- Define a type in the innermost frame, with its functions as overloads of its name. -/
def defineType (scope : Scope) (name : String) (type : Ty) : Scope :=
  let defined := (functionsOf type).foldl (fun scope fn => scope.defineFunction name fn) scope
  ⟨defined.current.defineType name type, defined.outer⟩

/-- The scope of a fresh session: the builtin types, and `Unit` as a variable. -/
def builtins : Scope :=
  (ClassTy.builtins.foldl (fun scope type => scope.defineType type.render (.cls type))
    empty).define "Unit" .unit

theorem lookup_push {scope : Scope} {name : String} : scope.push.lookup name = scope.lookup name :=
  rfl

theorem lookupType_push {scope : Scope} {name : String} :
    scope.push.lookupType name = scope.lookupType name := rfl

theorem overloads_push {scope : Scope} {name : String} :
    scope.push.overloads name = scope.overloads name := rfl

theorem lookup_define {scope : Scope} {name other : String} {type : Ty} :
    (scope.define name type).lookup other =
      if name = other then .ok type else scope.lookup other := by
  by_cases same : name = other
  · simp [lookup, define, frames, Frame.defineVariable, same]
  · have kept : (scope.define name type).frames.findSome? (·.vars.get? other) =
        scope.frames.findSome? (·.vars.get? other) := by
      simp only [define, frames, Frame.defineVariable, List.findSome?_cons,
        Table.get?_insert_of_ne _ _ same]
    rw [if_neg same, lookup, kept, lookup]

theorem lookupType_defineFunctions {scope : Scope} {name other : String} (types : List FnTy) :
    (types.foldl (fun scope type => scope.defineFunction name type) scope).lookupType other =
      scope.lookupType other := by
  induction types generalizing scope with
  | nil => rfl
  | cons type rest ih => exact ih

theorem lookupType_defineType {scope : Scope} {name other : String} {type : Ty} :
    (scope.defineType name type).lookupType other =
      if name = other then .ok type else scope.lookupType other := by
  have before : ((functionsOf type).foldl (fun scope fn => scope.defineFunction name fn)
      scope).lookupType other = scope.lookupType other := lookupType_defineFunctions _
  rw [defineType, ← before]
  generalize (functionsOf type).foldl (fun scope fn => scope.defineFunction name fn) scope = defined
  by_cases same : name = other
  · simp [lookupType, frames, Frame.defineType, same]
  · have kept : (defined.current.defineType name type).types.get? other =
        defined.current.types.get? other :=
      Table.get?_insert_of_ne _ _ same
    simp only [lookupType, frames, List.findSome?_cons, kept, if_neg same]

theorem overloads_defineFunction (scope : Scope) (name : String) (type : FnTy) :
    (scope.defineFunction name type).overloads name =
      scope.current.overloads name ++ [scope.nextOverload name type] ++
        scope.outer.flatMap (·.overloads name) := by
  simp [overloads, frames, defineFunction, Frame.addOverload, Frame.overloads]

theorem overloads_defineFunction_of_ne (scope : Scope) {name other : String} (type : FnTy)
    (h : name ≠ other) :
    (scope.defineFunction name type).overloads other = scope.overloads other := by
  simp [overloads, frames, defineFunction, Frame.addOverload, Frame.overloads,
    Table.get?_insert_of_ne _ _ h]

end Scope

end ScriptCore
