import ScriptCore.Lowering.Error
import ScriptCore.Node.Basic
import ScriptCore.Scope
import ScriptCore.Source

/-!
# Resolution of names

What a name stands for in a scope: a type, the parameters of a function, a variable or a
function in value position, and the callee of a call. A call of a bare name takes the first
overload that fits, and only a name without visible overloads is taken for a variable. A
call of a method takes the first extension of exactly the receiver's type that fits.
-/
namespace ScriptCore

/-- A name of a type or a variable that a scope does not have. -/
def ScopeError.toCompileError (e : ScopeError) (line : Line) : CompileError :=
  match e with
  | unresolvedVariable name | unresolvedType name => ⟨.unresolvedVariable name, line⟩

namespace Scope

def resolveType (scope : Scope) (line : Line) (name : String) : Except CompileError Ty :=
  (scope.lookupType name).mapError (·.toCompileError line)

def resolveVariable (scope : Scope) (line : Line) (name : String) : Except CompileError Ty :=
  (scope.lookup name).mapError (·.toCompileError line)

/-- Parameters behind those already known. A name that occurs twice is refused. -/
def resolveParameters (scope : Scope) (line : Line) (known : Parameters) :
    List (String × String) → Except CompileError Parameters
  | [] => .ok known
  | (name, typeName) :: rest =>
    if Parameters.contains known name then .error ⟨.alreadyResolved name, line⟩
    else do
      let type ← scope.resolveType line typeName
      scope.resolveParameters line (known ++ [(name, type)]) rest

/-- The result type of a function that names none is `Unit`. -/
def resolveResult (scope : Scope) (line : Line) : Option String → Except CompileError Ty
  | none => .ok .unit
  | some name => scope.resolveType line name

/-- The type of a receiver, if there is one. -/
def resolveReceiver (scope : Scope) (line : Line) :
    Option String → Except CompileError (Option Ty)
  | none => .ok none
  | some name => do
    let type ← scope.resolveType line name
    return some type

/-- The first parameter of an extension function is its receiver, under the name `this`. -/
def receiverParameters : Option Ty → Parameters
  | none => []
  | some type => [("this", type)]

/-- The type of a function with this signature. -/
def resolveFunctionType (scope : Scope) (line : Line) (receiver : Option Ty)
    (signature : Signature) : Except CompileError FnTy := do
  let parameters ← scope.resolveParameters line (receiverParameters receiver)
    signature.parameters
  let result ← scope.resolveResult line signature.result
  return ⟨parameters, result, receiver⟩

/-- A bare name in value position: a variable, or else the first function of that name. -/
def resolveName (scope : Scope) (line : Line) (name : String) : Except CompileError Node :=
  match scope.lookup name with
  | .ok type => .ok (.readVariable ⟨type, line⟩ name)
  | .error e =>
    match scope.overloads name with
    | overload :: _ => .ok (.readFunction ⟨.fn overload.type, line⟩ overload.name)
    | [] => .error (e.toCompileError line)

/-- The receiver inside an extension function; elsewhere it may be anything. -/
def receiverType (scope : Scope) : Ty :=
  match scope.lookup "this" with
  | .ok type => type
  | .error _ => .any

end Scope

/-- A resolved callee: the node that denotes it and its function type. -/
structure Callee where
  node : Node
  type : FnTy

namespace Callee

def ofOverload (line : Line) (overload : Overload) : Callee :=
  ⟨.readFunction ⟨.fn overload.type, line⟩ overload.name, overload.type⟩

/-- A callee that is an expression must have a function type. -/
def ofNode (node : Node) : Except CompileError Callee :=
  match node.type.asFunction? with
  | some type => .ok ⟨node, type⟩
  | none => .error (.unexpected "a function" node.type node.line)

end Callee

namespace Scope

/-- The callee of a call of a bare name. -/
def resolveCallee (scope : Scope) (line : Line) (name : String) (arguments : List Ty) :
    Except CompileError Callee :=
  match scope.overloads name with
  | [] =>
    match scope.lookup name with
    | .ok type => Callee.ofNode (.readVariable ⟨type, line⟩ name)
    | .error _ => .error ⟨.unresolvedFunction name, line⟩
  | overloads =>
    match Overload.firstMatch? overloads arguments none with
    | some overload => .ok (.ofOverload line overload)
    | none => .error ⟨.unresolvedFunction name, line⟩

/-- The callee of a call of a method. The receiver is also the first of the arguments. -/
def resolveMethod (scope : Scope) (line : Line) (receiver : Ty) (name : String)
    (arguments : List Ty) : Except CompileError Callee :=
  match Overload.firstMatch? (scope.extensions receiver name) arguments (some receiver) with
  | some overload => .ok (.ofOverload line overload)
  | none => .error ⟨.unresolvedFunction name, line⟩

end Scope

end ScriptCore
