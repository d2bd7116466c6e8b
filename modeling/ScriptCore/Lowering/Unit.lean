import ScriptCore.Attempt
import ScriptCore.Lowering.Typing
import ScriptCore.Node.Return

/-!
# Lowering

Lowering turns the source trees of one unit into nodes. Declarations enter the scope as
they are met, so that later statements see earlier ones; blocks, loops, branches and
function bodies have frames of their own, which are left again also when lowering fails.

A function enters the scope before its body is lowered and can call itself. A function
whose result is not `Unit` must contain a return; an extension function without one gets a
synthetic return at its end.
-/
namespace ScriptCore

namespace Lowering

/-- The scope, and the id of the next declaration. -/
structure State where
  scope : Scope
  nextId : Nat

end Lowering

/-- A step of lowering. A failure leaves the scope as it was reached. -/
abbrev Lower (α : Type) := Attempt Lowering.State CompileError α

namespace Lowering

def fail {α : Type} (cause : CompileError.Cause) (line : Line) : Lower α :=
  Attempt.fail ⟨cause, line⟩

/-- Consult the scope. -/
def inScope {α : Type} (query : Scope → Except CompileError α) : Lower α := fun s =>
  (query s.scope, s)

def changeScope (change : Scope → Scope) : Lower Unit := fun s =>
  (.ok (), { s with scope := change s.scope })

/-- An id that no other declaration has. -/
def freshId : Lower Nat := fun s => (.ok s.nextId, { s with nextId := s.nextId + 1 })

/-- Run a step in a frame of its own. -/
def inFrame {α : Type} (step : Lower α) : Lower α := fun s =>
  match step { s with scope := s.scope.push } with
  | (result, s') => (result, { s' with scope := s'.scope.pop })

/-- Define the parameters of a function as variables. -/
def defineParameters (parameters : Parameters) : Lower Unit :=
  changeScope fun scope =>
    parameters.foldl (fun scope parameter => scope.define parameter.1 parameter.2) scope

/-- Add a function to the scope and give its indexed name. -/
def declareFunction (name : String) (type : FnTy) : Lower String := do
  let overload ← inScope fun scope => .ok (scope.nextOverload name type)
  changeScope fun scope =>
    if type.receiver.isSome then scope.defineExtension name type
    else scope.defineFunction name type
  return overload.name

/-- The return at the end of an extension function that has none. -/
def syntheticReturn : Node :=
  .returns ⟨.unit, .synthetic⟩ (.literal ⟨.unit, .synthetic⟩ .unit)

/-- A body with a result other than `Unit` must contain a return. -/
def requireReturn (name : String) (line : Line) (result : Ty) (body : List Node) :
    Except CompileError Unit :=
  if result = .unit || Node.anyContainsReturn body then .ok ()
  else .error ⟨.missingReturn name, line⟩

/-- The body of a named function, with a return at its end where an extension lacks one. -/
def completeBody (name : String) (line : Line) (type : FnTy) (body : List Node) :
    Except CompileError (List Node) := do
  requireReturn name line type.result body
  return if type.receiver.isSome && !Node.anyContainsReturn body then body ++ [syntheticReturn]
    else body

/-- A function that the host supplies. -/
def lowerNative (line : Line) (name : String) (signature : Signature) : Lower Node := do
  let type ← inScope (·.resolveFunctionType line none signature)
  let indexed ← declareFunction name type
  let id ← freshId
  return .native ⟨.fn type, line⟩ ⟨id, indexed, name, type, line⟩

/-- A record declares a class type whose one constructor takes the fields in order. -/
def lowerRecord (line : Line) (name : String) (fields : List (String × String)) : Lower Node := do
  if name.isEmpty then fail .classMissingName line
  else
    let fields ← inScope (·.resolveParameters line [] fields)
    let type : Ty := .cls ⟨some name, fields, [fields]⟩
    changeScope (·.defineType name type)
    return .record ⟨type, line⟩ ⟨name, fields, line⟩

/-- Declare a variable. A type that is given must accept the value and is then the type of the
variable; without one it has the type of the value. -/
def lowerBinding (line : Line) (mutability : Mutability) (name : String)
    (typeName : Option String) (value : Node) : Lower Node := do
  let type ← inScope fun scope =>
    match typeName with
    | none => .ok value.type
    | some given => do
      let declared ← scope.resolveType line given
      Typing.expectNode declared value
      return declared
  changeScope (·.define name type)
  return .bind ⟨type, line⟩ mutability name value

mutual

/-- Lower an expression inside a function with the result type `returned`, if any. -/
def lowerExpr (returned : Option Ty) : Expr → Lower Node
  | .literal line value => return .literal ⟨value.type, line⟩ value
  | .name line name => inScope (·.resolveName line name)
  | .this line => inScope fun scope => .ok (.this ⟨scope.receiverType, line⟩)
  | .group _ inner => lowerExpr returned inner
  | .assign line name value => do
    let expected ← inScope (·.resolveVariable line name)
    let value ← lowerExpr returned value
    Attempt.ofExcept (Typing.assign line name expected value)
  | .unary line op right => do
    let right ← lowerExpr returned right
    Attempt.ofExcept (Typing.unary line op right)
  | .binary line op left right => do
    let left ← lowerExpr returned left
    let right ← lowerExpr returned right
    Attempt.ofExcept (Typing.binary line op left right)
  | .logical line op left right => do
    let left ← lowerExpr returned left
    let right ← lowerExpr returned right
    Attempt.ofExcept (Typing.logical line op left right)
  | .get line receiver name => do
    let receiver ← lowerExpr returned receiver
    let type ← Attempt.ofExcept (Typing.fieldType receiver.type name line)
    return .get ⟨type, line⟩ receiver name
  | .set line receiver name value => do
    let receiver ← lowerExpr returned receiver
    let expected ← Attempt.ofExcept (Typing.fieldType receiver.type name line)
    let value ← lowerExpr returned value
    Attempt.ofExcept (Typing.setField line receiver name expected value)
  | .call line (.get _ receiver name) arguments => do
    let receiver ← lowerExpr returned receiver
    let arguments ← lowerExprs returned arguments
    let callee ← inScope
      (·.resolveMethod line receiver.type name ((receiver :: arguments).map Node.type))
    Attempt.ofExcept (Typing.call line callee (receiver :: arguments))
  | .call line (.name calleeLine name) arguments => do
    let arguments ← lowerExprs returned arguments
    let callee ← inScope (·.resolveCallee calleeLine name (arguments.map Node.type))
    Attempt.ofExcept (Typing.call line callee arguments)
  | .call line callee arguments => do
    let arguments ← lowerExprs returned arguments
    let callee ← lowerExpr returned callee
    let callee ← Attempt.ofExcept (Callee.ofNode callee)
    Attempt.ofExcept (Typing.call line callee arguments)
  | .branch line condition whenTrue whenFalse => do
    let condition ← lowerExpr returned condition
    Attempt.ofExcept (Typing.expectNode .boolean condition)
    let whenTrue ← inFrame (lowerStmts returned whenTrue)
    let whenFalse ← inFrame (lowerStmts returned whenFalse)
    Attempt.ofExcept (Typing.branch line condition whenTrue whenFalse)
  | .function line receiver name signature body => do
    let receiver ← inScope (·.resolveReceiver line receiver)
    let type ← inScope (·.resolveFunctionType line receiver signature)
    let indexed ← declareFunction name type
    let id ← freshId
    let body ← inFrame do
      defineParameters type.parameters
      lowerStmts (some type.result) body
    let body ← Attempt.ofExcept (completeBody name line type body)
    return .function ⟨.fn type, line⟩ ⟨id, indexed, name, type, line⟩ body
  | .anonymous line signature body => do
    let type ← inScope (·.resolveFunctionType line none signature)
    let id ← freshId
    let body ← inFrame do
      defineParameters type.parameters
      lowerStmts (some type.result) body
    Attempt.ofExcept (requireReturn "<anonymous>" line type.result body)
    return .anonymous ⟨.fn type, line⟩ ⟨id, type, line⟩ body
  | .native line name signature => lowerNative line name signature

/-- Lower expressions from left to right. -/
def lowerExprs (returned : Option Ty) : List Expr → Lower (List Node)
  | [] => return []
  | expr :: rest => do
    let node ← lowerExpr returned expr
    let nodes ← lowerExprs returned rest
    return node :: nodes

/-- Lower a statement inside a function with the result type `returned`, if any. -/
def lowerStmt (returned : Option Ty) : Stmt → Lower Node
  | .expr value => lowerExpr returned value
  | .block line body => do
    let body ← inFrame (lowerStmts returned body)
    return .block ⟨.unit, line⟩ body
  | .loop line condition body => do
    let condition ← lowerExpr returned condition
    Attempt.ofExcept (Typing.expectNode .boolean condition)
    let body ← inFrame (lowerStmts returned body)
    return .loop ⟨.unit, line⟩ condition body
  | .returns line value => do
    let value ← lowerExpr returned value
    Attempt.ofExcept (Typing.returns line returned value)
  | .bind line mutability name typeName value => do
    let value ← lowerExpr returned value
    lowerBinding line mutability name typeName value
  | .useModule line name => return .useModule ⟨.unit, line⟩ name
  | .openModule line name => return .openModule ⟨.unit, line⟩ name
  | .record line name fields => lowerRecord line name fields

/-- Lower statements in order. -/
def lowerStmts (returned : Option Ty) : List Stmt → Lower (List Node)
  | [] => return []
  | stmt :: rest => do
    let node ← lowerStmt returned stmt
    let nodes ← lowerStmts returned rest
    return node :: nodes

end

/-- Lower the statements of a unit, outside of any function. -/
def lowerUnit (unit : List Stmt) : Lower (List Node) := lowerStmts none unit

end Lowering

end ScriptCore
