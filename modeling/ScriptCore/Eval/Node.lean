import ScriptCore.Eval.Operators
import ScriptCore.Machine

/-!
# Evaluation of nodes

`evaluate` gives the value of a node in a scope. Blocks, iterations, branches and
invocations open scopes of their own. A return stops evaluation with its value until the
innermost invocation catches it.

A value that is needed later keeps its scopes while other nodes are evaluated: the left
operand during the right one, the callee and the arguments during a call, the last value of a
body during the next node, and the values of a unit during the rest of it.

The fuel bounds how deep evaluation goes and how often one loop runs; `step` says what a
node does in terms of an evaluator for the nodes below it.
-/
namespace ScriptCore

namespace Eval

/-- An evaluator of nodes in scopes. -/
abbrev Evaluator := Node → Location → Eval Value

/-- The last value of a body, or `last` for an empty one. -/
def sequence (evaluator : Evaluator) (env : Location) (last : Value) : List Node → Eval Value
  | [] => return last
  | node :: rest => do
    let value ← holding last.kept (evaluator node env)
    sequence evaluator env value rest

/-- Evaluate a body for what it does. -/
def runBody (evaluator : Evaluator) (env : Location) : List Node → Eval Unit
  | [] => return ()
  | node :: rest => do
    let _ ← evaluator node env
    runBody evaluator env rest

/-- Evaluate arguments from left to right. -/
def evaluateArguments (evaluator : Evaluator) (env : Location) :
    List (String × Node) → Eval Arguments
  | [] => return []
  | (name, node) :: rest => do
    let value ← evaluator node env
    let values ← holding value.kept (evaluateArguments evaluator env rest)
    return (name, value) :: values

/-- The truth of a condition; the error for any other value is on the condition's line. -/
def testCondition (evaluator : Evaluator) (condition : Node) (env : Location) : Eval Bool := do
  let value ← evaluator condition env
  onLine condition.line (ask fun _ => value.truth)

/-- Run a loop at most `rounds` times, each round in a scope of its own. -/
def runLoop (evaluator : Evaluator) (line : Line) (condition : Node) (body : List Node)
    (env : Location) : (rounds : Nat) → Eval Value
  | 0 => Attempt.fail .exhausted
  | rounds + 1 => do
    if ← testCondition evaluator condition env then
      let _ ← inScope env ⟨"while", line⟩ fun scope => sequence evaluator scope .unit body
      runLoop evaluator line condition body env rounds
    else
      return .unit

/-- Bind arguments under their names. They cannot be assigned. -/
def bindArguments (scope : Location) : Arguments → Eval Unit
  | [] => return ()
  | (name, value) :: rest => do
    declare scope name value .immutable
    bindArguments scope rest

/-- Run a function of the host. Its result travels like that of a return. -/
def callHost (native : NativeFn) (site : Node) (arguments : Arguments) (scope : Location) :
    Eval Unit := do
  let value ← native site arguments scope
  Attempt.fail (.returned value)

/-- The value that a builtin constructor makes: a string is the text of the argument, any
other class gives a bare instance. -/
def construct (made : ClassTy) (arguments : Arguments) : Value :=
  if made = .string then .string (Arguments.firstDisplay arguments) else .object made

end Eval

namespace Interpreter

/-- Run the host's function of this name. -/
def callNative (natives : Table NativeFn) (name : String) (site : Node) (arguments : Arguments)
    (scope : Location) : Eval Unit :=
  match natives.get? name with
  | some native => Eval.callHost native site arguments scope
  | none => Eval.fault (.undefinedFunction name)

/-- Invoke a callable from `env`. Named functions and functions of the host run in a child of
`env`, a closure runs in a child of the scope that created it. The functions of the host are those
of its registry, of which nothing is known here, and the constructors of the builtin classes, which
do nothing but construct: no other function is made by a host at run time. -/
def invokeWith (interpreter : Interpreter) (evaluator : Eval.Evaluator) (callable : Callable)
    (site : Node) (arguments : Arguments) (env : Location) : Eval Value :=
  let callSite : CallSite := ⟨"call " ++ callable.name, site.line⟩
  match callable with
  | .function header body =>
    Eval.inScope env callSite fun scope => do
      Eval.bindArguments scope arguments
      Eval.catchReturn header.name site.line scope (Eval.runBody evaluator scope body)
  | .closure _ body captured =>
    Eval.inScope captured callSite fun scope => do
      Eval.bindArguments scope arguments
      Eval.catchReturn callable.name site.line scope (Eval.runBody evaluator scope body)
  | .native header =>
    Eval.inScope env callSite fun scope =>
      Eval.catchReturn header.name site.line scope
        (callNative interpreter.natives header.hostName site arguments scope)
  | .constructor header =>
    Eval.inScope env callSite fun scope =>
      Eval.catchReturn header.name site.line scope
        (Attempt.fail (.returned (Eval.construct header.made arguments)))

/-- What a call invokes. A name is looked up before the arguments are evaluated. -/
def evaluateCallee (evaluator : Eval.Evaluator) (callee : Node) (env : Location) : Eval Value :=
  match callee with
  | .readFunction _ name => do
    let callable ← Eval.lookupFunction env name
    return .callable callable
  | .readVariable _ name => Eval.lookup env name
  | other => evaluator other env

def evaluateCall (interpreter : Interpreter) (evaluator : Eval.Evaluator) (site callee : Node)
    (arguments : List (String × Node)) (env : Location) : Eval Value := do
  let target ← evaluateCallee evaluator callee env
  Eval.holding target.kept do
    let values ← Eval.evaluateArguments evaluator env arguments
    match target.asCallable? with
    | some callable =>
      Eval.holding (Arguments.kept values)
        (interpreter.invokeWith evaluator callable site values env)
    | none => Eval.fault (.invalidType "a callable" target.type.render)

/-- The right operand is evaluated only if the left one leaves the result open. -/
def evaluateLogical (evaluator : Eval.Evaluator) (op : LogicalOp) (left right : Node)
    (env : Location) : Eval Value := do
  let value ← evaluator left env
  let decided ← Eval.ask fun _ => value.truth
  if Value.decides op decided then return .boolean decided
  else
    let value ← evaluator right env
    let result ← Eval.ask fun _ => value.truth
    return .boolean result

/-- What a node does, over an evaluator for the nodes below it. -/
def step (interpreter : Interpreter) (rounds : Nat) (evaluator : Eval.Evaluator) (node : Node)
    (env : Location) : Eval Value :=
  match node with
  | .literal _ value => return .ofLiteral value
  | .this _ => Eval.lookup env "this"
  | .readVariable _ name => Eval.lookup env name
  | .readFunction _ name => do
    let callable ← Eval.lookupFunction env name
    return .callable callable
  | .get _ _ name => Eval.fault (.unsupported ("get ." ++ name))
  | .set _ _ name _ => Eval.fault (.unsupported ("set ." ++ name))
  | .call _ callee arguments => interpreter.evaluateCall evaluator node callee arguments env
  | .unary _ op right => do
    let right ← evaluator right env
    Eval.ask fun _ => Value.unary op right
  | .binary _ op left right => do
    let left ← evaluator left env
    let right ← Eval.holding left.kept (evaluator right env)
    Eval.ask fun _ => Value.binary op left right
  | .logical _ op left right => evaluateLogical evaluator op left right env
  | .bind _ mutability name value => do
    let value ← evaluator value env
    Eval.declare env name value mutability
    return value
  | .assign _ name value => do
    let value ← evaluator value env
    Eval.assign env name value
    return value
  | .returns _ value => do
    let value ← evaluator value env
    Attempt.fail (.returned value)
  | .block tag body =>
    Eval.inScope env ⟨"block", tag.line⟩ fun scope => Eval.sequence evaluator scope .unit body
  | .loop tag condition body => Eval.runLoop evaluator tag.line condition body env rounds
  | .branch tag condition whenTrue whenFalse => do
    let chosen ← Eval.testCondition evaluator condition env
    Eval.inScope env ⟨"if", tag.line⟩ fun scope =>
      Eval.sequence evaluator scope .unit (if chosen then whenTrue else whenFalse)
  | .function _ header body => do
    let callable : Callable := .function header body
    Eval.declareFunction env header.name callable
    return .callable callable
  | .native _ header => do
    let callable : Callable := .native header
    Eval.declareFunction env header.name callable
    return .callable callable
  | .anonymous _ header body => return .callable (.closure header body env)
  | .record _ header => Eval.fault (.unsupported ("class " ++ header.name))
  | .openModule _ name => do
    let _ ← Eval.openModule name env
    return .unit
  | .useModule _ name => do
    let module ← Eval.openedModule name
    Eval.expand env module
    return .unit

/-- The value of a node in a scope. An error picks up the line of the innermost node and the
call sites of the innermost scope that it passes. -/
def evaluate (interpreter : Interpreter) : (fuel : Nat) → Node → Location → Eval Value
  | 0, _, _ => Attempt.fail .exhausted
  | fuel + 1, node, env =>
    Eval.located node.line env (interpreter.step fuel (evaluate interpreter fuel) node env)

/-- Invoke a callable from `env`. -/
def invoke (interpreter : Interpreter) (fuel : Nat) (callable : Callable) (site : Node)
    (arguments : Arguments) (env : Location) : Eval Value :=
  interpreter.invokeWith (interpreter.evaluate fuel) callable site arguments env

/-- Invoke a global function by its indexed name, with no call in the source. -/
def callFunction (interpreter : Interpreter) (fuel : Nat) (name : String)
    (arguments : Arguments) : Eval Value := do
  let callable ← Eval.lookupFunction interpreter.global name
  let site : Node := .readFunction ⟨callable.type.result, .synthetic⟩ name
  Eval.holding callable.kept (interpreter.invoke fuel callable site arguments interpreter.global)

/-- Evaluate the nodes of a unit one after the other. From a module statement on they are
evaluated in the scope of that module. -/
def evaluateFrom (interpreter : Interpreter) (fuel : Nat) (target : Location) :
    List Node → Eval (List Value)
  | [] => return []
  | .openModule tag name :: rest => do
    let module ← Eval.onLine tag.line (Eval.openModule name interpreter.global)
    let values ← evaluateFrom interpreter fuel module rest
    return .unit :: values
  | node :: rest => do
    let value ← Eval.uncaught node.line (interpreter.evaluate fuel node target)
    let values ← Eval.holding value.kept (evaluateFrom interpreter fuel target rest)
    return value :: values

/-- Evaluate a unit in the global scope, to the values of its nodes. -/
def evaluateUnit (interpreter : Interpreter) (fuel : Nat) (unit : List Node) :
    Eval (List Value) :=
  interpreter.evaluateFrom fuel interpreter.global unit

end Interpreter

end ScriptCore
