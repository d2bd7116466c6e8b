import ScriptCore.Lowering.Resolution
import ScriptCore.Ty.OfLiteral

/-!
# Typing rules

The static type of each kind of node, from the nodes below it. Arithmetic on two numbers is
a `Double`, and `+` with a string on its left is a `String`. Operands are checked after both
of them have been lowered.
-/
namespace ScriptCore.Typing

/-- Fail unless `expected` accepts `found`. -/
def expectAccepts (expected found : Ty) (line : Line) : Except CompileError Unit :=
  if expected.accepts found then .ok () else .error (.unexpected expected.render found line)

/-- Fail unless `expected` accepts the value of the node. -/
def expectNode (expected : Ty) (node : Node) : Except CompileError Unit :=
  expectAccepts expected node.type node.line

/-- The error for an operand that is not a number: the left one, unless it is one. -/
def operandMismatch (left right : Ty) (line : Line) : CompileError :=
  .unexpected "Int or Double" (if left.isNumber then right else left) line

/-- The type of a binary operation on operands of these types. -/
def binaryType (op : BinaryOp) (left right : Ty) (line : Line) : Except CompileError Ty :=
  let numbers := left.isNumber && right.isNumber
  if op.isArithmetic then
    if numbers then .ok .double
    else if op = .add && Ty.string.accepts left then .ok .string
    else .error (operandMismatch left right line)
  else if op.isComparison then
    if numbers then .ok .boolean else .error (operandMismatch left right line)
  else if left.accepts right || right.accepts left then .ok .boolean
  else .error (.unexpected left.render right line)

def binary (line : Line) (op : BinaryOp) (left right : Node) : Except CompileError Node := do
  let type ← binaryType op left.type right.type line
  return .binary ⟨type, line⟩ op left right

def logical (line : Line) (op : LogicalOp) (left right : Node) : Except CompileError Node := do
  expectNode .boolean left
  expectNode .boolean right
  return .logical ⟨.boolean, line⟩ op left right

def unary (line : Line) (op : UnaryOp) (right : Node) : Except CompileError Node :=
  match op with
  | .not => do
    expectNode .boolean right
    return .unary ⟨.boolean, line⟩ .not right
  | .neg =>
    if right.type.isNumber then .ok (.unary ⟨right.type, line⟩ .neg right)
    else .error (.unexpected "Int or Double" right.type right.line)

/-- The type of a field of a class. -/
def fieldType (receiver : Ty) (name : String) (line : Line) : Except CompileError Ty :=
  match receiver.asClass?.bind fun type => Parameters.get? type.fields name with
  | some type => .ok type
  | none => .error ⟨.unresolvedVariable name, line⟩

def assign (line : Line) (name : String) (expected : Ty) (value : Node) :
    Except CompileError Node := do
  expectNode expected value
  return .assign ⟨expected, line⟩ name value

def setField (line : Line) (receiver : Node) (name : String) (expected : Ty) (value : Node) :
    Except CompileError Node := do
  expectNode expected value
  return .set ⟨.unit, line⟩ receiver name value

/-- A branch has a value only if both of its bodies end with an expression. The type of the
first body must then accept that of the second. -/
def branchType (whenTrue whenFalse : List Node) (line : Line) : Except CompileError Ty :=
  match Node.valueType? whenTrue, Node.valueType? whenFalse with
  | some type, some other => do
    expectAccepts type other ((whenFalse.getLast?.map Node.line).getD line)
    return type
  | _, _ => .ok .unit

def branch (line : Line) (condition : Node) (whenTrue whenFalse : List Node) :
    Except CompileError Node := do
  let type ← branchType whenTrue whenFalse line
  return .branch ⟨type, line⟩ condition whenTrue whenFalse

/-- Each parameter accepts the argument in its place, as far as both go. -/
def checkArguments : List Ty → List Node → Except CompileError Unit
  | parameter :: parameters, argument :: arguments => do
    expectNode parameter argument
    checkArguments parameters arguments
  | _, _ => .ok ()

/-- Key each argument by its parameter. There must be as many arguments as parameters. -/
def keyArguments (line : Line) (parameters : List String) (arguments : List Node) :
    Except CompileError (List (String × Node)) :=
  if arguments.length < parameters.length then
    .error ⟨.unresolvedParameter arguments.length, line⟩
  else if parameters.length < arguments.length then
    .error ⟨.unresolvedParameter parameters.length, line⟩
  else .ok (parameters.zip arguments)

/-- A call has the result type of its callee. -/
def call (line : Line) (callee : Callee) (arguments : List Node) : Except CompileError Node := do
  checkArguments (Parameters.types callee.type.parameters) arguments
  let keyed ← keyArguments line (Parameters.names callee.type.parameters) arguments
  return .call ⟨callee.type.result, line⟩ callee.node keyed

/-- A return must fit the innermost function around it; outside of functions anything may
be returned. -/
def returns (line : Line) (expected : Option Ty) (value : Node) : Except CompileError Node := do
  match expected with
  | some type => expectNode type value
  | none => .ok ()
  return .returns ⟨value.type, line⟩ value

end ScriptCore.Typing
