import ScriptCore.Node.Basic
import ScriptCore.Table
import ScriptCore.Ty.OfLiteral

/-!
# Values

What a program computes with. A native value is a scalar with a type, an object is an
instance of a class without stored fields, and a callable is something that can be invoked.

Callables are compared by identity: two are the same when they come from one declaration
and, for closures, from one scope.
-/
namespace ScriptCore

/-- The place of a scope in the store. -/
abbrev Location := Nat

/-- A constructor that the host supplies for a builtin class. The stamp tells it apart from
the constructors of any other bootstrap. These are the only functions that a host makes at run
time; whatever else a host can do is registered by name, and reached through a declaration. -/
structure BuiltinConstructor where
  stamp : Nat
  /-- The indexed name. -/
  name : String
  type : FnTy
  made : ClassTy

inductive Callable
  /-- A named function; it runs in a child of the scope that calls it. -/
  | function (header : FunctionHeader) (body : List Node)
  /-- An anonymous function; it runs in a child of the scope that created it. -/
  | closure (header : AnonymousHeader) (body : List Node) (scope : Location)
  /-- A function declared in the source and supplied by the host. -/
  | native (header : NativeHeader)
  /-- A function that the host has made at run time, which is a builtin constructor and never an
  arbitrary one. -/
  | constructor (header : BuiltinConstructor)

namespace Callable

def name : Callable → String
  | function header _ => header.name
  | closure _ _ _ => "<anonymous>"
  | native header => header.name
  | constructor header => header.name

def type : Callable → FnTy
  | function header _ => header.type
  | closure header _ _ => header.type
  | native header => header.type
  | constructor header => header.type

/-- Whether two callables come from one declaration, and closures from one scope. -/
def same : Callable → Callable → Bool
  | function a _, function b _ => a.id = b.id
  | closure a _ scope, closure b _ scope' => a.id = b.id && scope = scope'
  | native a, native b => a.id = b.id
  | constructor a, constructor b => a.stamp = b.stamp
  | _, _ => false

def inspect (callable : Callable) : String :=
  "Callable(" ++ callable.name ++ ": " ++ callable.type.render ++ ")"

end Callable

/-- A builtin class at run time. -/
structure ClassObject where
  stamp : Nat
  type : ClassTy
  constructors : List Callable
  functions : Table (List Callable)

inductive Value
  | unit
  | native (value : Scalar) (type : Ty)
  | object (type : ClassTy)
  | cls (object : ClassObject)
  | callable (callable : Callable)

namespace Value

instance : Inhabited Value := ⟨unit⟩

def ofScalar (value : Scalar) : Value := native value value.type

def ofLiteral : Literal → Value
  | .scalar value => ofScalar value
  | .unit => unit

def int (value : Int64) : Value := ofScalar (.int value)

def double (value : Float) : Value := ofScalar (.double value)

def boolean (value : Bool) : Value := ofScalar (.boolean value)

def string (value : String) : Value := ofScalar (.string value)

/-- The type of a value at run time. -/
def type : Value → Ty
  | unit => .unit
  | native _ type => type
  | object type => .cls type
  | cls c => .cls c.type
  | callable c => .fn c.type

/-- The name of the kind of value; a native value is named after its scalar. -/
def kind : Value → String
  | unit => "unit"
  | native (.int _) _ => "int"
  | native (.double _) _ => "double"
  | native (.boolean _) _ => "boolean"
  | native (.string _) _ => "string"
  | object _ => "instance"
  | cls _ => "class"
  | callable _ => "callable"

def scalar? : Value → Option Scalar
  | native value _ => some value
  | _ => none

def asInt? (value : Value) : Option Int64 :=
  match value.scalar? with
  | some (.int n) => some n
  | _ => none

def asBool? (value : Value) : Option Bool :=
  match value.scalar? with
  | some (.boolean b) => some b
  | _ => none

def asString? (value : Value) : Option String :=
  match value.scalar? with
  | some (.string s) => some s
  | _ => none

/-- A number as a double; an integer is rounded to the nearest one. -/
def asNumber? (value : Value) : Option Float :=
  match value.scalar? with
  | some (.int n) => some (Float.ofInt n.toInt)
  | some (.double x) => some x
  | _ => none

def asCallable? : Value → Option Callable
  | callable c => some c
  | _ => none

def isUnit : Value → Bool
  | unit => true
  | _ => false

/-- Native values are equal when both their scalars and their types are. Objects are equal
when their types are, classes and callables when they are the same. -/
def equals : Value → Value → Bool
  | unit, unit => true
  | native a type, native b type' => a.equals b && type = type'
  | object a, object b => a = b
  | cls a, cls b => a.stamp = b.stamp
  | callable a, callable b => a.same b
  | _, _ => false

/-- The text of a value in the output of a program. -/
def display : Value → String
  | unit => "Unit"
  | native value _ => value.display
  | object type => type.render ++ "()"
  | cls c => "class " ++ c.type.render
  | callable c => "<func " ++ c.name ++ ">"

/-- The text of a value with its type. -/
def inspect : Value → String
  | native value type => value.inspect ++ ": " ++ type.render
  | other => other.display ++ ": " ++ other.type.render

end Value

/-- Arguments under the names of their parameters, in the order of the parameters. -/
abbrev Arguments := List (String × Value)

namespace Arguments

def get? (arguments : Arguments) (name : String) : Option Value := Table.lookup arguments name

def first? (arguments : Arguments) : Option Value := arguments.head?.map Prod.snd

/-- The text of the first argument, or nothing. -/
def firstDisplay (arguments : Arguments) : String :=
  match Arguments.first? arguments with
  | none => ""
  | some value => value.display

end Arguments

end ScriptCore
