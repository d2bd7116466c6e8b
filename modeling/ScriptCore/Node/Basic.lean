import ScriptCore.Line
import ScriptCore.Literal
import ScriptCore.Mutability
import ScriptCore.Operator
import ScriptCore.Ty.Basic

/-!
# Nodes

A node is a resolved piece of a program: every name is settled, and each node carries its
static type and its line. Arguments are keyed by the names of the parameters.

The header of a function holds what is known of it besides its body. Its `id` tells the
declaration apart from every other one, also from one with the same text.
-/
namespace ScriptCore

/-- What every node carries. -/
structure Tag where
  type : Ty
  line : Line

structure FunctionHeader where
  id : Nat
  /-- The indexed name. -/
  name : String
  /-- The name in the source. -/
  plainName : String
  /-- An extension function has a first parameter `this` and a receiver. -/
  type : FnTy
  line : Line
  deriving DecidableEq

structure NativeHeader where
  id : Nat
  /-- The indexed name. -/
  name : String
  /-- The name under which the host knows the function. -/
  hostName : String
  type : FnTy
  line : Line
  deriving DecidableEq

structure AnonymousHeader where
  id : Nat
  type : FnTy
  line : Line
  deriving DecidableEq

structure RecordHeader where
  name : String
  fields : Parameters
  line : Line
  deriving DecidableEq

inductive Node
  | literal (tag : Tag) (value : Literal)
  | this (tag : Tag)
  | readVariable (tag : Tag) (name : String)
  /-- A function by its indexed name. -/
  | readFunction (tag : Tag) (name : String)
  | get (tag : Tag) (receiver : Node) (name : String)
  | set (tag : Tag) (receiver : Node) (name : String) (value : Node)
  | call (tag : Tag) (callee : Node) (arguments : List (String × Node))
  | unary (tag : Tag) (op : UnaryOp) (right : Node)
  | binary (tag : Tag) (op : BinaryOp) (left right : Node)
  | logical (tag : Tag) (op : LogicalOp) (left right : Node)
  | bind (tag : Tag) (mutability : Mutability) (name : String) (value : Node)
  | assign (tag : Tag) (name : String) (value : Node)
  | returns (tag : Tag) (value : Node)
  | block (tag : Tag) (body : List Node)
  | loop (tag : Tag) (condition : Node) (body : List Node)
  | branch (tag : Tag) (condition : Node) (whenTrue whenFalse : List Node)
  | function (tag : Tag) (header : FunctionHeader) (body : List Node)
  | native (tag : Tag) (header : NativeHeader)
  | anonymous (tag : Tag) (header : AnonymousHeader) (body : List Node)
  | record (tag : Tag) (header : RecordHeader)
  | openModule (tag : Tag) (name : String)
  | useModule (tag : Tag) (name : String)

namespace Node

def tag : Node → Tag
  | literal tag _ | this tag | readVariable tag _ | readFunction tag _ | get tag _ _
  | set tag _ _ _ | call tag _ _ | unary tag _ _ | binary tag _ _ _ | logical tag _ _ _
  | bind tag _ _ _ | assign tag _ _ | returns tag _ | block tag _ | loop tag _ _
  | branch tag _ _ _ | function tag _ _ | native tag _ | anonymous tag _ _ | record tag _
  | openModule tag _ | useModule tag _ => tag

/-- The static type. -/
def type (node : Node) : Ty := node.tag.type

def line (node : Node) : Line := node.tag.line

/-- Whether the node itself is a return. -/
def isReturn : Node → Bool
  | returns _ _ => true
  | _ => false

/-- The type of the value that a body ends with, if its last node is an expression: a body
that is empty or ends with a declaration has none. -/
def valueType? (body : List Node) : Option Ty :=
  match body.getLast? with
  | none => none
  | some last =>
    match last with
    | bind _ _ _ _ | returns _ _ | loop _ _ _ | block _ _ | function _ _ _ | native _ _
    | record _ _ | openModule _ _ | useModule _ _ => none
    | expression => some expression.type

end Node

end ScriptCore
