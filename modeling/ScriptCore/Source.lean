import ScriptCore.Line
import ScriptCore.Literal
import ScriptCore.Mutability
import ScriptCore.Operator

/-!
# Source trees

Expressions and statements as a front end delivers them, each with its line. Types are
named, not resolved, and arguments are given by position.
-/
namespace ScriptCore

/-- The parameters of a function with the names of their types, and the name of the result
type. A function without one has the result type `Unit`. -/
structure Signature where
  parameters : List (String × String)
  result : Option String

mutual

inductive Expr
  | literal (line : Line) (value : Literal)
  | name (line : Line) (name : String)
  | this (line : Line)
  | group (line : Line) (inner : Expr)
  | assign (line : Line) (name : String) (value : Expr)
  | unary (line : Line) (op : UnaryOp) (right : Expr)
  | binary (line : Line) (op : BinaryOp) (left right : Expr)
  | logical (line : Line) (op : LogicalOp) (left right : Expr)
  | get (line : Line) (receiver : Expr) (name : String)
  | set (line : Line) (receiver : Expr) (name : String) (value : Expr)
  | call (line : Line) (callee : Expr) (arguments : List Expr)
  | branch (line : Line) (condition : Expr) (whenTrue whenFalse : List Stmt)
  /-- A named function; with a receiver type it is an extension of that type. -/
  | function (line : Line) (receiver : Option String) (name : String) (signature : Signature)
      (body : List Stmt)
  | anonymous (line : Line) (signature : Signature) (body : List Stmt)
  /-- A function that the host supplies. -/
  | native (line : Line) (name : String) (signature : Signature)

inductive Stmt
  | expr (value : Expr)
  | block (line : Line) (body : List Stmt)
  | loop (line : Line) (condition : Expr) (body : List Stmt)
  | returns (line : Line) (value : Expr)
  | bind (line : Line) (mutability : Mutability) (name : String) (typeName : Option String)
      (value : Expr)
  | useModule (line : Line) (name : String)
  | openModule (line : Line) (name : String)
  | record (line : Line) (name : String) (fields : List (String × String))

end

def Expr.line : Expr → Line
  | literal line _ | name line _ | this line | group line _ | assign line _ _
  | unary line _ _ | binary line _ _ _ | logical line _ _ _ | get line _ _ | set line _ _ _
  | call line _ _ | branch line _ _ _ | function line _ _ _ _ | anonymous line _ _
  | native line _ _ => line

/-- The line of a statement; an expression stands on its own line. -/
def Stmt.line : Stmt → Line
  | expr value => value.line
  | block line _ | loop line _ _ | returns line _ | bind line _ _ _ _ | useModule line _
  | openModule line _ | record line _ _ => line

end ScriptCore
