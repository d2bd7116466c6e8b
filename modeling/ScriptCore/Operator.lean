/-!
# Operators

Binary operators fall into three classes: arithmetic, comparison and equality.
-/
namespace ScriptCore

inductive BinaryOp
  | add | sub | mul | div
  | gt | ge | lt | le
  | eq | ne
  deriving DecidableEq

/-- The boolean operators that may skip their right operand. -/
inductive LogicalOp
  | and | or
  deriving DecidableEq

inductive UnaryOp
  | neg | not
  deriving DecidableEq

namespace BinaryOp

def symbol : BinaryOp → String
  | add => "+"
  | sub => "-"
  | mul => "*"
  | div => "/"
  | gt => ">"
  | ge => ">="
  | lt => "<"
  | le => "<="
  | eq => "=="
  | ne => "!="

def isArithmetic : BinaryOp → Bool
  | add | sub | mul | div => true
  | _ => false

def isComparison : BinaryOp → Bool
  | gt | ge | lt | le => true
  | _ => false

def isEquality : BinaryOp → Bool
  | eq | ne => true
  | _ => false

def all : List BinaryOp := [add, sub, mul, div, gt, ge, lt, le, eq, ne]

def ofSymbol? (symbol : String) : Option BinaryOp := all.find? (·.symbol = symbol)

end BinaryOp

namespace LogicalOp

def symbol : LogicalOp → String
  | and => "&&"
  | or => "||"

def ofSymbol? (symbol : String) : Option LogicalOp := [and, or].find? (·.symbol = symbol)

end LogicalOp

namespace UnaryOp

def symbol : UnaryOp → String
  | neg => "-"
  | not => "!"

def ofSymbol? (symbol : String) : Option UnaryOp := [neg, not].find? (·.symbol = symbol)

end UnaryOp

end ScriptCore
