import ScriptCore.Fault
import ScriptCore.Value

/-!
# Operators on values

Arithmetic and comparison are done on doubles, and an integer operand is made a double
first. Equality is that of values. `+` with a string on its left joins it with the text of
the right operand.
-/
namespace ScriptCore.Value

def invalidOperands (op : BinaryOp) (left right : Value) : Fault :=
  .invalidOperands op.symbol left.type.render right.type.render

/-- Arithmetic and comparison of two numbers; an equality operator has no result here. -/
def numeric? (op : BinaryOp) (left right : Float) : Option Value :=
  match op with
  | .add => some (double (left + right))
  | .sub => some (double (left - right))
  | .mul => some (double (left * right))
  | .div => some (double (left / right))
  | .gt => some (boolean (left > right))
  | .ge => some (boolean (left ≥ right))
  | .lt => some (boolean (left < right))
  | .le => some (boolean (left ≤ right))
  | .eq | .ne => none

def equality (op : BinaryOp) (left right : Value) : Value :=
  boolean (if op = .eq then left.equals right else !left.equals right)

/-- A string on the left of `+`, joined with the text of the right operand. -/
def concatenation? (op : BinaryOp) (left right : Value) : Option Value :=
  match op, left.asString? with
  | .add, some text => some (string (text ++ right.display))
  | _, _ => none

def binary (op : BinaryOp) (left right : Value) : Except Fault Value :=
  if op.isEquality then .ok (equality op left right)
  else
    let result :=
      match left.asNumber?, right.asNumber? with
      | some x, some y => numeric? op x y
      | _, _ => concatenation? op left right
    match result with
    | some value => .ok value
    | none => .error (invalidOperands op left right)

/-- The truth of a value, where a truth value is needed. -/
def truth (value : Value) : Except Fault Bool :=
  match value.asBool? with
  | some b => .ok b
  | none => .error (.invalidType "Boolean" value.type.render)

/-- Negation of an integer wraps around at the least one. -/
def unary (op : UnaryOp) (right : Value) : Except Fault Value :=
  match op, right.scalar? with
  | .neg, some (.int n) => .ok (int (-n))
  | .neg, some (.double x) => .ok (double (-x))
  | .neg, _ => .error (.invalidType "Int or Double" right.type.render)
  | .not, _ => right.truth.map fun b => boolean !b

/-- Whether the left operand alone decides a logical operation. -/
def decides (op : LogicalOp) (left : Bool) : Bool :=
  match op with
  | .and => !left
  | .or => left

end ScriptCore.Value
