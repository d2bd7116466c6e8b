import ScriptCore.Decimal.Layout
import ScriptCore.Text.Quoted

/-!
# Scalars and literals

A scalar is a number, a truth value or a string. A literal, as it is written in a source
text, is a scalar or the unit value.
-/
namespace ScriptCore

inductive Scalar
  | int (value : Int64)
  | double (value : Float)
  | boolean (value : Bool)
  | string (value : String)

inductive Literal
  | scalar (value : Scalar)
  | unit

namespace Scalar

/-- Equality of scalars. Scalars of different kinds differ, and a double that is not a
number differs from itself. -/
def equals : Scalar → Scalar → Bool
  | int a, int b => a == b
  | double a, double b => a == b
  | boolean a, boolean b => a == b
  | string a, string b => a == b
  | _, _ => false

/-- The text of a scalar in the output of a program; a string stands for itself. -/
def display : Scalar → String
  | int value => toString value.toInt
  | double value => Decimal.display value
  | boolean value => if value then "true" else "false"
  | string value => value

/-- The kind and the value of a scalar. -/
def inspect : Scalar → String
  | int value => "Int(" ++ toString value.toInt ++ ")"
  | double value => "Double(" ++ Decimal.inspect value ++ ")"
  | boolean value => "Boolean(" ++ (if value then "true" else "false") ++ ")"
  | string value => "String(" ++ Text.quote value ++ ")"

end Scalar

namespace Literal

/-- The text of a literal in a source text; a string is quoted. -/
def source : Literal → String
  | scalar (.string value) => Text.quote value
  | scalar value => value.display
  | unit => "Unit"

end Literal

end ScriptCore
