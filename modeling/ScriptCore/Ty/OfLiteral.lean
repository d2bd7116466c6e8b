import ScriptCore.Literal
import ScriptCore.Ty.Basic

/-!
# The types of literals

Each kind of literal has a builtin type.
-/
namespace ScriptCore

def Scalar.type : Scalar → Ty
  | int _ => .int
  | double _ => .double
  | boolean _ => .boolean
  | string _ => .string

def Literal.type : Literal → Ty
  | scalar value => value.type
  | unit => .unit

end ScriptCore
