/-!
# Mutability

A variable binding either keeps its first value or may be assigned another one.
-/
namespace ScriptCore

inductive Mutability
  | immutable
  | mutable
  deriving DecidableEq

end ScriptCore
