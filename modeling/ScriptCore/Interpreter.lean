import ScriptCore.Builtin
import ScriptCore.Eval.Node
import ScriptCore.Native.Standard

/-!
# Interpreters

A fresh interpreter has a global scope with the builtins, the standard native functions and
those that its host adds.
-/
namespace ScriptCore.Interpreter

/-- Open a global scope, prepare it, and supply native functions on top of the standard
ones. -/
def create (functions : List (String × NativeFn)) : Eval Interpreter := do
  let global ← Eval.newGlobal
  let classes ← Builtin.bootstrap global
  return ⟨global, classes, Native.register Native.standard functions⟩

end ScriptCore.Interpreter
