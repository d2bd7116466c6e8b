/-!
# Source lines

Lines count from one. Line zero is synthetic: it marks nodes without a source position,
such as builtins and the returns that lowering adds.
-/
namespace ScriptCore

structure Line where
  number : UInt32
  deriving DecidableEq, Inhabited

namespace Line

def synthetic : Line := ⟨0⟩

def isSynthetic (line : Line) : Bool := line = synthetic

def text (line : Line) : String :=
  if line.isSynthetic then "<native>" else "line " ++ toString line.number.toNat

end Line

end ScriptCore
