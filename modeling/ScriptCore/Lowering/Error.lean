import ScriptCore.Diagnostic
import ScriptCore.Ty.Basic

/-!
# Errors of lowering

A unit that does not lower fails with one error: its cause and its line.
-/
namespace ScriptCore

namespace CompileError

inductive Cause
  | unresolvedVariable (name : String)
  | unresolvedFunction (name : String)
  /-- The place of an argument without a parameter, or of a parameter without an argument. -/
  | unresolvedParameter (place : Nat)
  | unexpectedType (expected found : String)
  | missingReturn (function : String)
  | alreadyResolved (name : String)
  | classMissingName
  deriving DecidableEq

def Cause.message : Cause → String
  | unresolvedVariable name => "variable " ++ name ++ " not found"
  | unresolvedFunction name => "function " ++ name ++ " not found"
  | unresolvedParameter place => "unresolved parameter " ++ toString place
  | unexpectedType expected found => "expected " ++ expected ++ " but got " ++ found
  | missingReturn function => "missing return in function " ++ function
  | alreadyResolved name => name ++ " is already resolved in this scope"
  | classMissingName => "class declaration is missing a name"

/-- The name of the kind of error. -/
def Cause.kind : Cause → String
  | unresolvedVariable _ => "UnresolvedVariable"
  | unresolvedFunction _ => "UnresolvedFunction"
  | unresolvedParameter _ => "UnresolvedParameter"
  | unexpectedType _ _ => "UnexpectedType"
  | missingReturn _ => "MissingReturn"
  | alreadyResolved _ => "AlreadyResolvedVariable"
  | classMissingName => "ClassMissingName"

def Cause.code : Cause → Code
  | unresolvedVariable _ => .unresolvedVariable
  | unresolvedFunction _ => .unresolvedFunction
  | unresolvedParameter _ => .unresolvedParameter
  | unexpectedType _ _ => .unexpectedType
  | missingReturn _ => .missingReturn
  | alreadyResolved _ => .alreadyResolved
  | classMissingName => .classMissingName

end CompileError

structure CompileError where
  cause : CompileError.Cause
  line : Line
  deriving DecidableEq

namespace CompileError

def message (e : CompileError) : String := e.cause.message

def diagnostic (e : CompileError) : Diagnostic :=
  ((Diagnostic.error e.cause.code).withMessage e.message).atLine e.line

/-- A type was found where another one, or one of several, is needed. -/
def unexpected (expected : String) (found : Ty) (line : Line) : CompileError :=
  ⟨.unexpectedType expected found.render, line⟩

end CompileError

end ScriptCore
