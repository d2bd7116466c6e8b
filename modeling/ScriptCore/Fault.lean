import ScriptCore.Diagnostic

/-!
# Runtime errors

A runtime error is a fault with the line and the call sites that were known when it was
raised. Whatever is attached first stays: an error picks up its place at the point of
failure, and the scopes it passes on its way out add nothing to it.
-/
namespace ScriptCore

inductive Fault
  | undefinedVariable (name : String)
  | undefinedFunction (name : String)
  | alreadyDeclared (name : String)
  | reassignedImmutable (name : String)
  | invalidType (expected found : String)
  | missingReturn (function : String)
  | undefinedModule (name : String)
  | moduleOutsideGlobal (name : String)
  | invalidOperands (op left right : String)
  | unsupported (feature : String)
  | uncaughtReturn
  deriving DecidableEq

namespace Fault

def message : Fault → String
  | undefinedVariable name => "var " ++ name ++ " does not exist"
  | undefinedFunction name => "function " ++ name ++ " does not exist"
  | alreadyDeclared name => "var " ++ name ++ " already declared"
  | reassignedImmutable name => "var " ++ name ++ " is immutable"
  | invalidType expected found => "expected " ++ expected ++ " but got " ++ found
  | missingReturn function => "missing return in " ++ function
  | undefinedModule name => "module " ++ name ++ " does not exist"
  | moduleOutsideGlobal name =>
    "module " ++ name ++ " must be declared in the global environment"
  | invalidOperands op left right =>
    "invalid operands for " ++ op ++ ": " ++ left ++ " and " ++ right
  | unsupported feature => feature ++ " is not supported"
  | uncaughtReturn => "return outside of a function"

/-- The name of the kind of fault. -/
def kind : Fault → String
  | undefinedVariable _ => "UndefinedVariable"
  | undefinedFunction _ => "UndefinedFunction"
  | alreadyDeclared _ => "AlreadyDeclaredVariable"
  | reassignedImmutable _ => "ReassignImmutableVariable"
  | invalidType _ _ => "InvalidType"
  | missingReturn _ => "MissingReturn"
  | undefinedModule _ => "UndefinedModule"
  | moduleOutsideGlobal _ => "ModuleOutsideGlobal"
  | invalidOperands _ _ _ => "InvalidOperands"
  | unsupported _ => "Unsupported"
  | uncaughtReturn => "UncaughtReturn"

/-- The fault of a kind with these details. -/
def ofKind? : (kind : String) → (details : List String) → Option Fault
  | "UndefinedVariable", [name] => some (undefinedVariable name)
  | "UndefinedFunction", [name] => some (undefinedFunction name)
  | "AlreadyDeclaredVariable", [name] => some (alreadyDeclared name)
  | "ReassignImmutableVariable", [name] => some (reassignedImmutable name)
  | "InvalidType", [expected, found] => some (invalidType expected found)
  | "MissingReturn", [function] => some (missingReturn function)
  | "UndefinedModule", [name] => some (undefinedModule name)
  | "ModuleOutsideGlobal", [name] => some (moduleOutsideGlobal name)
  | "InvalidOperands", [op, left, right] => some (invalidOperands op left right)
  | "Unsupported", [feature] => some (unsupported feature)
  | "UncaughtReturn", [] => some uncaughtReturn
  | _, _ => none

def code : Fault → Code
  | undefinedVariable _ => .undefinedVariable
  | undefinedFunction _ => .undefinedFunction
  | alreadyDeclared _ => .alreadyDeclared
  | reassignedImmutable _ => .reassignedImmutable
  | invalidType _ _ => .invalidType
  | missingReturn _ => .bodyWithoutReturn
  | undefinedModule _ => .undefinedModule
  | moduleOutsideGlobal _ => .moduleOutsideGlobal
  | invalidOperands _ _ _ => .invalidOperands
  | unsupported _ => .unsupported
  | uncaughtReturn => .uncaughtReturn

end Fault

/-- What opened a scope: a call, a block, a loop or a branch. -/
structure CallSite where
  label : String
  line : Line
  deriving DecidableEq

/-- The call sites around a point of execution, innermost first. -/
abbrev Backtrace := List CallSite

namespace Backtrace

/-- The call sites from the one at `index` on, each on a line of its own. -/
def renderFrom (index : Nat) : List CallSite → String
  | [] => ""
  | site :: rest =>
    "\n  " ++ toString index ++ ": " ++ site.label ++ " at " ++ site.line.text ++
      renderFrom (index + 1) rest

def render (backtrace : Backtrace) : String :=
  match backtrace with
  | [] => ""
  | sites => "stack backtrace:" ++ renderFrom 0 sites

end Backtrace

structure EvalError where
  fault : Fault
  line : Option Line
  /-- Absent while no call site is known. -/
  backtrace : Option Backtrace
  deriving DecidableEq

namespace EvalError

def ofFault (fault : Fault) : EvalError := ⟨fault, none, none⟩

/-- Attach a line, unless one is attached already. -/
def atLine (e : EvalError) (line : Line) : EvalError := { e with line := e.line <|> some line }

/-- Attach call sites, unless some are attached already or there are none. -/
def withBacktrace (e : EvalError) (sites : Backtrace) : EvalError :=
  if e.backtrace.isNone && !sites.isEmpty then { e with backtrace := some sites } else e

def message (e : EvalError) : String := e.fault.message

/-- The diagnostic of an error has its call sites as a note. -/
def diagnostic (e : EvalError) : Diagnostic :=
  let plain := (Diagnostic.error e.fault.code).withMessage e.message
  let placed :=
    match e.line with
    | none => plain
    | some line => plain.atLine line
  match e.backtrace with
  | none => placed
  | some sites => placed.withNote (Backtrace.render sites)

end EvalError

end ScriptCore
