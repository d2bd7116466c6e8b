import ScriptCore.Interpreter
import ScriptCore.Lowering.Unit

/-!
# Sessions

A session takes units one at a time. Each is lowered against the scope that the earlier ones
left behind and then evaluated. A unit that does not lower leaves the session as it was; a
unit that fails while it runs keeps whatever it did before.
-/
namespace ScriptCore

inductive SessionError
  | compile (error : CompileError)
  | runtime (error : EvalError)
  | mainNotFound
  | mainNotInt (found : String)
  /-- The fuel ran out before the unit was done. -/
  | exhausted
  deriving DecidableEq

namespace SessionError

/-- The name of the kind of error. -/
def kind : SessionError → String
  | compile error => error.cause.kind
  | runtime error => error.fault.kind
  | mainNotFound => "MainNotFound"
  | mainNotInt _ => "MainReturnedNotInt"
  | exhausted => "Exhausted"

def message : SessionError → String
  | compile error => error.message
  | runtime error => error.message
  | mainNotFound => "no function main() returning Int"
  | mainNotInt found => "main returned " ++ found ++ ", expected Int"
  | exhausted => "out of fuel"

/-- The diagnostic of an error; running out of fuel is no fault of the program. -/
def diagnostic? : SessionError → Option Diagnostic
  | compile error => some error.diagnostic
  | runtime error => some error.diagnostic
  | mainNotFound => some ((Diagnostic.error .mainNotFound).withMessage mainNotFound.message)
  | mainNotInt found =>
    some ((Diagnostic.error .mainNotInt).withMessage (mainNotInt found).message)
  | exhausted => none

/-- The error that a stop amounts to where nothing is left to catch a return. -/
def ofStop : Stop → SessionError
  | .failed error => runtime error
  | .returned _ => runtime (.ofFault .uncaughtReturn)
  | .exhausted => exhausted

end SessionError

structure Session where
  lowering : Lowering.State
  interpreter : Interpreter
  machine : Machine

/-- A step of a session. -/
abbrev SessionStep (α : Type) := Attempt Session SessionError α

namespace Session

def scope (session : Session) : Scope := session.lowering.scope

/-- The state of lowering before the first unit. -/
def freshLowering : Lowering.State := ⟨.builtins, 0⟩

/-- Take up a prepared interpreter. -/
def start (output : Output) : Except Stop Session :=
  match Interpreter.create [] (.fresh output) with
  | (.ok interpreter, machine) => .ok ⟨freshLowering, interpreter, machine⟩
  | (.error stop, _) => .error stop

/-- Lower a unit. Only if all of it lowers do its declarations enter the scope. -/
def compile (unit : List Stmt) : SessionStep (List Node) := fun session =>
  match Lowering.lowerUnit unit session.lowering with
  | (.ok nodes, lowering) => (.ok nodes, { session with lowering := lowering })
  | (.error error, _) => (.error (.compile error), session)

/-- Let the interpreter work on the machine of the session. -/
def evaluate {α : Type} (work : Interpreter → Eval α) : SessionStep α := fun session =>
  match work session.interpreter session.machine with
  | (.ok a, machine) => (.ok a, { session with machine := machine })
  | (.error stop, machine) => (.error (.ofStop stop), { session with machine := machine })

/-- Lower and evaluate a unit, to the values of its statements. -/
def run (fuel : Nat) (unit : List Stmt) : SessionStep (List Value) := do
  let nodes ← compile unit
  evaluate (·.evaluateUnit fuel nodes)

/-- The last value of a unit; an empty unit has the unit value. -/
def eval (fuel : Nat) (unit : List Stmt) : SessionStep Value := do
  let values ← run fuel unit
  return values.getLast?.getD .unit

/-- The global variable of this name. -/
def global (name : String) : SessionStep Value :=
  evaluate fun interpreter => Eval.lookup interpreter.global name

/-- Empty the output, and give what was in it. -/
def takeOutput (session : Session) : String × Session :=
  (session.machine.output.text, { session with machine := session.machine.clearOutput })

/-- The scope of an opened module. -/
def module? (session : Session) (name : String) : Option Location :=
  session.machine.store.modules.get? name

/-- The names of the global scope. -/
def inspect (session : Session) : String :=
  session.machine.store.inspect session.interpreter.global

end Session

end ScriptCore
