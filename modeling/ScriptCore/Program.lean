import ScriptCore.Session

/-!
# Programs

A program is a unit whose `main` is called once its statements have been evaluated. The
result of `main` is the status of the program.
-/
namespace ScriptCore.Program

/-- A `main` takes nothing and promises an `Int`, or anything. -/
def isEntry (overload : Overload) : Bool :=
  overload.type.parameters.isEmpty && overload.type.receiver.isNone &&
    (Ty.int.accepts overload.type.result || overload.type.result.isAny)

/-- The first visible `main` that may be called. -/
def main? (scope : Scope) : Option Overload := (scope.overloads "main").find? isEntry

def findEntry : SessionStep Overload := fun session =>
  match main? session.scope with
  | some overload => (.ok overload, session)
  | none => (.error .mainNotFound, session)

/-- The status that `main` gave back. -/
def status (value : Value) : Except SessionError Int64 :=
  match value.asInt? with
  | some n => .ok n
  | none => .error (.mainNotInt value.type.render)

/-- Evaluate a unit and call its `main`. -/
def run (fuel : Nat) (unit : List Stmt) : SessionStep Int64 := do
  let _ ← Session.run fuel unit
  let entry ← findEntry
  let value ← Session.evaluate (·.callFunction fuel entry.name [])
  Attempt.ofExcept (status value)

end ScriptCore.Program
