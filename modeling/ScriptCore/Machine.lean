import ScriptCore.Attempt
import ScriptCore.Output
import ScriptCore.Store.Lookup

/-!
# The machine

The machine is everything that a running program can change: the store, the output, and the
stamp of the next builtin constructor.

A step of evaluation ends with a result or stops. It stops with a value on its way back to
an invocation, with an error, or because the fuel that bounds the depth of evaluation has
run out; a stop of the last kind says nothing about the program.
-/
namespace ScriptCore

structure Machine where
  store : Store
  output : Output
  nextStamp : Nat

inductive Stop
  | returned (value : Value)
  | failed (error : EvalError)
  | exhausted

/-- A step of evaluation. What it changed before it stopped stays changed. -/
abbrev Eval (α : Type) := Attempt Machine Stop α

/-- What the host supplies for a native function: from the call, the arguments and the scope
of the call, a result. -/
abbrev NativeFn := Node → Arguments → Location → Eval Value

/-- What evaluation consults and never changes. -/
structure Interpreter where
  global : Location
  /-- The builtin classes by name. -/
  classes : Table ClassObject
  /-- The functions that the host supplies, by the names it knows them under. -/
  natives : Table NativeFn

namespace Machine

/-- A machine without any scopes. -/
def fresh (output : Output) : Machine := ⟨.empty, output, 0⟩

/-- Hold on to these scopes and no others. -/
def holdingOnly (m : Machine) (held : List Location) : Machine :=
  { m with store := { m.store with held := held } }

def clearOutput (m : Machine) : Machine := { m with output := m.output.clear }

end Machine

namespace Eval

def raise {α : Type} (error : EvalError) : Eval α := Attempt.fail (.failed error)

def fault {α : Type} (fault : Fault) : Eval α := raise (.ofFault fault)

/-- Ask the store. -/
def ask {α : Type} (query : Store → Except Fault α) : Eval α := fun m =>
  match query m.store with
  | .ok a => (.ok a, m)
  | .error f => (.error (.failed (.ofFault f)), m)

/-- Do a step on the store. -/
def onStore {α : Type} (step : StoreStep α) : Eval α := fun ⟨store, output, stamp⟩ =>
  match step store with
  | (.ok a, store) => (.ok a, ⟨store, output, stamp⟩)
  | (.error f, store) => (.error (.failed (.ofFault f)), ⟨store, output, stamp⟩)

def lookup (env : Location) (name : String) : Eval Value := ask (·.lookup env name)

def lookupFunction (env : Location) (name : String) : Eval Callable :=
  ask (·.lookupFunction env name)

def declare (env : Location) (name : String) (value : Value) (mutability : Mutability) :
    Eval Unit :=
  onStore (Store.declare env name value mutability)

def declareFunction (env : Location) (name : String) (callable : Callable) : Eval Unit :=
  onStore (Attempt.update (·.declareFunction env name callable))

def assign (env : Location) (name : String) (value : Value) : Eval Unit :=
  onStore (Store.assign env name value)

def expand (env module : Location) : Eval Unit := onStore (Attempt.update (·.expand env module))

def openModule (name : String) (env : Location) : Eval Location :=
  onStore (Store.openModule name env)

def openedModule (name : String) : Eval Location := ask (·.openedModule name)

/-- Open a scope inside another one. -/
def child (env : Location) (callSite : Option CallSite) : Eval Location := fun m =>
  (.ok m.store.next, { m with store := m.store.add (.create (some env) callSite) })

/-- Open a scope with nothing around it. -/
def newGlobal : Eval Location := fun m =>
  (.ok m.store.next, { m with store := m.store.add (.create none none) })

/-- Hold on to scopes during a step, and let go of them however the step ends. -/
def holding {α : Type} (kept : List Location) (step : Eval α) : Eval α :=
  fun ⟨⟨frames, modules, held⟩, output, stamp⟩ =>
    match step ⟨⟨frames, modules, kept ++ held⟩, output, stamp⟩ with
    | (result, ⟨⟨frames, modules, _⟩, output, stamp⟩) =>
      (result, ⟨⟨frames, modules, held⟩, output, stamp⟩)

/-- What is held on to meanwhile is let go of. -/
theorem holding_run {α : Type} (kept : List Location) (step : Eval α) (m : Machine) :
    holding kept step m = ((step (m.holdingOnly (kept ++ m.store.held))).1,
      (step (m.holdingOnly (kept ++ m.store.held))).2.holdingOnly m.store.held) := by
  obtain ⟨⟨frames, modules, held⟩, output, stamp⟩ := m
  rfl

/-- Open a scope inside another one, and hold on to it for as long as work in it lasts. -/
def inScope {α : Type} (env : Location) (callSite : CallSite) (work : Location → Eval α) :
    Eval α := do
  let scope ← child env (some callSite)
  holding [scope] (work scope)

def printLine (text : String) : Eval Unit := fun m =>
  (.ok (), { m with output := m.output.printLine text })

/-- A stamp that no other builtin constructor or class has. -/
def freshStamp : Eval Nat := fun m => (.ok m.nextStamp, { m with nextStamp := m.nextStamp + 1 })

/-- Attach a line and the call sites around `env` to an error on its way out. -/
def located {α : Type} (line : Line) (env : Location) (step : Eval α) : Eval α := fun m =>
  match step m with
  | (.error (.failed e), m') =>
    (.error (.failed ((e.atLine line).withBacktrace (m'.store.backtrace env))), m')
  | result => result

/-- Attach a line to an error on its way out. -/
def onLine {α : Type} (line : Line) (step : Eval α) : Eval α := fun m =>
  match step m with
  | (.error (.failed e), m') => (.error (.failed (e.atLine line)), m')
  | result => result

/-- Where nothing is left to catch it, a returned value is an error. -/
def uncaught {α : Type} (line : Line) (step : Eval α) : Eval α := fun m =>
  match step m with
  | (.error (.returned _), m') =>
    (.error (.failed ((EvalError.ofFault .uncaughtReturn).atLine line)), m')
  | (.error (.failed e), m') => (.error (.failed (e.atLine line)), m')
  | result => result

/-- The value that a body returns. A body that ends without a return is an error. -/
def catchReturn (function : String) (line : Line) (scope : Location) (body : Eval Unit) :
    Eval Value := fun m =>
  match body m with
  | (.ok (), m') =>
    let missing := (EvalError.ofFault (.missingReturn function)).atLine line
    (.error (.failed (missing.withBacktrace (m'.store.backtrace scope))), m')
  | (.error (.returned value), m') => (.ok value, m')
  | (.error stop, m') => (.error stop, m')

end Eval

end ScriptCore
