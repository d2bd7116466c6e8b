import ScriptCore.Interpreter

/-!
# Benches

A bench holds an interpreter that is worked by hand: scopes and values get names, by which
later work refers to them. The bench keeps what it names and nothing else, so a scope that
loses its name may be given up.
-/
namespace ScriptCore

structure Bench where
  interpreter : Interpreter
  machine : Machine
  scopes : Table Location
  values : Table Value

/-- A piece of work on a bench. -/
abbrev BenchWork (α : Type) := Attempt Bench Stop α

namespace Bench

/-- A bench with a fresh interpreter, whose global scope has the name `G`. -/
def create (functions : List (String × NativeFn)) (output : Output) : Except Stop Bench :=
  match Interpreter.create functions (.fresh output) with
  | (.ok interpreter, machine) =>
    .ok ⟨interpreter, machine, Table.empty.insert "G" interpreter.global, .empty⟩
  | (.error stop, _) => .error stop

/-- The scopes that the bench itself keeps. -/
def roots (bench : Bench) : List Location :=
  bench.interpreter.global :: bench.scopes.entries.map Prod.snd ++
    bench.values.entries.flatMap fun entry => entry.2.kept

/-- Let the interpreter work on the machine, which meanwhile holds on to what the bench
keeps. -/
def evaluate {α : Type} (work : Interpreter → Eval α) : BenchWork α := fun bench =>
  match work bench.interpreter (bench.machine.holdingOnly bench.roots) with
  | (result, machine) => (result, { bench with machine := machine })

/-- All the names of a scope, in the order of their code points. -/
def namesOf (bench : Bench) (env : Location) : List String :=
  ((bench.scopes.entries.filter (·.2 = env)).map Prod.fst).mergeSort fun a b => a ≤ b

def nameScope (bench : Bench) (name : String) (env : Location) : Bench :=
  { bench with scopes := bench.scopes.insert name env }

/-- Take a name from its scope. -/
def forgetScope (bench : Bench) (name : String) : Bench :=
  { bench with scopes := ⟨bench.scopes.entries.filter (·.1 ≠ name)⟩ }

def nameValue (bench : Bench) (name : String) (value : Value) : Bench :=
  { bench with values := bench.values.insert name value }

/-- Empty the output, and give what was in it. -/
def takeOutput (bench : Bench) : String × Bench :=
  (bench.machine.output.text, { bench with machine := bench.machine.clearOutput })

end Bench

end ScriptCore
