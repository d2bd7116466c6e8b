import ScriptCore.Proofs.Eval.Alike
import ScriptCore.Proofs.Lowering.Statements

/-!
# Module statements below the top level

A unit evaluates its own module statements. Any other one is evaluated like a node, and then never
in the global scope: there it would be an operand, which a statement never is. So it is refused, and
evaluation does what it would do if module statements failed in every scope (`alike_evaluate`).
-/
namespace ScriptCore.Interpreter

open Eval

/-- The value of a node, where a module statement fails in every scope. -/
def evaluateRefusing (interpreter : Interpreter) : (fuel : Nat) → Node → Location → Eval Value
  | 0, _, _ => Attempt.fail .exhausted
  | fuel + 1, node, env =>
    Eval.located node.line env <|
      match node with
      | .openModule _ name => Eval.fault (.moduleOutsideGlobal name)
      | other => interpreter.step fuel (evaluateRefusing interpreter fuel) other env

/-- In the global scope no module statement, and none among operands either. -/
def Refuses (interpreter : Interpreter) (node : Node) (env : Location) : Prop :=
  env = interpreter.global → Node.Plain [node] ∧ ∀ tag name, node ≠ .openModule tag name

variable {interpreter : Interpreter} {start : Store} {env : Location} {node : Node}

theorem Refuses.operand (refuses : interpreter.Refuses node env) {operand : Node}
    (mem : operand ∈ node.operands) : interpreter.Refuses operand env := by
  intro global
  obtain ⟨plain, expression⟩ := (refuses global).1.operand mem
  refine ⟨plain, ?_⟩
  rintro tag name rfl
  cases expression

/-- A module statement in an inner scope fails and changes nothing. -/
theorem openModule_inner {m : Machine} {name : String} (now : interpreter.LinkedAt start env m.heap)
    (inner : env ≠ interpreter.global) :
    Eval.openModule name env m = (.error (.failed (.ofFault (.moduleOutsideGlobal name))), m) := by
  have linked := Store.linked_heap.mp now.linked
  have inside : env < m.store.next := now.inside
  have refused : ¬ (m.store.frame env).isGlobal = true :=
    fun isGlobal => inner ((linked.isGlobal_iff inside).mp isGlobal)
  have ran : Store.openModule name env m.store =
      (.error (.moduleOutsideGlobal name), m.store) := by
    rw [Store.openModule, if_neg refused]
  obtain ⟨store, output, stamp⟩ := m
  rw [Eval.openModule, Eval.onStore, ran]

theorem alike_openModule_inner {name : String} {tag : Tag} {rounds : Nat} {evaluator : Evaluator}
    (inner : env ≠ interpreter.global) :
    Alike (interpreter.LinkedAt start env)
      (interpreter.step rounds evaluator (.openModule tag name) env)
      (Eval.fault (.moduleOutsideGlobal name)) := by
  intro m now
  refine ⟨_, m, fun held => ⟨?_, rfl⟩⟩
  exact Attempt.bind_error (openModule_inner (m := m.holdingOnly held) now inner)

theorem alike_evaluate (hosts : interpreter.natives = Native.standard) (fuel : Nat) :
    interpreter.Pair interpreter.Refuses (interpreter.evaluate fuel)
      (interpreter.evaluateRefusing fuel) := by
  refine ⟨?_, linking_evaluate hosts fuel, fun node env inner global => absurd global inner⟩
  induction fuel with
  | zero => exact fun _ _ _ _ => Alike.fail _
  | succ fuel ih =>
    intro node start env refuses
    refine Alike.located ?_
    have pair : interpreter.Pair interpreter.Refuses (interpreter.evaluate fuel)
        (interpreter.evaluateRefusing fuel) :=
      ⟨ih, linking_evaluate hosts fuel, fun node env inner global => absurd global inner⟩
    have step : Alike (interpreter.LinkedAt start env)
        (interpreter.step fuel (interpreter.evaluate fuel) node env)
        (interpreter.step fuel (interpreter.evaluateRefusing fuel) node env) :=
      alike_step pair hosts fuel fun _ mem => refuses.operand mem
    cases node with
    | openModule tag name =>
      exact alike_openModule_inner fun global => (refuses global).2 tag name rfl
    | _ => exact step

/-- A unit of a linked machine does the same whatever is held. -/
theorem alike_evaluateFrom (hosts : interpreter.natives = Native.standard) (fuel : Nat)
    {unit : List Node} (plain : Node.Plain unit) (target : Location) :
    Alike (interpreter.LinkedAt start target) (interpreter.evaluateFrom fuel target unit)
      (interpreter.evaluateFrom fuel target unit) := by
  induction unit generalizing target with
  | nil => exact Alike.pure _
  | cons node rest ih =>
    obtain ⟨head, tail⟩ := Node.plain_cons.mp plain
    by_cases opens : ∃ tag name, node = .openModule tag name
    · obtain ⟨tag, name, rfl⟩ := opens
      rw [evaluateFrom]
      have module : Triple (interpreter.LinkedAt start target)
          (Eval.onLine tag.line (Eval.openModule name interpreter.global))
          (fun module => interpreter.LinkedAt start module) .any :=
        Triple.onLine (Triple.any (Triple.consequence (linked_openModule name)
          (fun _ now => now.global) (fun _ _ now => now.1.module now.2)
          ⟨fun _ _ => id, fun _ _ => id, fun _ => id⟩))
      refine (Alike.openModule _ _).onLine.bind module fun module => ?_
      exact (ih tail module).bind (linked_evaluateFrom hosts fuel rest module) fun _ => Alike.pure _
    · have other : ∀ tag name, node ≠ .openModule tag name :=
        fun tag name same => opens ⟨tag, name, same⟩
      have value := ((alike_evaluate hosts fuel).alike node start target fun _ => ⟨head, other⟩).self
      rw [evaluateFrom]
      · refine value.uncaught.bind_keeps ?_ fun value => ?_
        · exact Triple.uncaught (linking_evaluate hosts fuel node start target)
        · exact ((ih tail target).holding _).bind
            (linked_evaluateFrom hosts fuel rest target).holding fun _ => Alike.pure _
      · exact other

end ScriptCore.Interpreter
