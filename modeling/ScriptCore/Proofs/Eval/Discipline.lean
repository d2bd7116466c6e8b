import ScriptCore.Native.Standard
import ScriptCore.Proofs.Eval.Triple
import ScriptCore.Proofs.Node.Typed

/-!
# Disciplines of evaluation

A discipline says what holds of every store in which a step starts or ends, and with which faults it
may stop. What a step gives, and what it returns to the invocation around it, is said for each step.

What is said of a value is often what is expected of it by its static type. An expectation passes on
as values do: from arguments to parameters, from the last node of a body to the body, and from the
body that is chosen to a branch.
-/
namespace ScriptCore

namespace Eval

/-- What is expected of the values of each type, where a type expects no more than those that it
accepts, and `Unit` nothing that is not expected of every value. -/
structure Expectation (expects : Ty → Value → Prop) : Prop where
  widens : ∀ {type wider value}, expects type value → wider.accepts type = true →
    expects wider value
  unit : ∀ {value}, expects .any value → expects .unit value
  empty : expects .any .unit

namespace Expectation

variable {expects : Ty → Value → Prop} (expectation : Expectation expects)

include expectation

theorem any {type : Ty} {value : Value} (h : expects type value) : expects .any value :=
  expectation.widens h (Ty.any_accepts type)

/-- What is expected of the values of typed arguments is expected of the parameters that accept the
arguments. -/
theorem parameters {parameters : Parameters} {arguments : List (String × Node)}
    {values : Arguments} (keyed : arguments.map Prod.fst = Parameters.names parameters)
    (accepted : List.Forall₂ (fun parameter argument =>
      parameter.2.accepts argument.2.type = true) parameters arguments)
    (evaluated : List.Forall₂
      (fun argument value => argument.1 = value.1 ∧ expects argument.2.type value.2)
      arguments values) :
    List.Forall₂
      (fun parameter argument => parameter.1 = argument.1 ∧ expects parameter.2 argument.2)
      parameters values := by
  induction accepted generalizing values with
  | nil =>
    cases evaluated
    exact .nil
  | cons accepts _ ih =>
    cases evaluated with
    | cons head tail =>
      simp only [List.map_cons, Parameters.names, List.cons.injEq] at keyed
      exact .cons ⟨keyed.1.symm.trans head.1, expectation.widens head.2 accepts⟩ (ih keyed.2 tail)

/-- The value of a chosen body is as the type of the branch expects it. -/
theorem branch {type : Ty} {whenTrue whenFalse : List Node} {value : Value}
    (isBranch : Node.IsBranchType type whenTrue whenFalse) (any : expects .any value)
    (chosen : (∀ type, Node.valueType? whenTrue = some type → expects type value) ∨
      ∀ type, Node.valueType? whenFalse = some type → expects type value) :
    expects type value := by
  rcases isBranch with rfl | ⟨other, first, second, accepted⟩
  · exact expectation.unit any
  · rcases chosen with suits | suits
    · exact suits type first
    · exact expectation.widens (suits other second) accepted

/-- The value of a body is as its type expects it, if the value of each node is. The store has an
invariant for the nodes that are left. -/
theorem sequence {evaluator : Evaluator} {env : Location} {stops : Stops} {body : List Node}
    (invariant : List Node → Store → Prop)
    (step : ∀ node rest, node :: rest <:+ body →
      Triple (invariant (node :: rest)) (evaluator node env)
        (fun value heap => expects node.type value ∧ invariant rest heap) stops) :
    Triple (invariant body) (Eval.sequence evaluator env .unit body)
      (fun value heap => (expects .any value ∧
        ∀ type, Node.valueType? body = some type → expects type value) ∧ invariant [] heap)
      stops := by
  refine ((Triple.sequence
    (fun rest last heap => (expects .any last ∧ (rest = [] →
      ∀ type, Node.valueType? body = some type → expects type last)) ∧ invariant rest heap)
    ?_ .unit).mono ?_).weaken ?_
  · intro node rest last there
    refine ((step node rest there).weaken fun _ held => held.2).mono fun value _ held => ?_
    refine ⟨⟨expectation.any held.1, ?_⟩, held.2⟩
    rintro rfl type found
    exact Node.type_of_valueType? there found ▸ held.1
  · exact fun _ _ held => ⟨⟨held.1.1, held.1.2 rfl⟩, held.2⟩
  · refine fun _ held => ⟨⟨expectation.empty, ?_⟩, held⟩
    rintro rfl type found
    cases found

end Expectation

structure Discipline where
  store : Store → Prop
  allows : Fault → Prop

namespace Discipline

/-- Stops as the discipline allows them. -/
def stops (discipline : Discipline) (returns : Value → Prop) : Stops :=
  ⟨fun value heap => returns value ∧ discipline.store heap,
    fun fault heap => discipline.allows fault ∧ discipline.store heap, discipline.store⟩

end Discipline

/-- The step gives a result that `fits`, or stops as the discipline allows. -/
def Obeys {α : Type} (discipline : Discipline) (returns : Value → Prop) (fits : α → Prop)
    (step : Eval α) : Prop :=
  Triple discipline.store step (fun a heap => fits a ∧ discipline.store heap)
    (discipline.stops returns)

namespace Obeys

variable {discipline : Discipline} {returns returns' : Value → Prop} {α β : Type}
  {fits : α → Prop} {step : Eval α}

/-- What holds of every store holds at every end. -/
theorem ends (discipline : Discipline) {before : Store → Prop}
    (h : Triple before step (fun _ => discipline.store) (discipline.stops returns)) {m : Machine}
    (now : before m.heap) : discipline.store (step m).2.heap :=
  Triple.ends (Triple.consequence h (fun _ held => held) (fun _ _ held => held)
    ⟨fun _ _ held => held.2, fun _ _ held => held.2, fun _ held => held⟩) now

theorem mono {narrow : α → Prop} (h : Obeys discipline returns narrow step)
    (weaker : ∀ a, narrow a → fits a) : Obeys discipline returns fits step :=
  Triple.mono h fun a _ held => ⟨weaker a held.1, held.2⟩

theorem pure {a : α} (h : fits a) : Obeys discipline returns fits (Pure.pure a) :=
  Triple.pure fun _ held => ⟨h, held⟩

theorem bind {first : Eval β} {next : β → Eval α} {between : β → Prop}
    (before : Obeys discipline returns between first)
    (behind : ∀ b, between b → Obeys discipline returns fits (next b)) :
    Obeys discipline returns fits (first >>= next) :=
  Triple.bind before fun b => Triple.of_fact (behind b)

theorem fault {f : Fault} (allowed : discipline.allows f) :
    Obeys discipline returns fits (Eval.fault f) :=
  Triple.fault fun _ held => ⟨allowed, held⟩

/-- A check of a value that does not depend on the store. -/
theorem check {result : Except Fault α} (ok : ∀ a, result = .ok a → fits a)
    (error : ∀ f, result = .error f → discipline.allows f) :
    Obeys discipline returns fits (Eval.ask fun _ => result) :=
  Triple.check (fun a _ same held => ⟨ok a same, held⟩) fun f _ same held => ⟨error f same, held⟩

theorem returned {value : Value} (h : returns value) :
    Obeys discipline returns fits (Attempt.fail (.returned value)) :=
  Triple.returned fun _ held => ⟨h, held⟩

theorem printLine (text : String) :
    Obeys discipline returns (fun _ => True) (Eval.printLine text) :=
  Triple.printLine fun _ held => ⟨trivial, held⟩

/-- What a body returns is the result of the invocation. The body may start in a store that more is
known of. -/
theorem catchReturn {before : Store → Prop} {function : String} {line : Line} {scope : Location}
    {body : Eval Unit}
    (h : Triple before body (fun _ => discipline.store) (discipline.stops returns))
    (missing : discipline.allows (.missingReturn function)) :
    Triple before (Eval.catchReturn function line scope body)
      (fun value heap => returns value ∧ discipline.store heap) (discipline.stops returns') := by
  refine Triple.catchReturn (Triple.consequence h (fun _ held => held) ?_ ?_)
  · exact fun _ _ held => ⟨missing, held⟩
  · exact ⟨fun _ _ held => held, fun _ _ held => held, fun _ held => held⟩

/-- The standard functions of the host return the unit value. -/
theorem callNative {natives : Table NativeFn} (hosts : natives = Native.standard) {name : String}
    (unit : returns .unit) (undefined : discipline.allows (.undefinedFunction name)) (site : Node)
    (arguments : Arguments) (scope : Location) :
    Obeys discipline returns (fun _ => True)
      (Interpreter.callNative natives name site arguments scope) := by
  rw [Interpreter.callNative, hosts]
  split
  · rename_i native supplied
    cases Native.eq_println_of_standard supplied
    have printed : Obeys discipline returns (· = .unit) (Native.println site arguments scope) :=
      (printLine _).bind fun _ _ => pure rfl
    refine printed.bind fun value same => ?_
    subst same
    exact returned unit
  · exact fault undefined

end Obeys

end Eval

end ScriptCore
