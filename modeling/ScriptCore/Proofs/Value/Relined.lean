import ScriptCore.Proofs.Attempt
import ScriptCore.Proofs.Eval.Operators
import ScriptCore.Proofs.Node.Relined
import ScriptCore.Store.Liveness

/-!
# Values on other lines

A value knows of lines only through the bodies and headers of callables. Two values that differ in
nothing else have the same text and the same type, keep the same scopes, and are the same operands.
-/
namespace ScriptCore

variable {f : Line → Line}

/-- A node of the body of a named function: one on another line, or the return that lowering has put
at the end, which stays as it is. -/
inductive Node.RelinedInBody (f : Line → Line) : Node → Node → Prop
  | source {node node' : Node} (relined : Node.Relined f node node') : RelinedInBody f node node'
  | added : RelinedInBody f Lowering.syntheticReturn Lowering.syntheticReturn

theorem Node.relinedInBody_of_forall₂ {body body' : List Node}
    (bodies : List.Forall₂ (Node.Relined f) body body') :
    List.Forall₂ (Node.RelinedInBody f) body body' :=
  bodies.imp fun _ _ => .source

/-- Callables of the same declaration on other lines. -/
inductive Callable.Relined (f : Line → Line) : Callable → Callable → Prop
  | function {header : FunctionHeader} {body body' : List Node}
      (bodies : List.Forall₂ (Node.RelinedInBody f) body body') :
      Relined f (.function header body) (.function (header.mapLine f) body')
  | closure {header : AnonymousHeader} {body body' : List Node} {scope : Location}
      (bodies : List.Forall₂ (Node.Relined f) body body') :
      Relined f (.closure header body scope) (.closure (header.mapLine f) body' scope)
  | native {header : NativeHeader} : Relined f (.native header) (.native (header.mapLine f))
  | constructor {header : BuiltinConstructor} :
      Relined f (.constructor header) (.constructor header)

namespace Callable.Relined

variable {callable callable' other other' : Callable}

theorem name_eq (relined : Relined f callable callable') : callable'.name = callable.name := by
  cases relined <;> rfl

theorem type_eq (relined : Relined f callable callable') : callable'.type = callable.type := by
  cases relined <;> rfl

theorem kept_eq (relined : Relined f callable callable') : callable'.kept = callable.kept := by
  cases relined <;> rfl

theorem same_eq (first : Relined f callable callable') (second : Relined f other other') :
    callable'.same other' = callable.same other := by
  cases first <;> cases second <;> rfl

end Callable.Relined

/-- Values that differ at most in the lines of a callable. -/
inductive Value.Relined (f : Line → Line) : Value → Value → Prop
  | same {value : Value} (plain : value.asCallable? = none) : Relined f value value
  | callable {callable callable' : Callable} (relined : callable.Relined f callable') :
      Relined f (.callable callable) (.callable callable')

namespace Value

variable {value value' left left' right right' : Value}

theorem Relined.type_eq (relined : Relined f value value') : value'.type = value.type := by
  cases relined with
  | same => rfl
  | callable relined => exact congrArg Ty.fn relined.type_eq

theorem Relined.display_eq (relined : Relined f value value') : value'.display = value.display := by
  cases relined with
  | same => rfl
  | callable relined => rw [display, display, relined.name_eq]

theorem Relined.kept_eq (relined : Relined f value value') : value'.kept = value.kept := by
  cases relined with
  | same => rfl
  | callable relined => exact relined.kept_eq

theorem Relined.scalar?_eq (relined : Relined f value value') : value'.scalar? = value.scalar? := by
  cases relined <;> rfl

theorem Relined.asCallable? (relined : Relined f value value') :
    Option.Rel (Callable.Relined f) value.asCallable? value'.asCallable? := by
  cases relined with
  | same plain =>
    rw [plain]
    exact .none
  | callable relined => exact .some relined

/-- Values are the same operands of an equality on other lines. -/
theorem Relined.equals_eq (first : Relined f left left') (second : Relined f right right') :
    left'.equals right' = left.equals right := by
  cases first with
  | same plain =>
    cases second with
    | same => rfl
    | callable => cases left <;> first | rfl | cases plain
  | callable relined =>
    cases second with
    | same plain => cases right <;> first | rfl | cases plain
    | callable relined' => exact relined.same_eq relined'

theorem Relined.truth_eq (relined : Relined f value value') : value'.truth = value.truth := by
  rw [truth, truth, asBool?, asBool?, relined.scalar?_eq, relined.type_eq]

theorem Relined.unary_eq (op : UnaryOp) (below : Relined f value value') :
    unary op value' = unary op value := by
  simp only [unary, below.scalar?_eq, below.type_eq, below.truth_eq]

theorem Relined.binary_eq (op : BinaryOp) (first : Relined f left left')
    (second : Relined f right right') : binary op left' right' = binary op left right := by
  simp only [binary, equality, first.equals_eq second, asNumber?, first.scalar?_eq,
    second.scalar?_eq, concatenation?, asString?, second.display_eq, invalidOperands,
    first.type_eq, second.type_eq]

end Value

/-- Arguments under the same names, with values that differ at most in lines. -/
abbrev Arguments.Relined (f : Line → Line) : Arguments → Arguments → Prop :=
  List.Forall₂ fun argument argument' =>
    argument'.1 = argument.1 ∧ Value.Relined f argument.2 argument'.2

namespace Arguments

variable {arguments arguments' : Arguments}

theorem kept_eq (given : arguments.Relined f arguments') : arguments'.kept = arguments.kept := by
  rw [kept, kept]
  induction given with
  | nil => rfl
  | cons first _ ih => rw [List.flatMap_cons, List.flatMap_cons, first.2.kept_eq, ih]

theorem firstDisplay_eq (given : arguments.Relined f arguments') :
    firstDisplay arguments' = firstDisplay arguments := by
  cases given with
  | nil => rfl
  | cons first _ => exact first.2.display_eq

end Arguments

end ScriptCore
