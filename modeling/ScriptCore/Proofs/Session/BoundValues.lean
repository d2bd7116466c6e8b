import ScriptCore.Proofs.Eval.UnitValues
import ScriptCore.Proofs.Lowering.FunctionFree
import ScriptCore.Proofs.Lowering.Statements
import ScriptCore.Proofs.Session.Closures

/-!
# The values of bindings

Without functions and calls the uses of a unit are steady, so it runs as if every variable were
checked when it is read, and its values fit their types. This says nothing of a value of type
`Unit`. A variable of this type is sure to hold `Unit` where no `if` may have put another value in
such a variable (`bindings_have_their_types`), and not otherwise (`unit_binding_holds_integer`).
-/
namespace ScriptCore

/-- Related lists are related place by place. -/
theorem exists_getElem?_of_forall₂ {α β : Type} {R : α → β → Prop} {xs : List α} {ys : List β}
    (related : List.Forall₂ R xs ys) {i : Nat} {x : α} (there : xs[i]? = some x) :
    ∃ y, ys[i]? = some y ∧ R x y := by
  obtain ⟨inside, rfl⟩ := List.getElem?_eq_some_iff.mp there
  have inside' : i < ys.length := related.length_eq ▸ inside
  exact ⟨ys[i], List.getElem?_eq_getElem inside', related.get inside inside'⟩

namespace Session

open Eval Node

variable {output : Output} {session : Session} {unit : List Stmt} {nodes : List Node}
  {values : List Value} {lowering : Lowering.State} {fuel : Nat}

theorem free_lowered (free : Stmt.areFunctionFree unit = true)
    (lowers : Lowering.lowerUnit unit session.lowering = (.ok nodes, lowering)) :
    bodyFunctionFree nodes = true :=
  (Lowering.lowers_of_lowerStmts lowers).staysFree free

/-- A binding lowers to a binding of the same variable. -/
theorem exists_bind_of_stated (compiled : (compile unit session).1 = .ok nodes) {i : Nat}
    {line : Line} {mutability : Mutability} {name : String} {typeName : Option String} {expr : Expr}
    (stated : unit[i]? = some (.bind line mutability name typeName expr)) :
    ∃ tag bound, nodes[i]? = some (.bind tag mutability name bound) := by
  obtain ⟨lowering, lowers, -⟩ := lowers_of_compile compiled 0
  obtain ⟨node, there, _, _, derived⟩ :=
    exists_getElem?_of_forall₂ (Lowering.lowers_of_lowerStmts lowers).each stated
  cases derived with
  | bind => exact ⟨_, _, there⟩

/-- The values of a unit without functions fit the types of its nodes. -/
theorem values_fit (started : start output = .ok session)
    (free : Stmt.areFunctionFree unit = true)
    (lowers : Lowering.lowerUnit unit session.lowering = (.ok nodes, lowering))
    (ran : (session.interpreter.evaluateUnit fuel nodes session.machine).1 = .ok values) :
    List.Forall₂ (fun node value => value.Fits .builtin node.type) nodes values := by
  have steady : isSteady nodes = true :=
    steady_of_bodyFunctionFree rfl (free_lowered free lowers)
  obtain ⟨same, -⟩ := evaluateUnit_lowered started lowers steady fuel
  rw [← same] at ran
  obtain ⟨_, -, -, -, fit⟩ := (runs_lowered started lowers steady fuel).of_ok rfl ran
  exact fit

/-- `Unit` is all that is bound in a fresh session. -/
theorem firm_planned (started : start output = .ok session) : (session.planned nodes).Firm := by
  have prepared := prepared_start started
  intro location frame there
  obtain rfl := prepared.only location frame there
  obtain ⟨own, here, -, expanded, -⟩ := prepared.frame
  obtain rfl : own = frame := Option.some.inj (here.symm.trans there)
  refine ⟨fun name value found => ?_, expanded⟩
  obtain ⟨rfl, rfl⟩ := prepared.value there found
  exact ⟨.unit, rfl, fun _ => rfl⟩

/-- Where no other value is put in a variable of type `Unit`, the nodes of a unit without functions
that can only yield `Unit` do so. -/
theorem units_of_keepsUnit (started : start output = .ok session)
    (free : Stmt.areFunctionFree unit = true)
    (lowers : Lowering.lowerUnit unit session.lowering = (.ok nodes, lowering))
    (ran : (session.interpreter.evaluateUnit fuel nodes session.machine).1 = .ok values)
    (keeps : KeepsUnit nodes) :
    List.Forall₂ (fun node value => node.yieldsUnit = true → value = .unit) nodes values := by
  have freeNodes := free_lowered free lowers
  have steady : isSteady nodes = true := steady_of_bodyFunctionFree rfl freeNodes
  have knows : Interpreter.KnowsUnits (session.interpreter.evaluate fuel) :=
    Interpreter.knowsUnits_evaluate fuel
  rw [evaluateUnit_eq_evaluateEach steady] at ran
  have yields := Interpreter.yields_evaluateEach knows freeNodes keeps
    (resolves_lowered started lowers steady) (firm_planned started) (stands_planned started)
  obtain ⟨_, -, -, -, units⟩ := yields.of_ok rfl ran
  exact units

/-- Every binding at the top level of a unit without functions has a value of its static type. If
that is `Unit` and no `if` may have put another value in a variable of this type, the binding is
`Unit`. -/
theorem bindings_have_their_types (started : start output = .ok session)
    (free : Stmt.areFunctionFree unit = true) (compiled : (compile unit session).1 = .ok nodes)
    (ran : (run fuel unit session).1 = .ok values) {i : Nat} {line : Line}
    {mutability : Mutability} {name : String} {typeName : Option String} {expr : Expr}
    (stated : unit[i]? = some (.bind line mutability name typeName expr)) :
    ∃ tag bound value, nodes[i]? = some (.bind tag mutability name bound) ∧
      values[i]? = some value ∧ (tag.type ≠ .unit → tag.type.accepts value.type = true) ∧
      (KeepsUnit nodes → tag.type = .unit → value = .unit) := by
  obtain ⟨tag, bound, there⟩ := exists_bind_of_stated compiled stated
  obtain ⟨lowering, lowers, same⟩ := lowers_of_compile compiled fuel
  rw [same] at ran
  have evaluated := ok_of_evaluate ran
  obtain ⟨value, result, fits⟩ :=
    exists_getElem?_of_forall₂ (values_fit started free lowers evaluated) there
  refine ⟨tag, bound, value, there, result, fits.accepted.resolve_left, fun keeps isUnit => ?_⟩
  obtain ⟨_, result', unit⟩ := exists_getElem?_of_forall₂
    (units_of_keepsUnit started free lowers evaluated keeps) there
  obtain rfl := Option.some.inj (result'.symm.trans result)
  have own := keeps _ (mem_all.mpr ⟨_, List.mem_of_getElem? there, .inl rfl⟩)
  apply unit
  rw [yieldsUnit]
  exact yieldsUnit_of_bind own isUnit

/-- `if` without an `else`, over a truth value and one statement. -/
def onlyIf (line : Line) (stmt : Stmt) : Expr :=
  .branch line (.literal line (.scalar (.boolean true))) [stmt] []

/-- A variable of type `Unit` that is assigned in a branch and read, and an `if` of type `Unit` that
gives an integer to a variable of type `Any`. -/
def unitAndAny : List Stmt :=
  [.bind ⟨1⟩ .mutable "u" none (.literal ⟨1⟩ .unit),
   .expr (onlyIf ⟨2⟩ (.expr (.assign ⟨2⟩ "u" (.literal ⟨2⟩ .unit)))),
   .bind ⟨3⟩ .immutable "v" none (.name ⟨3⟩ "u"),
   .bind ⟨4⟩ .immutable "w" (some "Any")
    (onlyIf ⟨4⟩ (.expr (.literal ⟨4⟩ (.scalar (.int 1)))))]

/-- What a unit lowers to, and the types of its values. -/
def outline (unit : List Stmt) (session : Session) :
    Option (List Ty × Bool) × Option (List Ty) :=
  ((compile unit session).1.toOption.map fun nodes =>
      (nodes.map Node.type, (all nodes).all keepsUnit),
    (run 9 unit session).1.toOption.map fun values => values.map Value.type)

theorem of_outline {types found : List Ty} {keeps : Bool}
    (outlined : outline unit session = (some (types, keeps), some found)) :
    ∃ nodes values, (compile unit session).1 = .ok nodes ∧ (run 9 unit session).1 = .ok values ∧
      nodes.map Node.type = types ∧ (all nodes).all keepsUnit = keeps ∧
      values.map Value.type = found := by
  obtain ⟨lowered, evaluated⟩ := Prod.mk.inj outlined
  cases compiled : (compile unit session).1 with
  | error error =>
    rw [compiled] at lowered
    cases lowered
  | ok nodes =>
    rw [compiled] at lowered
    obtain ⟨types, keeps⟩ := Prod.mk.inj (Option.some.inj lowered)
    cases ran : (run 9 unit session).1 with
    | error error =>
      rw [ran] at evaluated
      cases evaluated
    | ok values =>
      rw [ran] at evaluated
      exact ⟨nodes, values, rfl, rfl, types, keeps, Option.some.inj evaluated⟩

theorem computed_unitAndAny :
    (start .silent).toOption.map (outline unitAndAny) =
      some (some ([.unit, .unit, .unit, .any], true), some [.unit, .unit, .unit, .int]) := by
  decide +kernel

/-- `v` is `Unit`, which it has been given from `u`. -/
theorem bindings_have_their_types_unitAndAny :
    ∃ session nodes values tag bound, start .silent = .ok session ∧
      Stmt.areFunctionFree unitAndAny = true ∧ (compile unitAndAny session).1 = .ok nodes ∧
      (run 9 unitAndAny session).1 = .ok values ∧ KeepsUnit nodes ∧
      nodes[2]? = some (.bind tag .immutable "v" bound) ∧ tag.type = .unit ∧
      values[2]? = some .unit := by
  obtain ⟨session, started, outlined⟩ := exists_start_of_computed computed_unitAndAny
  obtain ⟨nodes, values, compiled, ran, types, keeps, -⟩ := of_outline outlined
  have free : Stmt.areFunctionFree unitAndAny = true := by decide +kernel
  have kept : KeepsUnit nodes := List.all_eq_true.mp keeps
  have stated : unitAndAny[2]? = some (.bind ⟨3⟩ .immutable "v" none (.name ⟨3⟩ "u")) := rfl
  obtain ⟨tag, bound, value, there, result, -, unit⟩ :=
    bindings_have_their_types started free compiled ran stated
  have isUnit : tag.type = .unit := by
    have third := congrArg (·[2]?) types
    simpa [there, Node.type, Node.tag] using third
  exact ⟨session, nodes, values, tag, bound, started, free, compiled, ran, kept, there, isUnit,
    unit kept isUnit ▸ result⟩

/-- A binding that takes its type and its value from an `if` with an integer. -/
def integerAsUnit : List Stmt :=
  [.bind ⟨1⟩ .immutable "x" none (onlyIf ⟨1⟩ (.expr (.literal ⟨1⟩ (.scalar (.int 1)))))]

theorem computed_integerAsUnit :
    (start .silent).toOption.map (outline integerAsUnit) =
      some (some ([.unit], false), some [.int]) := by
  decide +kernel

/-- Its type is `Unit`, and its value an `Int`. -/
theorem unit_binding_holds_integer :
    ∃ session nodes values tag bound value, start .silent = .ok session ∧
      Stmt.areFunctionFree integerAsUnit = true ∧
      (compile integerAsUnit session).1 = .ok nodes ∧ (run 9 integerAsUnit session).1 = .ok values ∧
      nodes[0]? = some (.bind tag .immutable "x" bound) ∧ values[0]? = some value ∧
      tag.type = .unit ∧ value ≠ .unit ∧ tag.type.accepts value.type = false := by
  obtain ⟨session, started, outlined⟩ := exists_start_of_computed computed_integerAsUnit
  obtain ⟨nodes, values, compiled, ran, types, -, found⟩ := of_outline outlined
  obtain ⟨value, rfl, isInt⟩ := List.map_eq_singleton_iff.mp found
  have stated : integerAsUnit[0]? = some (.bind ⟨1⟩ .immutable "x" none
    (onlyIf ⟨1⟩ (.expr (.literal ⟨1⟩ (.scalar (.int 1)))))) := rfl
  obtain ⟨tag, bound, there⟩ := exists_bind_of_stated compiled stated
  have isUnit : tag.type = .unit := by
    have first := congrArg (·[0]?) types
    simpa [there, Node.type, Node.tag] using first
  refine ⟨session, nodes, [value], tag, bound, value, started, by decide +kernel, compiled, ran,
    there, rfl, isUnit, ?_, ?_⟩
  · rintro rfl
    exact absurd isInt (by decide)
  · rw [isUnit, isInt]
    decide

end Session

end ScriptCore
