import ScriptCore.Proofs.Decimal.OfInt
import ScriptCore.Proofs.Session.Start

/-!
# Comparisons of integers

Equality compares integers themselves, an ordering compares the doubles that they are made. Both
agree for integers that have different doubles (`integers_compare_as_doubles`). Two integers with
one double are neither less nor greater than each other, although they are not equal; both of them
are at least `2 ^ 53` in magnitude.
-/
namespace ScriptCore

open Decimal (nearest)

/-- Whether a comparison or an equality holds of two integers. -/
def BinaryOp.holds (op : BinaryOp) (a b : Int) : Bool :=
  match op with
  | .lt => a < b
  | .le => a ≤ b
  | .gt => b < a
  | .ge => b ≤ a
  | .eq => a = b
  | .ne => a ≠ b
  | .add | .sub | .mul | .div => false

/-- One integer is less than, equal to or greater than another one, and it is only one of them. -/
theorem BinaryOp.count_holds (a b : Int) :
    [BinaryOp.lt.holds a b, BinaryOp.eq.holds a b, BinaryOp.gt.holds a b].count true = 1 := by
  rcases lt_trichotomy a b with less | rfl | greater
  · simp [holds, less, Int.ne_of_lt less, Int.not_lt.mpr (Int.le_of_lt less)]
  · simp [holds]
  · simp [holds, greater, Int.ne_of_gt greater, Int.not_lt.mpr (Int.le_of_lt greater)]

/-- Whether two integers are different and are made the same double. -/
def Merged (a b : Int64) : Prop := a ≠ b ∧ nearest a.toInt = nearest b.toInt

namespace Value

variable {op : BinaryOp} {a b : Int64}

theorem natAbs_toInt_lt (a : Int64) : a.toInt.natAbs < 2 ^ 64 := by
  have low := Int64.le_toInt a
  have high := Int64.toInt_lt a
  omega

/-- An ordering of integers is that of the integers that they are rounded to. -/
theorem binary_int_of_isComparison (comparison : op.isComparison = true) (a b : Int64) :
    binary op (int a) (int b) =
      .ok (boolean (op.holds (nearest a.toInt) (nearest b.toInt))) := by
  have less (a b : Int64) := Decimal.ofInt_lt_iff (natAbs_toInt_lt a) (natAbs_toInt_lt b)
  have atMost (a b : Int64) := Decimal.ofInt_le_iff (natAbs_toInt_lt a) (natAbs_toInt_lt b)
  cases op with
  | lt => exact congrArg (fun truth => Except.ok (boolean truth)) (decide_eq_decide.mpr (less a b))
  | gt => exact congrArg (fun truth => Except.ok (boolean truth)) (decide_eq_decide.mpr (less b a))
  | le =>
    exact congrArg (fun truth => Except.ok (boolean truth)) (decide_eq_decide.mpr (atMost a b))
  | ge =>
    exact congrArg (fun truth => Except.ok (boolean truth)) (decide_eq_decide.mpr (atMost b a))
  | _ => cases comparison

theorem equals_int (a b : Int64) : (int a).equals (int b) = decide (a.toInt = b.toInt) := by
  change (a == b && decide (Ty.int = Ty.int)) = decide (a.toInt = b.toInt)
  rw [decide_eq_true rfl, Bool.and_true, Bool.eq_iff_iff, beq_iff_eq, decide_eq_true_eq,
    Int64.toInt_inj]

theorem binary_int_of_isEquality (isEquality : op.isEquality = true) (a b : Int64) :
    binary op (int a) (int b) = .ok (boolean (op.holds a.toInt b.toInt)) := by
  have result : binary op (int a) (int b) = .ok (equality op (int a) (int b)) := by
    rw [binary, if_pos isEquality]
  rw [result, equality, equals_int]
  cases op with
  | eq => rfl
  | ne => simp [BinaryOp.holds]
  | _ => cases isEquality

end Value

theorem Eval.located_of_ok {α : Type} {line : Line} {env : Location} {step : Eval α}
    {m m' : Machine} {a : α} (ends : step m = (.ok a, m')) :
    located line env step m = (.ok a, m') := by
  simp only [located, ends]

namespace Interpreter

open Lowering

/-- The result of an operator is computed from the values of its operands, the left one first. -/
theorem evaluate_binary_int {interpreter : Interpreter} {fuel : Nat} {env : Location}
    {m m₁ : Machine} {op : BinaryOp} {left right : Node} {a b : Int64} {value : Value}
    (first : interpreter.evaluate fuel left env m = (.ok (.int a), m₁))
    (second : (interpreter.evaluate fuel right env m₁).1 = .ok (.int b))
    (computed : Value.binary op (.int a) (.int b) = .ok value) (tag : Tag) :
    (interpreter.evaluate (fuel + 1) (.binary tag op left right) env m).1 = .ok value := by
  -- An integer keeps no scope, so nothing more is held on to during the right operand.
  have held : (Eval.holding (Value.int a).kept (interpreter.evaluate fuel right env) m₁).1 =
      .ok (.int b) := by
    rw [Eval.holding_run]
    exact second
  rcases ran : Eval.holding (Value.int a).kept (interpreter.evaluate fuel right env) m₁ with
    ⟨result, m₂⟩
  rw [ran] at held
  cases held
  have stepped : interpreter.step fuel (interpreter.evaluate fuel) (.binary tag op left right) env
      m = (.ok value, m₂) := by
    rw [step, Attempt.bind_ok first, Attempt.bind_ok ran, Eval.ask, computed]
  rw [evaluate, Eval.located_of_ok stepped]

theorem lowerExpr_binary_int {returned : Option Ty} {s s₁ s₂ : State} {left right : Expr}
    {l r : Node} (lowersLeft : lowerExpr returned left s = (.ok l, s₁))
    (lowersRight : lowerExpr returned right s₁ = (.ok r, s₂)) (intLeft : l.type = .int)
    (intRight : r.type = .int) {op : BinaryOp}
    (ordering : (op.isComparison || op.isEquality) = true) (line : Line) :
    lowerExpr returned (.binary line op left right) s =
      (.ok (.binary ⟨.boolean, line⟩ op l r), s₂) := by
  have typed : Typing.binary line op l r = .ok (.binary ⟨.boolean, line⟩ op l r) := by
    rw [Typing.binary, intLeft, intRight]
    cases op <;> first | rfl | cases ordering
  rw [lowerExpr, Attempt.bind_ok lowersLeft, Attempt.bind_ok lowersRight, typed]
  rfl

/-- Operands of type `Int` have an ordering and an equality of type `Boolean`. If they come to
integers with different doubles, or if these are equal, then every such operation comes to its truth
value for the integers, and exactly one of `<`, `==` and `>` comes to true. If the integers are
different but have one double, then `<` and `>` come to false, and `<=` and `>=` to true; neither of
them is below `2 ^ 53` in magnitude then. -/
theorem integers_compare_as_doubles {returned : Option Ty} {s s₁ s₂ : State} {left right : Expr}
    {l r : Node} (lowersLeft : lowerExpr returned left s = (.ok l, s₁))
    (lowersRight : lowerExpr returned right s₁ = (.ok r, s₂)) (intLeft : l.type = .int)
    (intRight : r.type = .int) {interpreter : Interpreter} {fuel : Nat} {env : Location}
    {m m₁ : Machine} {a b : Int64}
    (evaluatesLeft : interpreter.evaluate fuel l env m = (.ok (.int a), m₁))
    (evaluatesRight : (interpreter.evaluate fuel r env m₁).1 = .ok (.int b)) (line : Line) :
    ∃ truth : BinaryOp → Bool,
      (∀ op, (op.isComparison || op.isEquality) = true →
        lowerExpr returned (.binary line op left right) s =
          (.ok (.binary ⟨.boolean, line⟩ op l r), s₂) ∧
        (interpreter.evaluate (fuel + 1) (.binary ⟨.boolean, line⟩ op l r) env m).1 =
          .ok (.boolean (truth op))) ∧
      (∀ op, op.isEquality = true → truth op = op.holds a.toInt b.toInt) ∧
      (¬ Merged a b → (∀ op, truth op = op.holds a.toInt b.toInt) ∧
        [truth .lt, truth .eq, truth .gt].count true = 1) ∧
      (Merged a b → truth .lt = false ∧ truth .gt = false ∧ truth .le = true ∧ truth .ge = true) ∧
      (a.toInt.natAbs < 2 ^ 53 ∨ b.toInt.natAbs < 2 ^ 53 → ¬ Merged a b) := by
  let truth : BinaryOp → Bool := fun op =>
    if op.isEquality then op.holds a.toInt b.toInt
    else op.holds (nearest a.toInt) (nearest b.toInt)
  have computed (op : BinaryOp) (ordering : (op.isComparison || op.isEquality) = true) :
      Value.binary op (.int a) (.int b) = .ok (.boolean (truth op)) := by
    cases equality : op.isEquality with
    | true => simp only [truth, equality, if_true, Value.binary_int_of_isEquality equality]
    | false =>
      rw [equality, Bool.or_false] at ordering
      simp only [truth, equality, Bool.false_eq_true, if_false,
        Value.binary_int_of_isComparison ordering]
  have distinct : a.toInt ≠ b.toInt ↔ a ≠ b := by rw [ne_eq, Int64.toInt_inj]
  refine ⟨truth, fun op ordering => ⟨?_, ?_⟩, fun op equality => ?_, fun apart => ?_,
    fun merged => ?_, fun small merged => ?_⟩
  · exact lowerExpr_binary_int lowersLeft lowersRight intLeft intRight ordering line
  · exact evaluate_binary_int evaluatesLeft evaluatesRight (computed op ordering) _
  · simp only [truth, equality, if_true]
  · have keeps : a.toInt ≠ b.toInt → nearest a.toInt ≠ nearest b.toInt :=
      fun different same => apart ⟨distinct.mp different, same⟩
    have less := Decimal.nearest_lt_iff keeps
    have greater := Decimal.nearest_lt_iff fun different same => keeps different.symm same.symm
    have agrees (op : BinaryOp) : truth op = op.holds a.toInt b.toInt := by
      cases op <;> simp only [truth, BinaryOp.isEquality, BinaryOp.holds, less, greater,
        ← Int.not_lt, Bool.false_eq_true, if_false, if_true]
    refine ⟨agrees, ?_⟩
    rw [agrees, agrees, agrees]
    exact BinaryOp.count_holds _ _
  · obtain ⟨-, same⟩ := merged
    simp only [truth, BinaryOp.isEquality, BinaryOp.holds, same, Bool.false_eq_true, if_false]
    simp
  · obtain ⟨different, same⟩ := merged
    rcases small with below | below
    · exact distinct.mpr different (Decimal.eq_of_nearest_eq below same)
    · exact distinct.mpr different (Decimal.eq_of_nearest_eq below same.symm).symm

/-- Two neighbours that have different doubles, the first one of which is rounded. -/
theorem integers_compare_as_doubles_close :
    ∃ (interpreter : Interpreter) (m : Machine) (l r : Node),
      lowerExpr none (.literal ⟨1⟩ (.scalar (.int 9007199254740993))) Session.freshLowering =
        (.ok l, Session.freshLowering) ∧
      lowerExpr none (.literal ⟨1⟩ (.scalar (.int 9007199254740994))) Session.freshLowering =
        (.ok r, Session.freshLowering) ∧ l.type = .int ∧ r.type = .int ∧
      interpreter.evaluate 1 l 0 m = (.ok (.int 9007199254740993), m) ∧
      interpreter.evaluate 1 r 0 m = (.ok (.int 9007199254740994), m) ∧
      (interpreter.evaluate 2 (.binary ⟨.boolean, ⟨1⟩⟩ .lt l r) 0 m).1 = .ok (.boolean true) := by
  let interpreter : Interpreter := ⟨0, .empty, Native.standard⟩
  let m : Machine := .fresh .silent
  let source (value : Int64) : Expr := .literal ⟨1⟩ (.scalar (.int value))
  let node (value : Int64) : Node := .literal ⟨.int, ⟨1⟩⟩ (.scalar (.int value))
  have lowers (value : Int64) : lowerExpr none (source value) Session.freshLowering =
      (.ok (node value), Session.freshLowering) := rfl
  have runs (value : Int64) : interpreter.evaluate 1 (node value) 0 m = (.ok (.int value), m) := rfl
  have compared := integers_compare_as_doubles (lowers 9007199254740993)
    (lowers 9007199254740994) rfl rfl (runs 9007199254740993)
    (congrArg Prod.fst (runs 9007199254740994)) ⟨1⟩
  obtain ⟨truth, evaluates, -, apart, -⟩ := compared
  have different : ¬Merged 9007199254740993 9007199254740994 := by
    rintro ⟨-, same⟩
    exact absurd same (by decide +kernel)
  refine ⟨interpreter, m, node 9007199254740993, node 9007199254740994, lowers _, lowers _, rfl,
    rfl, runs _, runs _, ?_⟩
  have less : BinaryOp.lt.holds (Int64.toInt 9007199254740993) (Int64.toInt 9007199254740994) =
      true := by
    decide +kernel
  have evaluated := (evaluates .lt rfl).2
  rw [(apart different).1, less] at evaluated
  exact evaluated

end Interpreter

namespace Session

/-- Two neighbours of which the greater one is rounded to the smaller one, in three orders. -/
def neighbours : List Stmt :=
  let compared (op : BinaryOp) : Stmt :=
    .expr (.binary ⟨1⟩ op (.literal ⟨1⟩ (.scalar (.int 9007199254740992)))
      (.literal ⟨1⟩ (.scalar (.int 9007199254740993))))
  [compared .lt, compared .eq, compared .gt]

theorem run_neighbours :
    (start .silent).toOption.map (fun session =>
      (run 9 neighbours session).1.toOption.map (·.map Value.display)) =
      some (some ["false", "false", "false"]) := by
  decide +kernel

/-- Of two different integers neither needs to be less than the other one. -/
theorem comparison_misses_neighbours :
    (9007199254740992 : Int64) < 9007199254740993 ∧ ∃ session, start .silent = .ok session ∧
      (run 9 neighbours session).1.toOption.map (·.map Value.display) =
        some ["false", "false", "false"] := by
  refine ⟨by decide, ?_⟩
  obtain ⟨session, started, shown⟩ := exists_start_of_computed run_neighbours
  exact ⟨session, started, shown⟩

end Session

end ScriptCore
