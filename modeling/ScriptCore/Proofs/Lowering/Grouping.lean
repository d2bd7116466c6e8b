import ScriptCore.Proofs.Lowering.Derivation

/-!
# Groupings

A grouping has a line of its own and lowers to what stands inside of it. A call looks at the form of
its callee, and a name or a field in a grouping is a value there. Wherever else a grouping stands,
it can be left out: no node, no error and no declaration tells of it (`grouping_is_transparent`).
-/
namespace ScriptCore

mutual

/-- The expression without its groupings, except for those that are called. -/
def Expr.ungroup : Expr → Expr
  | .literal line value => .literal line value
  | .name line name => .name line name
  | .this line => .this line
  | .group _ inner => inner.ungroup
  | .assign line name value => .assign line name value.ungroup
  | .unary line op right => .unary line op right.ungroup
  | .binary line op left right => .binary line op left.ungroup right.ungroup
  | .logical line op left right => .logical line op left.ungroup right.ungroup
  | .get line receiver name => .get line receiver.ungroup name
  | .set line receiver name value => .set line receiver.ungroup name value.ungroup
  | .call line (.group groupLine inner) arguments =>
    .call line (.group groupLine inner.ungroup) (Expr.ungroupAll arguments)
  | .call line callee arguments => .call line callee.ungroup (Expr.ungroupAll arguments)
  | .branch line condition whenTrue whenFalse =>
    .branch line condition.ungroup (Stmt.ungroupAll whenTrue) (Stmt.ungroupAll whenFalse)
  | .function line receiver name signature body =>
    .function line receiver name signature (Stmt.ungroupAll body)
  | .anonymous line signature body => .anonymous line signature (Stmt.ungroupAll body)
  | .native line name signature => .native line name signature

def Expr.ungroupAll : List Expr → List Expr
  | [] => []
  | expr :: rest => expr.ungroup :: Expr.ungroupAll rest

/-- The statement without its groupings, except for those that are called. -/
def Stmt.ungroup : Stmt → Stmt
  | .expr value => .expr value.ungroup
  | .block line body => .block line (Stmt.ungroupAll body)
  | .loop line condition body => .loop line condition.ungroup (Stmt.ungroupAll body)
  | .returns line value => .returns line value.ungroup
  | .bind line mutability name typeName value => .bind line mutability name typeName value.ungroup
  | .useModule line name => .useModule line name
  | .openModule line name => .openModule line name
  | .record line name fields => .record line name fields

def Stmt.ungroupAll : List Stmt → List Stmt
  | [] => []
  | stmt :: rest => stmt.ungroup :: Stmt.ungroupAll rest

end

mutual

/-- Whether a grouping stands in the expression, other than as the callee of a call. -/
def Expr.hasGroup : Expr → Bool
  | .group _ _ => true
  | .literal _ _ | .name _ _ | .this _ | .native _ _ _ => false
  | .assign _ _ value | .unary _ _ value | .get _ value _ => value.hasGroup
  | .binary _ _ left right | .logical _ _ left right | .set _ left _ right =>
    left.hasGroup || right.hasGroup
  | .call _ (.group _ inner) arguments => inner.hasGroup || Expr.anyHasGroup arguments
  | .call _ callee arguments => callee.hasGroup || Expr.anyHasGroup arguments
  | .branch _ condition whenTrue whenFalse =>
    condition.hasGroup || Stmt.anyHasGroup whenTrue || Stmt.anyHasGroup whenFalse
  | .function _ _ _ _ body | .anonymous _ _ body => Stmt.anyHasGroup body

def Expr.anyHasGroup : List Expr → Bool
  | [] => false
  | expr :: rest => expr.hasGroup || Expr.anyHasGroup rest

def Stmt.hasGroup : Stmt → Bool
  | .expr value | .returns _ value | .bind _ _ _ _ value => value.hasGroup
  | .block _ body => Stmt.anyHasGroup body
  | .loop _ condition body => condition.hasGroup || Stmt.anyHasGroup body
  | .useModule _ _ | .openModule _ _ | .record _ _ _ => false

def Stmt.anyHasGroup : List Stmt → Bool
  | [] => false
  | stmt :: rest => stmt.hasGroup || Stmt.anyHasGroup rest

end

section Callees

variable {line : Line} {callee : Expr} {arguments : List Expr}

theorem Expr.ungroup_call (ungrouped : ∀ line inner, callee ≠ .group line inner) :
    (Expr.call line callee arguments).ungroup =
      .call line callee.ungroup (Expr.ungroupAll arguments) := by
  rw [Expr.ungroup]
  exact ungrouped

theorem Expr.hasGroup_call (ungrouped : ∀ line inner, callee ≠ .group line inner) :
    (Expr.call line callee arguments).hasGroup =
      (callee.hasGroup || Expr.anyHasGroup arguments) := by
  rw [Expr.hasGroup]
  exact ungrouped

/-- A call stays a call, whatever its callee. -/
theorem Expr.exists_ungroup_call : ∃ called,
    (Expr.call line callee arguments).ungroup =
      .call line called (Expr.ungroupAll arguments) := by
  by_cases grouped : ∃ groupLine inner, callee = .group groupLine inner
  · obtain ⟨groupLine, inner, rfl⟩ := grouped
    exact ⟨_, by rw [Expr.ungroup]⟩
  · exact ⟨_, ungroup_call fun groupLine inner same => grouped ⟨groupLine, inner, same⟩⟩

/-- Only a field is a field without its groupings. -/
theorem Expr.ungroup_ne_get (ungrouped : ∀ line inner, callee ≠ .group line inner)
    (other : ∀ line receiver name, callee ≠ .get line receiver name) :
    ∀ line receiver name, callee.ungroup ≠ .get line receiver name := by
  intro line receiver name
  cases callee with
  | group groupLine inner => exact absurd rfl (ungrouped groupLine inner)
  | get getLine inner field => exact absurd rfl (other getLine inner field)
  | call =>
    obtain ⟨called, same⟩ := Expr.exists_ungroup_call
    rw [same]
    nofun
  | _ => rw [Expr.ungroup]; nofun

/-- Only a name is a name without its groupings. -/
theorem Expr.ungroup_ne_name (ungrouped : ∀ line inner, callee ≠ .group line inner)
    (other : ∀ line name, callee ≠ .name line name) :
    ∀ line name, callee.ungroup ≠ .name line name := by
  intro line name
  cases callee with
  | group groupLine inner => exact absurd rfl (ungrouped groupLine inner)
  | name nameLine own => exact absurd rfl (other nameLine own)
  | call =>
    obtain ⟨called, same⟩ := Expr.exists_ungroup_call
    rw [same]
    nofun
  | _ => rw [Expr.ungroup]; nofun

end Callees

section Complete

mutual

/-- No grouping is left but those that are called. -/
theorem Expr.hasGroup_ungroup (e : Expr) : e.ungroup.hasGroup = false := by
  match e with
  | .literal _ _ | .name _ _ | .this _ | .native _ _ _ => rw [Expr.ungroup, Expr.hasGroup]
  | .group _ inner =>
    rw [Expr.ungroup]
    exact Expr.hasGroup_ungroup inner
  | .assign _ _ value | .unary _ _ value | .get _ value _ =>
    rw [Expr.ungroup, Expr.hasGroup]
    exact Expr.hasGroup_ungroup value
  | .binary _ _ left right | .logical _ _ left right | .set _ left _ right =>
    rw [Expr.ungroup, Expr.hasGroup, Expr.hasGroup_ungroup left, Expr.hasGroup_ungroup right,
      Bool.or_false]
  | .call line callee arguments =>
    have given := Expr.anyHasGroup_ungroupAll arguments
    by_cases grouped : ∃ groupLine inner, callee = .group groupLine inner
    · obtain ⟨groupLine, inner, rfl⟩ := grouped
      rw [Expr.ungroup, Expr.hasGroup, Expr.hasGroup_ungroup inner, given, Bool.or_false]
    · have ungrouped : ∀ groupLine inner, callee ≠ .group groupLine inner :=
        fun groupLine inner same => grouped ⟨groupLine, inner, same⟩
      have called := Expr.hasGroup_ungroup callee
      have left : ∀ groupLine inner, callee.ungroup ≠ .group groupLine inner := by
        intro groupLine inner same
        rw [same, Expr.hasGroup] at called
        cases called
      rw [Expr.ungroup_call ungrouped, Expr.hasGroup_call left, called, given, Bool.or_false]
  | .branch _ condition whenTrue whenFalse =>
    rw [Expr.ungroup, Expr.hasGroup, Expr.hasGroup_ungroup condition,
      Stmt.anyHasGroup_ungroupAll whenTrue, Stmt.anyHasGroup_ungroupAll whenFalse, Bool.or_false,
      Bool.or_false]
  | .function _ _ _ _ body | .anonymous _ _ body =>
    rw [Expr.ungroup, Expr.hasGroup]
    exact Stmt.anyHasGroup_ungroupAll body

theorem Expr.anyHasGroup_ungroupAll (es : List Expr) :
    Expr.anyHasGroup (Expr.ungroupAll es) = false := by
  match es with
  | [] => rw [Expr.ungroupAll, Expr.anyHasGroup]
  | e :: rest =>
    rw [Expr.ungroupAll, Expr.anyHasGroup, Expr.hasGroup_ungroup e,
      Expr.anyHasGroup_ungroupAll rest, Bool.or_false]

theorem Stmt.hasGroup_ungroup (stmt : Stmt) : stmt.ungroup.hasGroup = false := by
  match stmt with
  | .expr value | .returns _ value | .bind _ _ _ _ value =>
    rw [Stmt.ungroup, Stmt.hasGroup]
    exact Expr.hasGroup_ungroup value
  | .block _ body =>
    rw [Stmt.ungroup, Stmt.hasGroup]
    exact Stmt.anyHasGroup_ungroupAll body
  | .loop _ condition body =>
    rw [Stmt.ungroup, Stmt.hasGroup, Expr.hasGroup_ungroup condition,
      Stmt.anyHasGroup_ungroupAll body, Bool.or_false]
  | .useModule _ _ | .openModule _ _ | .record _ _ _ => rw [Stmt.ungroup, Stmt.hasGroup]

theorem Stmt.anyHasGroup_ungroupAll (stmts : List Stmt) :
    Stmt.anyHasGroup (Stmt.ungroupAll stmts) = false := by
  match stmts with
  | [] => rw [Stmt.ungroupAll, Stmt.anyHasGroup]
  | stmt :: rest =>
    rw [Stmt.ungroupAll, Stmt.anyHasGroup, Stmt.hasGroup_ungroup stmt,
      Stmt.anyHasGroup_ungroupAll rest, Bool.or_false]

end

end Complete

namespace Lowering

/-- What is called in a grouping is lowered as a value, also a name or a field. -/
theorem lowerExpr_callGroup {r : Option Ty} {line groupLine : Line} {inner : Expr}
    {arguments : List Expr} :
    lowerExpr r (.call line (.group groupLine inner) arguments) = (do
      let arguments ← lowerExprs r arguments
      let callee ← lowerExpr r inner
      let callee ← Attempt.ofExcept (Callee.ofNode callee)
      Attempt.ofExcept (Typing.call line callee arguments)) := by
  have method : ∀ line receiver name, Expr.group groupLine inner ≠ .get line receiver name := nofun
  have named : ∀ line name, Expr.group groupLine inner ≠ .name line name := nofun
  rw [lowerExpr_callOther method named, lowerExpr]

mutual

/-- An expression lowers to the same without its groupings. -/
theorem lowerExpr_ungroup (r : Option Ty) (e : Expr) : lowerExpr r e.ungroup = lowerExpr r e := by
  match e with
  | .literal _ _ | .name _ _ | .this _ | .native _ _ _ => rw [Expr.ungroup]
  | .group _ inner =>
    rw [Expr.ungroup, lowerExpr]
    exact lowerExpr_ungroup r inner
  | .assign _ _ value | .unary _ _ value | .get _ value _ =>
    rw [Expr.ungroup, lowerExpr, lowerExpr, lowerExpr_ungroup r value]
  | .binary _ _ left right | .logical _ _ left right | .set _ left _ right =>
    rw [Expr.ungroup, lowerExpr, lowerExpr, lowerExpr_ungroup r left, lowerExpr_ungroup r right]
  | .call line callee arguments =>
    have given := lowerExprs_ungroupAll r arguments
    by_cases grouped : ∃ groupLine inner, callee = .group groupLine inner
    · -- what is called stays in its grouping, and is a value in both trees
      obtain ⟨groupLine, inner, rfl⟩ := grouped
      rw [Expr.ungroup, lowerExpr_callGroup, lowerExpr_callGroup, given, lowerExpr_ungroup r inner]
    have ungrouped : ∀ groupLine inner, callee ≠ .group groupLine inner :=
      fun groupLine inner same => grouped ⟨groupLine, inner, same⟩
    rw [Expr.ungroup_call ungrouped]
    rcases callee_cases callee with
      ⟨getLine, receiver, name, rfl⟩ | ⟨nameLine, name, rfl⟩ | ⟨method, named⟩
    · rw [Expr.ungroup, lowerExpr, lowerExpr, lowerExpr_ungroup r receiver, given]
    · rw [Expr.ungroup, lowerExpr, lowerExpr, given]
    · rw [lowerExpr_callOther method named,
        lowerExpr_callOther (Expr.ungroup_ne_get ungrouped method)
          (Expr.ungroup_ne_name ungrouped named), given, lowerExpr_ungroup r callee]
  | .branch _ condition whenTrue whenFalse =>
    rw [Expr.ungroup, lowerExpr, lowerExpr, lowerExpr_ungroup r condition,
      lowerStmts_ungroupAll r whenTrue, lowerStmts_ungroupAll r whenFalse]
  | .function line receiver name signature body =>
    rw [Expr.ungroup, lowerExpr, lowerExpr]
    simp only [lowerStmts_ungroupAll _ body]
  | .anonymous line signature body =>
    rw [Expr.ungroup, lowerExpr, lowerExpr]
    simp only [lowerStmts_ungroupAll _ body]

theorem lowerExprs_ungroupAll (r : Option Ty) (es : List Expr) :
    lowerExprs r (Expr.ungroupAll es) = lowerExprs r es := by
  match es with
  | [] => rw [Expr.ungroupAll]
  | e :: rest =>
    rw [Expr.ungroupAll, lowerExprs, lowerExprs, lowerExpr_ungroup r e,
      lowerExprs_ungroupAll r rest]

theorem lowerStmt_ungroup (r : Option Ty) (stmt : Stmt) :
    lowerStmt r stmt.ungroup = lowerStmt r stmt := by
  match stmt with
  | .expr value | .returns _ value | .bind _ _ _ _ value =>
    rw [Stmt.ungroup, lowerStmt, lowerStmt, lowerExpr_ungroup r value]
  | .block _ body => rw [Stmt.ungroup, lowerStmt, lowerStmt, lowerStmts_ungroupAll r body]
  | .loop _ condition body =>
    rw [Stmt.ungroup, lowerStmt, lowerStmt, lowerExpr_ungroup r condition,
      lowerStmts_ungroupAll r body]
  | .useModule _ _ | .openModule _ _ | .record _ _ _ => rw [Stmt.ungroup]

/-- Statements lower to the same without their groupings. -/
theorem lowerStmts_ungroupAll (r : Option Ty) (stmts : List Stmt) :
    lowerStmts r (Stmt.ungroupAll stmts) = lowerStmts r stmts := by
  match stmts with
  | [] => rw [Stmt.ungroupAll]
  | stmt :: rest =>
    rw [Stmt.ungroupAll, lowerStmts, lowerStmts, lowerStmt_ungroup r stmt,
      lowerStmts_ungroupAll r rest]

end

/-- Leave out every grouping of a unit but those that are called. Then no other grouping is left, at
any depth, and against every scope the unit lowers as before: to the same nodes, on the same lines,
or with the same error, and to the same scope. -/
theorem grouping_is_transparent (unit : List Stmt) :
    Stmt.anyHasGroup (Stmt.ungroupAll unit) = false ∧
      ∀ s : State, lowerUnit (Stmt.ungroupAll unit) s = lowerUnit unit s := by
  refine ⟨Stmt.anyHasGroup_ungroupAll unit, fun s => ?_⟩
  rw [lowerUnit, lowerUnit, lowerStmts_ungroupAll]

/-- A function and a variable of one name, and a call of what `callee` stands for. -/
def callingEither (callee : Expr) : List Stmt :=
  [.expr (.native ⟨1⟩ "f" ⟨[], none⟩),
    .bind ⟨2⟩ .immutable "f" none (.literal ⟨2⟩ (.scalar (.int 1))),
    .expr (.call ⟨3⟩ callee [])]

/-- A call of the name finds the function, and a call of the name in a grouping the variable. -/
example :
    (lowerUnit (callingEither (.name ⟨3⟩ "f")) ⟨.builtins, 0⟩).1.isOk = true ∧
      (lowerUnit (callingEither (.group ⟨3⟩ (.name ⟨3⟩ "f"))) ⟨.builtins, 0⟩).1.isOk = false := by
  decide +kernel

end Lowering

end ScriptCore
