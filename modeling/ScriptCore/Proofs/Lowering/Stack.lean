import ScriptCore.Proofs.Lowering.Kept
import ScriptCore.Proofs.Scope.Extends

/-!
# Lowering keeps the frames of the scope

A derivation speaks of lowering that succeeds. What is said here holds of failures as well: however
a piece ends, all frames that it has entered are left again, and the frame that it started in has
only been added to.
-/
namespace ScriptCore.Lowering

open Attempt

/-- However the step ends, the scope that it leaves extends the one that it started with. -/
def Extends {α : Type} (step : Lower α) : Prop := ∀ s : State, s.scope.Extends (step s).2.scope

/-- Nothing that lowering does to a scope takes anything from it. -/
theorem kept_extends : Kept Scope.Extends where
  refl := .refl
  trans := .trans
  frame inside := by
    rw [inside.pop_eq]
    exact .refl _
  define _ _ _ := Scope.extends_define
  record _ _ _ := Scope.extends_defineType
  function _ _ _ _ := Scope.extends_defineFunction
  extension _ _ _ _ _ := Scope.extends_defineExtension

theorem extends_lowerStmts (r : Option Ty) (stmts : List Stmt) : Extends (lowerStmts r stmts) :=
  kept_extends.lowerStmts r stmts

/-- A frame that is entered is left again. -/
theorem scope_inFrame {α : Type} {step : Lower α} (h : Extends step) (s : State) :
    (inFrame step s).2.scope = s.scope := by
  have inner := h { s with scope := s.scope.push }
  simp only [inFrame]
  exact inner.pop_eq

theorem scope_lowerBlock (r : Option Ty) (line : Line) (body : List Stmt) (s : State) :
    (lowerStmt r (.block line body) s).2.scope = s.scope := by
  have left := scope_inFrame (extends_lowerStmts r body) s
  rw [lowerStmt, bind_run]
  cases ran : inFrame (lowerStmts r body) s with
  | mk result s' =>
    rw [ran] at left
    cases result with
    | ok nodes => exact left
    | error e => exact left

theorem Piece.extends_leaves (r : Option Ty) (piece : Piece) (s : State) :
    s.scope.Extends (piece.leaves r s).scope :=
  kept_extends.leaves r piece s

end ScriptCore.Lowering
