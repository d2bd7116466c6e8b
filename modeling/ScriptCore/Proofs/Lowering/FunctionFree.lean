import ScriptCore.Proofs.Lowering.Derivation
import ScriptCore.Proofs.Lowering.Rules
import ScriptCore.Proofs.Node.FunctionFree

/-!
# Units without functions

A unit of declarations, assignments, expressions, blocks and loops, over literals, names, operators
and branches, lowers to nodes of the same kinds. Its uses of variables are steady, since no function
captures a scope.
-/
namespace ScriptCore

mutual

/-- Literals, names, assignments, operators and branches. -/
def Expr.isFunctionFree : Expr → Bool
  | .literal _ _ | .name _ _ => true
  | .group _ inner => inner.isFunctionFree
  | .assign _ _ value => value.isFunctionFree
  | .unary _ _ right => right.isFunctionFree
  | .binary _ _ left right | .logical _ _ left right =>
    left.isFunctionFree && right.isFunctionFree
  | .branch _ condition whenTrue whenFalse =>
    condition.isFunctionFree && Stmt.areFunctionFree whenTrue && Stmt.areFunctionFree whenFalse
  | .this _ | .get _ _ _ | .set _ _ _ _ | .call _ _ _ | .function _ _ _ _ _ | .anonymous _ _ _
  | .native _ _ _ => false

/-- Declarations of variables, expressions, blocks and loops. -/
def Stmt.isFunctionFree : Stmt → Bool
  | .expr value | .bind _ _ _ _ value => value.isFunctionFree
  | .block _ body => Stmt.areFunctionFree body
  | .loop _ condition body => condition.isFunctionFree && Stmt.areFunctionFree body
  | .returns _ _ | .useModule _ _ | .openModule _ _ | .record _ _ _ => false

def Stmt.areFunctionFree : List Stmt → Bool
  | [] => true
  | stmt :: rest => stmt.isFunctionFree && Stmt.areFunctionFree rest

end

namespace Lowering

open Node

/-- What a piece without functions lowers to. -/
def Piece.StaysFree (nodes : List Node) : Piece → Prop
  | .expr value => value.isFunctionFree = true → ∀ node ∈ nodes, node.isFunctionFree = true
  | .exprs _ => True
  | .stmt value => value.isFunctionFree = true → ∀ rest, bodyFunctionFree rest = true →
    bodyFunctionFree (nodes ++ rest) = true
  | .stmts body => Stmt.areFunctionFree body = true → bodyFunctionFree nodes = true

theorem staysFree_expr {expr : Expr} {node : Node} :
    Piece.StaysFree [node] (.expr expr) ↔
      (expr.isFunctionFree = true → node.isFunctionFree = true) :=
  imp_congr_right fun _ => List.forall_mem_singleton

/-- An expression that is free stands as a statement. -/
theorem bodyFunctionFree_of_node {node : Node} {rest : List Node}
    (free : node.isFunctionFree = true) (others : bodyFunctionFree rest = true) :
    bodyFunctionFree (node :: rest) = true := by
  have declares : binds node = [] := by
    cases node with
    | bind =>
      rw [isFunctionFree] at free
      cases free
    | _ => rfl
  rw [bodyFunctionFree_cons declares, free, others, Bool.and_true]

/-- A piece without functions lowers to nodes without functions. -/
theorem Lowers.staysFree {r : Option Ty} {s s' : State} {piece : Piece} {nodes : List Node}
    (h : Lowers r s piece nodes s') : piece.StaysFree nodes := by
  induction h with
  | literal => exact staysFree_expr.mpr fun _ => by rw [isFunctionFree]
  | name resolved =>
    refine staysFree_expr.mpr fun _ => ?_
    rcases Scope.resolveName_eq_ok.mp resolved with ⟨_, -, rfl⟩ | ⟨_, _, _, -, -, rfl⟩ <;>
      rw [isFunctionFree]
  | group _ ih =>
    intro free
    rw [Expr.isFunctionFree] at free
    exact ih free
  | assign _ _ typed ih =>
    refine staysFree_expr.mpr fun free => ?_
    rw [Expr.isFunctionFree] at free
    obtain ⟨-, rfl⟩ := Typing.assign_eq_ok.mp typed
    rw [Node.isFunctionFree]
    exact staysFree_expr.mp ih free
  | @unary _ _ _ _ op _ _ _ _ typed ih =>
    refine staysFree_expr.mpr fun free => ?_
    rw [Expr.isFunctionFree] at free
    have right := staysFree_expr.mp ih free
    cases op with
    | neg =>
      obtain ⟨-, rfl⟩ := Typing.neg_eq_ok.mp typed
      rwa [Node.isFunctionFree]
    | not =>
      obtain ⟨-, rfl⟩ := Typing.not_eq_ok.mp typed
      rwa [Node.isFunctionFree]
  | binary _ _ typed ihLeft ihRight =>
    refine staysFree_expr.mpr fun free => ?_
    rw [Expr.isFunctionFree, Bool.and_eq_true] at free
    obtain ⟨_, -, rfl⟩ := Typing.binary_eq_ok.mp typed
    rw [Node.isFunctionFree, Bool.and_eq_true]
    exact ⟨staysFree_expr.mp ihLeft free.1, staysFree_expr.mp ihRight free.2⟩
  | logical _ _ typed ihLeft ihRight =>
    refine staysFree_expr.mpr fun free => ?_
    rw [Expr.isFunctionFree, Bool.and_eq_true] at free
    obtain ⟨-, -, rfl⟩ := Typing.logical_eq_ok.mp typed
    rw [Node.isFunctionFree, Bool.and_eq_true]
    exact ⟨staysFree_expr.mp ihLeft free.1, staysFree_expr.mp ihRight free.2⟩
  | branch _ _ _ _ typed ihTest ihTrue ihFalse =>
    refine staysFree_expr.mpr fun free => ?_
    simp only [Expr.isFunctionFree, Bool.and_eq_true] at free
    obtain ⟨_, -, rfl⟩ := Typing.branch_eq_ok.mp typed
    simp only [Node.isFunctionFree, Bool.and_eq_true]
    exact ⟨⟨staysFree_expr.mp ihTest free.1.1, ihTrue free.1.2⟩, ihFalse free.2⟩
  | this | get | set | callMethod | callName | callValue | function | anonymous | native =>
    intro free
    rw [Expr.isFunctionFree] at free
    cases free
  | noExprs | moreExprs => trivial
  | expr _ ih =>
    intro free rest others
    rw [Stmt.isFunctionFree] at free
    exact bodyFunctionFree_of_node (staysFree_expr.mp ih free) others
  | block _ ih =>
    intro free rest others
    rw [Stmt.isFunctionFree] at free
    refine bodyFunctionFree_of_node ?_ others
    rw [Node.isFunctionFree]
    exact ih free
  | loop _ _ _ ihTest ih =>
    intro free rest others
    rw [Stmt.isFunctionFree, Bool.and_eq_true] at free
    refine bodyFunctionFree_of_node ?_ others
    rw [Node.isFunctionFree, Bool.and_eq_true]
    exact ⟨staysFree_expr.mp ihTest free.1, ih free.2⟩
  | bind _ _ ih =>
    intro free rest others
    rw [Stmt.isFunctionFree] at free
    change bodyFunctionFree (.bind _ _ _ _ :: rest) = true
    rw [bodyFunctionFree, others, Bool.and_true]
    exact staysFree_expr.mp ih free
  | returns | useModule | openModule | record =>
    intro free
    rw [Stmt.isFunctionFree] at free
    cases free
  | noStmts => exact fun _ => by rw [bodyFunctionFree]
  | moreStmts _ _ ihHead ihTail =>
    intro free
    rw [Stmt.areFunctionFree, Bool.and_eq_true] at free
    exact ihHead free.1 _ (ihTail free.2)

end Lowering

end ScriptCore
