import ScriptCore.Proofs.Eval.Evolution
import ScriptCore.Proofs.Lowering.Derivation
import ScriptCore.Proofs.Lowering.Rules
import ScriptCore.Proofs.Node.Parts

/-!
# Statements stand in bodies

An expression lowers to a node that declares no variable, opens no scope of its own for statements
and deals with no module. So no operand of a lowered node is such a statement: statements stand in
bodies, and a body is evaluated in a scope of its own, or it is a unit.
-/
namespace ScriptCore

/-- The module that a statement opens. -/
def Stmt.opens? : Stmt → Option String
  | .openModule _ name => some name
  | _ => none

namespace Node

/-- The module that a node opens. -/
def opens? : Node → Option String
  | openModule _ name => some name
  | _ => none

/-- Whether a node comes from a statement that is no expression. -/
def isStatement : Node → Bool
  | bind _ _ _ _ | returns _ _ | block _ _ | loop _ _ _ | record _ _ | openModule _ _
  | useModule _ _ => true
  | _ => false

/-- No node of the body, at any depth, has a statement as an operand. -/
def Plain (body : List Node) : Prop :=
  ∀ node ∈ all body, ∀ operand ∈ node.operands, operand.isStatement = false

variable {node : Node} {body first second rest : List Node}

theorem opens?_of_expression (expression : node.isStatement = false) : node.opens? = none := by
  cases node with
  | openModule => cases expression
  | _ => rfl

theorem plain_nil : Plain [] := nofun

theorem plain_cons : Plain (node :: rest) ↔ Plain [node] ∧ Plain rest := forall_all_cons

theorem plain_append : Plain (first ++ second) ↔ Plain first ∧ Plain second := forall_all_append

theorem plain_singleton :
    Plain [node] ↔ (∀ operand ∈ node.operands, operand.isStatement = false) ∧ Plain node.parts :=
  forall_all_singleton

theorem Plain.of_mem (plain : Plain body) (mem : node ∈ body) : Plain [node] :=
  forall_all_of_mem plain mem

/-- The operands of a node are among its parts. -/
theorem operands_subset_parts (node : Node) : node.operands ⊆ node.parts := by
  cases node with
  | loop | branch => exact List.cons_subset_cons _ (List.nil_subset _)
  | _ => first | exact List.Subset.refl _ | exact List.nil_subset _

theorem Plain.operand (plain : Plain [node]) {operand : Node} (mem : operand ∈ node.operands) :
    Plain [operand] ∧ operand.isStatement = false := by
  obtain ⟨own, below⟩ := plain_singleton.mp plain
  exact ⟨below.of_mem (operands_subset_parts node mem), own operand mem⟩

/-- Expressions without statements among their operands. -/
structure Expressions (body : List Node) : Prop where
  plain : Plain body
  none : ∀ node ∈ body, node.isStatement = false

theorem expressions_nil : Expressions [] := ⟨plain_nil, nofun⟩

theorem Expressions.append (before : Expressions first) (behind : Expressions second) :
    Expressions (first ++ second) :=
  ⟨plain_append.mpr ⟨before.plain, behind.plain⟩,
    List.forall_mem_append.mpr ⟨before.none, behind.none⟩⟩

/-- A node that has expressions alone below it. -/
theorem Expressions.above (below : Expressions body) (parts : node.parts = body) :
    Plain [node] := by
  subst parts
  exact plain_singleton.mpr
    ⟨fun operand mem => below.none operand (operands_subset_parts node mem), below.plain⟩

theorem expressions_singleton (plain : Plain [node]) (expression : node.isStatement = false) :
    Expressions [node] :=
  ⟨plain, List.forall_mem_singleton.mpr expression⟩

theorem Expressions.expression (below : Expressions body) (parts : node.parts = body)
    (expression : node.isStatement = false) : Expressions [node] :=
  expressions_singleton (below.above parts) expression

/-- A node that has a condition and bodies below it. -/
theorem Expressions.test {condition : Node} (test : Expressions [condition]) (plain : Plain body)
    (operands : node.operands = [condition]) (parts : node.parts = condition :: body) :
    Plain [node] := by
  refine plain_singleton.mpr ⟨?_, ?_⟩
  · rw [operands]
    exact test.none
  · rw [parts]
    exact plain_cons.mpr ⟨test.plain, plain⟩

end Node

namespace Lowering

open Node

/-- What a piece lowers to: expressions, or any nodes without statements among their operands. -/
def Piece.Makes : Piece → List Node → Prop
  | .expr _, nodes | .exprs _, nodes => Expressions nodes
  | .stmt _, nodes | .stmts _, nodes => Plain nodes

theorem expressions_call {line : Line} {callee : Callee} {arguments : List Node} {node : Node}
    (typed : Typing.call line callee arguments = .ok node)
    (called : Expressions [callee.node]) (given : Expressions arguments) : Expressions [node] := by
  obtain ⟨arity, -, rfl⟩ := Typing.call_eq_ok.mp typed
  have values : ((Parameters.names callee.type.parameters).zip arguments).map Prod.snd =
      arguments :=
    List.map_snd_zip (by simp [Parameters.names, arity])
  exact (called.append given).expression (by rw [parts, values]; rfl) rfl

theorem Lowers.makes {r : Option Ty} {s s' : State} {piece : Piece} {nodes : List Node}
    (h : Lowers r s piece nodes s') : piece.Makes nodes := by
  have leaf {node : Node} (parts : node.parts = []) (expression : node.isStatement = false) :
      Expressions [node] :=
    expressions_nil.expression parts expression
  induction h with
  | literal | this | native => exact leaf rfl rfl
  | name resolved =>
    rcases Scope.resolveName_eq_ok.mp resolved with ⟨_, -, rfl⟩ | ⟨_, _, _, -, -, rfl⟩
    all_goals exact leaf rfl rfl
  | group _ ih => exact ih
  | assign _ _ typed ih =>
    obtain ⟨-, rfl⟩ := Typing.assign_eq_ok.mp typed
    exact Expressions.expression ih rfl rfl
  | @unary _ _ _ _ op _ _ _ _ typed ih =>
    cases op with
    | neg =>
      obtain ⟨-, rfl⟩ := Typing.neg_eq_ok.mp typed
      exact Expressions.expression ih rfl rfl
    | not =>
      obtain ⟨-, rfl⟩ := Typing.not_eq_ok.mp typed
      exact Expressions.expression ih rfl rfl
  | binary _ _ typed ihLeft ihRight =>
    obtain ⟨_, -, rfl⟩ := Typing.binary_eq_ok.mp typed
    exact (Expressions.append ihLeft ihRight).expression rfl rfl
  | logical _ _ typed ihLeft ihRight =>
    obtain ⟨-, -, rfl⟩ := Typing.logical_eq_ok.mp typed
    exact (Expressions.append ihLeft ihRight).expression rfl rfl
  | get _ _ ih => exact Expressions.expression ih rfl rfl
  | set _ _ _ typed ihReceiver ihValue =>
    obtain ⟨-, rfl⟩ := Typing.setField_eq_ok.mp typed
    exact (Expressions.append ihReceiver ihValue).expression rfl rfl
  | callMethod _ _ resolved typed ihReceiver ihArguments =>
    obtain ⟨_, -, rfl⟩ := Scope.resolveMethod_eq_ok.mp resolved
    exact expressions_call typed (leaf rfl rfl) (Expressions.append ihReceiver ihArguments)
  | callName _ resolved typed ih =>
    refine expressions_call typed ?_ ih
    rcases Scope.resolveCallee_eq_ok.mp resolved with ⟨_, -, rfl⟩ | ⟨_, -, -, rfl⟩
    all_goals exact leaf rfl rfl
  | callValue _ _ _ _ callable typed ihArguments ihCallee =>
    obtain ⟨_, -, rfl⟩ := Callee.ofNode_eq_ok.mp callable
    exact expressions_call typed ihCallee ihArguments
  | branch _ _ _ _ typed ihTest ihTrue ihFalse =>
    obtain ⟨_, -, rfl⟩ := Typing.branch_eq_ok.mp typed
    have bodies := plain_append.mpr ⟨ihTrue, ihFalse⟩
    exact expressions_singleton (Expressions.test ihTest bodies rfl rfl) rfl
  | function _ _ _ complete ih =>
    refine expressions_singleton (plain_singleton.mpr ⟨nofun, ?_⟩) rfl
    obtain ⟨-, rfl⟩ := completeBody_eq_ok.mp complete
    split
    · have last : Plain [syntheticReturn] := (leaf rfl rfl : Expressions [_]).above rfl
      exact plain_append.mpr ⟨ih, last⟩
    · exact ih
  | anonymous _ _ _ ih => exact expressions_singleton (plain_singleton.mpr ⟨nofun, ih⟩) rfl
  | noExprs => exact expressions_nil
  | moreExprs _ _ ihHead ihTail => exact Expressions.append ihHead ihTail
  | expr _ ih => exact Expressions.plain ih
  | block _ ih => exact plain_singleton.mpr ⟨nofun, ih⟩
  | loop _ _ _ ihTest ihBody => exact Expressions.test ihTest ihBody rfl rfl
  | returns _ typed ih =>
    obtain ⟨-, rfl⟩ := Typing.returns_eq_ok.mp typed
    exact Expressions.above ih rfl
  | bind _ _ ih => exact Expressions.above ih rfl
  | useModule | openModule | record => exact plain_singleton.mpr ⟨nofun, plain_nil⟩
  | noStmts => exact plain_nil
  | moreStmts _ _ ihHead ihTail => exact plain_cons.mpr ⟨ihHead, ihTail⟩

/-- No operand of a node of a unit is a statement. -/
theorem plain_lowerUnit {unit : List Stmt} {s s' : State} {nodes : List Node}
    (lowered : lowerUnit unit s = (.ok nodes, s')) : Plain nodes :=
  (lowers_of_lowerStmts lowered).makes

theorem Lowers.opens_stmt {r : Option Ty} {s s' : State} {stmt : Stmt} {node : Node}
    (h : Lowers r s (.stmt stmt) [node] s') : node.opens? = stmt.opens? := by
  cases h with
  | expr lowered =>
    have expression : node.isStatement = false := lowered.makes.none node List.mem_cons_self
    exact opens?_of_expression expression
  | returns _ typed =>
    obtain ⟨-, rfl⟩ := Typing.returns_eq_ok.mp typed
    rfl
  | block | loop | bind | useModule | openModule | record => rfl

/-- The nodes of statements open the same modules as the statements do. -/
theorem Lowers.opens {r : Option Ty} {s s' : State} {stmts : List Stmt} {nodes : List Node}
    (h : Lowers r s (.stmts stmts) nodes s') :
    nodes.filterMap Node.opens? = stmts.filterMap Stmt.opens? := by
  induction stmts generalizing s nodes with
  | nil =>
    cases h
    rfl
  | cons stmt rest ih =>
    cases h with
    | moreStmts head tail => rw [List.filterMap_cons, List.filterMap_cons, head.opens_stmt, ih tail]

/-- Each statement of a body lowers to one node. -/
theorem Lowers.each {r : Option Ty} {s s' : State} {stmts : List Stmt} {nodes : List Node}
    (h : Lowers r s (.stmts stmts) nodes s') :
    List.Forall₂ (fun stmt node => ∃ s s', Lowers r s (.stmt stmt) [node] s') stmts nodes := by
  induction stmts generalizing s nodes with
  | nil =>
    cases h
    exact .nil
  | cons stmt rest ih =>
    cases h with
    | moreStmts head tail => exact .cons ⟨_, _, head⟩ (ih tail)

end Lowering

end ScriptCore
