import ScriptCore.Proofs.Eval.Return
import ScriptCore.Proofs.Lowering.Derivation
import ScriptCore.Proofs.Lowering.Rules

/-!
# Returns in source trees

Lowering neither drops returns nor adds any to what it lowers, so a search for returns finds the
same in a source tree and in the nodes that it lowers to. The check for a missing return does not
look into the conditions of loops. It is exact for the returns outside of them
(`missing_return_is_exact`), and a body whose only return stands in such a condition is refused.
-/
namespace ScriptCore

mutual

/-- Whether a return stands in an expression, outside of the bodies of functions. The conditions of
loops are looked into if `tests` says so. -/
def Expr.hasReturn (tests : Bool) : Expr → Bool
  | .literal _ _ | .name _ _ | .this _ | .function _ _ _ _ _ | .anonymous _ _ _ | .native _ _ _ =>
    false
  | .group _ inner => inner.hasReturn tests
  | .assign _ _ value | .unary _ _ value | .get _ value _ => value.hasReturn tests
  | .binary _ _ left right | .logical _ _ left right | .set _ left _ right =>
    left.hasReturn tests || right.hasReturn tests
  | .call _ callee arguments => callee.hasReturn tests || Expr.anyHasReturn tests arguments
  | .branch _ condition whenTrue whenFalse =>
    condition.hasReturn tests || Stmt.anyHasReturn tests whenTrue ||
      Stmt.anyHasReturn tests whenFalse

def Expr.anyHasReturn (tests : Bool) : List Expr → Bool
  | [] => false
  | expr :: rest => expr.hasReturn tests || Expr.anyHasReturn tests rest

def Stmt.hasReturn (tests : Bool) : Stmt → Bool
  | .returns _ _ => true
  | .expr value | .bind _ _ _ _ value => value.hasReturn tests
  | .block _ body => Stmt.anyHasReturn tests body
  | .loop _ condition body =>
    (tests && condition.hasReturn tests) || Stmt.anyHasReturn tests body
  | .useModule _ _ | .openModule _ _ | .record _ _ _ => false

def Stmt.anyHasReturn (tests : Bool) : List Stmt → Bool
  | [] => false
  | stmt :: rest => stmt.hasReturn tests || Stmt.anyHasReturn tests rest

end

namespace Node

mutual

/-- The same search in a node. -/
def searchReturn (tests : Bool) : Node → Bool
  | returns _ _ => true
  | block _ body => anySearchReturn tests body
  | loop _ condition body => (tests && searchReturn tests condition) || anySearchReturn tests body
  | branch _ condition whenTrue whenFalse =>
    searchReturn tests condition || anySearchReturn tests whenTrue ||
      anySearchReturn tests whenFalse
  | bind _ _ _ value | assign _ _ value => searchReturn tests value
  | call _ callee arguments =>
    searchReturn tests callee || anyArgumentSearchReturn tests arguments
  | unary _ _ right => searchReturn tests right
  | binary _ _ left right | logical _ _ left right =>
    searchReturn tests left || searchReturn tests right
  | get _ receiver _ => searchReturn tests receiver
  | set _ receiver _ value => searchReturn tests receiver || searchReturn tests value
  | literal _ _ | this _ | readVariable _ _ | readFunction _ _ | function _ _ _ | native _ _
  | anonymous _ _ _ | record _ _ | openModule _ _ | useModule _ _ => false

def anySearchReturn (tests : Bool) : List Node → Bool
  | [] => false
  | node :: rest => searchReturn tests node || anySearchReturn tests rest

def anyArgumentSearchReturn (tests : Bool) : List (String × Node) → Bool
  | [] => false
  | (_, value) :: rest => searchReturn tests value || anyArgumentSearchReturn tests rest

end

mutual

/-- The check for a missing return passes over the conditions of loops. -/
theorem searchReturn_false (node : Node) : searchReturn false node = containsReturn node := by
  cases node <;>
    simp [searchReturn, containsReturn, searchReturn_false, anySearchReturn_false,
      anyArgumentSearchReturn_false]

theorem anySearchReturn_false (body : List Node) :
    anySearchReturn false body = anyContainsReturn body := by
  cases body <;>
    simp [anySearchReturn, anyContainsReturn, searchReturn_false, anySearchReturn_false]

theorem anyArgumentSearchReturn_false (arguments : List (String × Node)) :
    anyArgumentSearchReturn false arguments = anyArgumentContainsReturn arguments := by
  cases arguments <;>
    simp [anyArgumentSearchReturn, anyArgumentContainsReturn, searchReturn_false,
      anyArgumentSearchReturn_false]

end

mutual

theorem searchReturn_true (node : Node) : searchReturn true node = hasReturn node := by
  cases node <;>
    simp [searchReturn, hasReturn, searchReturn_true, anySearchReturn_true,
      anyArgumentSearchReturn_true]

theorem anySearchReturn_true (body : List Node) :
    anySearchReturn true body = anyHasReturn body := by
  cases body <;> simp [anySearchReturn, anyHasReturn, searchReturn_true, anySearchReturn_true]

theorem anyArgumentSearchReturn_true (arguments : List (String × Node)) :
    anyArgumentSearchReturn true arguments = anyArgumentHasReturn arguments := by
  cases arguments <;>
    simp [anyArgumentSearchReturn, anyArgumentHasReturn, searchReturn_true,
      anyArgumentSearchReturn_true]

end

variable {tests : Bool} {line : Line} {node : Node}

theorem anySearchReturn_singleton : anySearchReturn tests [node] = searchReturn tests node := by
  simp [anySearchReturn]

/-- The arguments of a call are searched whatever they are keyed by. -/
theorem anyArgumentSearchReturn_zip {names : List String} {arguments : List Node}
    (arity : arguments.length = names.length) :
    anyArgumentSearchReturn tests (names.zip arguments) = anySearchReturn tests arguments := by
  induction names generalizing arguments with
  | nil =>
    obtain rfl : arguments = [] := List.length_eq_zero_iff.mp arity
    rfl
  | cons name rest ih =>
    cases arguments with
    | nil => rfl
    | cons argument others =>
      have shorter : others.length = rest.length := by simpa using arity
      simp [anyArgumentSearchReturn, anySearchReturn, ih shorter]

theorem searchReturn_unary {op : UnaryOp} {right : Node}
    (typed : Typing.unary line op right = .ok node) :
    searchReturn tests node = searchReturn tests right := by
  cases op with
  | neg =>
    obtain ⟨-, rfl⟩ := Typing.neg_eq_ok.mp typed
    rw [searchReturn]
  | not =>
    obtain ⟨-, rfl⟩ := Typing.not_eq_ok.mp typed
    rw [searchReturn]

theorem searchReturn_call {callee : Callee} {arguments : List Node}
    (typed : Typing.call line callee arguments = .ok node) :
    searchReturn tests node =
      (searchReturn tests callee.node || anySearchReturn tests arguments) := by
  obtain ⟨arity, -, rfl⟩ := Typing.call_eq_ok.mp typed
  rw [searchReturn, anyArgumentSearchReturn_zip]
  simpa [Parameters.names] using arity

end Node

namespace Lowering

open Attempt Node

/-- Whether a return stands in a piece of a source tree, outside of the bodies of functions. -/
def Piece.hasReturn (tests : Bool) : Piece → Bool
  | .expr e => e.hasReturn tests
  | .exprs es => Expr.anyHasReturn tests es
  | .stmt x => x.hasReturn tests
  | .stmts xs => Stmt.anyHasReturn tests xs

/-- A search for returns finds the same in a piece and in the nodes that it lowers to. -/
theorem Lowers.searchReturn_eq {r : Option Ty} {s s' : State} {piece : Piece} {nodes : List Node}
    (h : Lowers r s piece nodes s') (tests : Bool) :
    anySearchReturn tests nodes = piece.hasReturn tests := by
  induction h with
  | literal | this | native | useModule | openModule | record | noExprs | noStmts => rfl
  | function | anonymous => rfl
  | name resolved =>
    rcases Scope.resolveName_eq_ok.mp resolved with ⟨_, -, rfl⟩ | ⟨_, _, _, -, -, rfl⟩
    all_goals rfl
  | group _ ih => rwa [Piece.hasReturn, Expr.hasReturn]
  | expr _ ih => rwa [Piece.hasReturn, Stmt.hasReturn]
  | assign _ _ typed ih =>
    obtain ⟨-, rfl⟩ := Typing.assign_eq_ok.mp typed
    rw [anySearchReturn_singleton] at ih ⊢
    rwa [searchReturn, Piece.hasReturn, Expr.hasReturn]
  | unary _ typed ih =>
    rw [anySearchReturn_singleton] at ih ⊢
    rwa [searchReturn_unary typed, Piece.hasReturn, Expr.hasReturn]
  | binary _ _ typed ihLeft ihRight =>
    obtain ⟨_, -, rfl⟩ := Typing.binary_eq_ok.mp typed
    rw [anySearchReturn_singleton] at ihLeft ihRight ⊢
    rw [searchReturn, ihLeft, ihRight, Piece.hasReturn, Piece.hasReturn, Piece.hasReturn,
      Expr.hasReturn]
  | logical _ _ typed ihLeft ihRight =>
    obtain ⟨-, -, rfl⟩ := Typing.logical_eq_ok.mp typed
    rw [anySearchReturn_singleton] at ihLeft ihRight ⊢
    rw [searchReturn, ihLeft, ihRight, Piece.hasReturn, Piece.hasReturn, Piece.hasReturn,
      Expr.hasReturn]
  | get _ _ ih =>
    rw [anySearchReturn_singleton] at ih ⊢
    rwa [searchReturn, Piece.hasReturn, Expr.hasReturn]
  | set _ _ _ typed ihReceiver ihValue =>
    obtain ⟨-, rfl⟩ := Typing.setField_eq_ok.mp typed
    rw [anySearchReturn_singleton] at ihReceiver ihValue ⊢
    rw [searchReturn, ihReceiver, ihValue, Piece.hasReturn, Piece.hasReturn, Piece.hasReturn,
      Expr.hasReturn]
  | callMethod _ _ resolved typed ihReceiver ihArguments =>
    obtain ⟨_, -, rfl⟩ := Scope.resolveMethod_eq_ok.mp resolved
    rw [anySearchReturn_singleton] at ihReceiver ⊢
    rw [searchReturn_call typed, anySearchReturn, ihReceiver, ihArguments]
    simp [Callee.ofOverload, searchReturn, Piece.hasReturn, Expr.hasReturn]
  | callName _ resolved typed ih =>
    rw [anySearchReturn_singleton, searchReturn_call typed, ih]
    rcases Scope.resolveCallee_eq_ok.mp resolved with ⟨_, -, rfl⟩ | ⟨_, -, -, rfl⟩
    all_goals simp [Callee.ofOverload, searchReturn, Piece.hasReturn, Expr.hasReturn]
  | callValue _ _ _ _ callable typed ihArguments ihCallee =>
    obtain ⟨_, -, rfl⟩ := Callee.ofNode_eq_ok.mp callable
    rw [anySearchReturn_singleton] at ihCallee ⊢
    rw [searchReturn_call typed, ihCallee, ihArguments, Piece.hasReturn, Piece.hasReturn,
      Piece.hasReturn, Expr.hasReturn]
  | branch _ _ _ _ typed ihTest ihTrue ihFalse =>
    obtain ⟨_, -, rfl⟩ := Typing.branch_eq_ok.mp typed
    rw [anySearchReturn_singleton] at ihTest ⊢
    rw [searchReturn, ihTest, ihTrue, ihFalse, Piece.hasReturn, Piece.hasReturn, Piece.hasReturn,
      Piece.hasReturn, Expr.hasReturn]
  | moreExprs _ _ ihHead ihTail =>
    rw [anySearchReturn_singleton] at ihHead
    rw [anySearchReturn, ihHead, ihTail, Piece.hasReturn, Piece.hasReturn, Piece.hasReturn,
      Expr.anyHasReturn]
  | moreStmts _ _ ihHead ihTail =>
    rw [anySearchReturn_singleton] at ihHead
    rw [anySearchReturn, ihHead, ihTail, Piece.hasReturn, Piece.hasReturn, Piece.hasReturn,
      Stmt.anyHasReturn]
  | block _ ih =>
    rwa [anySearchReturn_singleton, searchReturn, Piece.hasReturn, Stmt.hasReturn]
  | loop _ _ _ ihTest ihBody =>
    rw [anySearchReturn_singleton] at ihTest ⊢
    rw [searchReturn, ihTest, ihBody, Piece.hasReturn, Piece.hasReturn, Piece.hasReturn,
      Stmt.hasReturn]
  | returns _ typed _ =>
    obtain ⟨-, rfl⟩ := Typing.returns_eq_ok.mp typed
    rfl
  | bind _ _ ih =>
    rw [anySearchReturn_singleton] at ih ⊢
    rwa [searchReturn, Piece.hasReturn, Stmt.hasReturn]

variable {r : Option Ty} {s s' : State} {line : Line} {name : String} {signature : Signature}
  {body : List Stmt} {type : FnTy} {nodes : List Node}

/-- The check for a missing return, and the search in conditions of loops as well, say of the nodes
of a body what they say of its source. -/
theorem hasReturn_of_lowerStmts (lowered : lowerStmts r body s = (.ok nodes, s')) :
    anyContainsReturn nodes = Stmt.anyHasReturn false body ∧
      anyHasReturn nodes = Stmt.anyHasReturn true body := by
  have derived := lowers_of_lowerStmts lowered
  have outside := derived.searchReturn_eq false
  have anywhere := derived.searchReturn_eq true
  rw [anySearchReturn_false] at outside
  rw [anySearchReturn_true] at anywhere
  exact ⟨outside, anywhere⟩

theorem requireReturn_eq_error {result : Ty} {e : CompileError} :
    requireReturn name line result nodes = .error e ↔
      e = ⟨.missingReturn name, line⟩ ∧ result ≠ .unit ∧ anyContainsReturn nodes = false := by
  simp only [requireReturn]
  split
  · rename_i fine
    have holds : result = .unit ∨ anyContainsReturn nodes = true := by simpa using fine
    rcases holds with rfl | returns
    · simp
    · simp [returns]
  · rename_i missing
    have lacks : result ≠ .unit ∧ anyContainsReturn nodes = false := by simpa using missing
    simp [lacks.1, lacks.2, eq_comm]

theorem completeBody_eq_error {e : CompileError} :
    completeBody name line type nodes = .error e ↔
      e = ⟨.missingReturn name, line⟩ ∧ type.result ≠ .unit ∧ anyContainsReturn nodes = false := by
  rw [← requireReturn_eq_error, completeBody]
  cases requireReturn name line type.result nodes <;>
    simp [Bind.bind, Except.bind, Pure.pure, Except.pure]

/-- With its body lowered, a named function is lowered if the body can be completed. -/
theorem lowerExpr_function {receiverName : Option String} {receiver : Option Ty}
    (received : s.scope.resolveReceiver line receiverName = .ok receiver)
    (resolved : s.scope.resolveFunctionType line receiver signature = .ok type)
    (lowered : lowerStmts (some type.result) body
      ((s.declare name type).enter type.parameters) = (.ok nodes, s')) :
    lowerExpr r (.function line receiverName name signature body) s =
      ((completeBody name line type nodes).map fun completed =>
        .function ⟨.fn type, line⟩
          ⟨s.nextId, (s.scope.nextOverload name type).name, name, type, line⟩ completed,
        s'.leave) := by
  have resolvesReceiver : inScope (·.resolveReceiver line receiverName) s = (.ok receiver, s) :=
    inScope_eq_ok.mpr ⟨received, rfl⟩
  have resolvesType : inScope (·.resolveFunctionType line receiver signature) s = (.ok type, s) :=
    inScope_eq_ok.mpr ⟨resolved, rfl⟩
  have declares : declareFunction name type s = (.ok (s.scope.nextOverload name type).name,
      { s with scope := (s.declare name type).scope }) := declareFunction_eq_ok.mpr ⟨rfl, rfl⟩
  have fresh : freshId { s with scope := (s.declare name type).scope } =
      (.ok s.nextId, s.declare name type) := rfl
  have inside := inFrame_defineParameters_eq_ok.mpr ⟨s', lowered, rfl⟩
  rw [lowerExpr, bind_ok resolvesReceiver, bind_ok resolvesType, bind_ok declares, bind_ok fresh,
    bind_ok inside]
  cases completeBody name line type nodes <;>
    simp [bind_run, Attempt.ofExcept, pure_run, Except.map]

theorem lowerExpr_anonymous
    (resolved : s.scope.resolveFunctionType line none signature = .ok type)
    (lowered : lowerStmts (some type.result) body
      (State.enter { s with nextId := s.nextId + 1 } type.parameters) = (.ok nodes, s')) :
    lowerExpr r (.anonymous line signature body) s =
      ((requireReturn "<anonymous>" line type.result nodes).map fun _ =>
        .anonymous ⟨.fn type, line⟩ ⟨s.nextId, type, line⟩ nodes, s'.leave) := by
  have resolvesType : inScope (·.resolveFunctionType line none signature) s = (.ok type, s) :=
    inScope_eq_ok.mpr ⟨resolved, rfl⟩
  have fresh : freshId s = (.ok s.nextId, { s with nextId := s.nextId + 1 }) := rfl
  have inside := inFrame_defineParameters_eq_ok.mpr ⟨s', lowered, rfl⟩
  rw [lowerExpr, bind_ok resolvesType, bind_ok fresh, bind_ok inside]
  cases requireReturn "<anonymous>" line type.result nodes <;>
    simp [bind_run, Attempt.ofExcept, pure_run, Except.map]

/-- Of a body that lowers, the check for a missing return finds a return if and only if one stands
in the source outside of the bodies of functions and of the conditions of loops, though those in
conditions are there as well. So a function whose types are known and whose body lowers fails if and
only if its result is not `Unit` and no return stands in the body outside of these. Then it fails
for the missing return. -/
theorem missing_return_is_exact (r : Option Ty) (s s' : State) (line : Line) (signature : Signature)
    (body : List Stmt) (nodes : List Node) :
    (lowerStmts r body s = (.ok nodes, s') →
      anyContainsReturn nodes = Stmt.anyHasReturn false body ∧
        anyHasReturn nodes = Stmt.anyHasReturn true body) ∧
    (∀ name receiverName receiver type,
      s.scope.resolveReceiver line receiverName = .ok receiver →
      s.scope.resolveFunctionType line receiver signature = .ok type →
      lowerStmts (some type.result) body ((s.declare name type).enter type.parameters) =
        (.ok nodes, s') →
      ∀ e, (lowerExpr r (.function line receiverName name signature body) s).1 = .error e ↔
        e = ⟨.missingReturn name, line⟩ ∧ type.result ≠ .unit ∧
          Stmt.anyHasReturn false body = false) ∧
    ∀ type, s.scope.resolveFunctionType line none signature = .ok type →
      lowerStmts (some type.result) body
        (State.enter { s with nextId := s.nextId + 1 } type.parameters) = (.ok nodes, s') →
      ∀ e, (lowerExpr r (.anonymous line signature body) s).1 = .error e ↔
        e = ⟨.missingReturn "<anonymous>", line⟩ ∧ type.result ≠ .unit ∧
          Stmt.anyHasReturn false body = false := by
  refine ⟨hasReturn_of_lowerStmts, ?_, ?_⟩
  · intro name receiverName receiver type received resolved lowered e
    rw [lowerExpr_function received resolved lowered, ← (hasReturn_of_lowerStmts lowered).1,
      ← completeBody_eq_error]
    cases completeBody name line type nodes <;> simp [Except.map]
  · intro type resolved lowered e
    rw [lowerExpr_anonymous resolved lowered, ← (hasReturn_of_lowerStmts lowered).1,
      ← requireReturn_eq_error]
    cases requireReturn "<anonymous>" line type.result nodes <;> simp [Except.map]

/-- A loop that returns from its condition. -/
def returningTest : List Stmt :=
  [.loop ⟨2⟩ (.branch ⟨2⟩ (.literal ⟨2⟩ (.scalar (.boolean true)))
    [.returns ⟨2⟩ (.literal ⟨2⟩ (.scalar (.int 1))), .expr (.literal ⟨2⟩ (.scalar (.boolean true)))]
    [.expr (.literal ⟨2⟩ (.scalar (.boolean true)))]) []]

theorem missing_return_is_exact_returningTest :
    ∃ nodes s', lowerStmts (some .int) returningTest
        ((State.declare ⟨Scope.builtins, 0⟩ "f" ⟨[], .int, none⟩).enter []) = (.ok nodes, s') ∧
      anyContainsReturn nodes = false ∧ anyHasReturn nodes = true ∧
      (lowerExpr none (.function ⟨1⟩ none "f" ⟨[], some "Int"⟩ returningTest)
        ⟨Scope.builtins, 0⟩).1 = .error ⟨.missingReturn "f", ⟨1⟩⟩ := by
  rcases lowered : lowerStmts (some .int) returningTest
      ((State.declare ⟨Scope.builtins, 0⟩ "f" ⟨[], .int, none⟩).enter []) with ⟨e | nodes, s'⟩
  · have lowers : (lowerStmts (some .int) returningTest
        ((State.declare ⟨Scope.builtins, 0⟩ "f" ⟨[], .int, none⟩).enter [])).1.isOk = true := by
      decide +kernel
    rw [lowered] at lowers
    cases lowers
  · obtain ⟨finds, -⟩ := missing_return_is_exact (some .int) _ s' ⟨1⟩ ⟨[], some "Int"⟩
      returningTest nodes
    obtain ⟨-, refuses, -⟩ := missing_return_is_exact none ⟨Scope.builtins, 0⟩ s' ⟨1⟩
      ⟨[], some "Int"⟩ returningTest nodes
    obtain ⟨outside, anywhere⟩ := finds lowered
    refine ⟨nodes, s', rfl, outside.trans (by decide +kernel),
      anywhere.trans (by decide +kernel), ?_⟩
    exact (refuses "f" none none ⟨[], .int, none⟩ rfl rfl lowered _).mpr
      ⟨rfl, by decide, by decide +kernel⟩

end Lowering

end ScriptCore
