import ScriptCore.Lowering.Unit

/-!
# Derivations of lowering

A derivation says how a piece of a source tree lowers, rule by rule: from which state, to which
nodes, and to which state. Lowering that succeeds has a derivation (`lowers_of_lowerStmts`), so
what every rule preserves holds of every unit that lowers.
-/
namespace ScriptCore.Lowering

open Attempt

/-- What lowering works on: an expression, a statement, or several of either. -/
inductive Piece
  | expr (expr : Expr)
  | exprs (exprs : List Expr)
  | stmt (stmt : Stmt)
  | stmts (stmts : List Stmt)

namespace State

/-- Inside a new frame that defines these parameters. -/
def enter (s : State) (parameters : Parameters) : State :=
  { s with
    scope := parameters.foldl (fun scope parameter => scope.define parameter.1 parameter.2)
      s.scope.push }

/-- Outside of the innermost frame. -/
def leave (s : State) : State := { s with scope := s.scope.pop }

/-- Behind the declaration of a function. -/
def declare (s : State) (name : String) (type : FnTy) : State :=
  ⟨if type.receiver.isSome then s.scope.defineExtension name type
    else s.scope.defineFunction name type, s.nextId + 1⟩

/-- Behind the definition of a variable. -/
def define (s : State) (name : String) (type : Ty) : State :=
  { s with scope := s.scope.define name type }

end State

/-- The type of a binding, from the name of a type that may be given and from its value. -/
def bindingType (scope : Scope) (line : Line) (typeName : Option String) (value : Node) :
    Except CompileError Ty :=
  match typeName with
  | none => .ok value.type
  | some given => do
    let declared ← scope.resolveType line given
    Typing.expectNode declared value
    return declared

/-- The class type of a record. -/
def recordType (name : String) (fields : Parameters) : Ty := .cls ⟨some name, fields, [fields]⟩

/-- `Lowers returned s piece nodes s'`: inside a function with the result type `returned`, the
piece lowers to these nodes and leads from `s` to `s'`. -/
inductive Lowers : Option Ty → State → Piece → List Node → State → Prop
  | literal {r : Option Ty} {s : State} {line : Line} {value : Literal} :
      Lowers r s (.expr (.literal line value)) [.literal ⟨value.type, line⟩ value] s
  | name {r : Option Ty} {s : State} {line : Line} {name : String} {node : Node}
      (resolved : s.scope.resolveName line name = .ok node) :
      Lowers r s (.expr (.name line name)) [node] s
  | this {r : Option Ty} {s : State} {line : Line} :
      Lowers r s (.expr (.this line)) [.this ⟨s.scope.receiverType, line⟩] s
  | group {r : Option Ty} {s s' : State} {line : Line} {inner : Expr} {node : Node}
      (lowered : Lowers r s (.expr inner) [node] s') :
      Lowers r s (.expr (.group line inner)) [node] s'
  | assign {r : Option Ty} {s s' : State} {line : Line} {name : String} {value : Expr}
      {expected : Ty} {valueNode node : Node}
      (resolved : s.scope.resolveVariable line name = .ok expected)
      (lowered : Lowers r s (.expr value) [valueNode] s')
      (typed : Typing.assign line name expected valueNode = .ok node) :
      Lowers r s (.expr (.assign line name value)) [node] s'
  | unary {r : Option Ty} {s s' : State} {line : Line} {op : UnaryOp} {right : Expr}
      {rightNode node : Node}
      (lowered : Lowers r s (.expr right) [rightNode] s')
      (typed : Typing.unary line op rightNode = .ok node) :
      Lowers r s (.expr (.unary line op right)) [node] s'
  | binary {r : Option Ty} {s s₁ s' : State} {line : Line} {op : BinaryOp} {left right : Expr}
      {leftNode rightNode node : Node}
      (first : Lowers r s (.expr left) [leftNode] s₁)
      (second : Lowers r s₁ (.expr right) [rightNode] s')
      (typed : Typing.binary line op leftNode rightNode = .ok node) :
      Lowers r s (.expr (.binary line op left right)) [node] s'
  | logical {r : Option Ty} {s s₁ s' : State} {line : Line} {op : LogicalOp}
      {left right : Expr} {leftNode rightNode node : Node}
      (first : Lowers r s (.expr left) [leftNode] s₁)
      (second : Lowers r s₁ (.expr right) [rightNode] s')
      (typed : Typing.logical line op leftNode rightNode = .ok node) :
      Lowers r s (.expr (.logical line op left right)) [node] s'
  | get {r : Option Ty} {s s' : State} {line : Line} {receiver : Expr} {name : String}
      {receiverNode : Node} {type : Ty}
      (lowered : Lowers r s (.expr receiver) [receiverNode] s')
      (field : Typing.fieldType receiverNode.type name line = .ok type) :
      Lowers r s (.expr (.get line receiver name)) [.get ⟨type, line⟩ receiverNode name] s'
  | set {r : Option Ty} {s s₁ s' : State} {line : Line} {receiver value : Expr} {name : String}
      {receiverNode valueNode node : Node} {expected : Ty}
      (first : Lowers r s (.expr receiver) [receiverNode] s₁)
      (field : Typing.fieldType receiverNode.type name line = .ok expected)
      (second : Lowers r s₁ (.expr value) [valueNode] s')
      (typed : Typing.setField line receiverNode name expected valueNode = .ok node) :
      Lowers r s (.expr (.set line receiver name value)) [node] s'
  | callMethod {r : Option Ty} {s s₁ s' : State} {line getLine : Line} {receiver : Expr}
      {name : String} {arguments : List Expr} {receiverNode node : Node} {nodes : List Node}
      {callee : Callee}
      (first : Lowers r s (.expr receiver) [receiverNode] s₁)
      (second : Lowers r s₁ (.exprs arguments) nodes s')
      (resolved : s'.scope.resolveMethod line receiverNode.type name
        ((receiverNode :: nodes).map Node.type) = .ok callee)
      (typed : Typing.call line callee (receiverNode :: nodes) = .ok node) :
      Lowers r s (.expr (.call line (.get getLine receiver name) arguments)) [node] s'
  | callName {r : Option Ty} {s s' : State} {line calleeLine : Line} {name : String}
      {arguments : List Expr} {node : Node} {nodes : List Node} {callee : Callee}
      (lowered : Lowers r s (.exprs arguments) nodes s')
      (resolved : s'.scope.resolveCallee calleeLine name (nodes.map Node.type) = .ok callee)
      (typed : Typing.call line callee nodes = .ok node) :
      Lowers r s (.expr (.call line (.name calleeLine name) arguments)) [node] s'
  | callValue {r : Option Ty} {s s₁ s' : State} {line : Line} {callee : Expr}
      {arguments : List Expr} {calleeNode node : Node} {nodes : List Node} {resolved : Callee}
      (notMethod : ∀ line receiver name, callee ≠ .get line receiver name)
      (notName : ∀ line name, callee ≠ .name line name)
      (first : Lowers r s (.exprs arguments) nodes s₁)
      (second : Lowers r s₁ (.expr callee) [calleeNode] s')
      (callable : Callee.ofNode calleeNode = .ok resolved)
      (typed : Typing.call line resolved nodes = .ok node) :
      Lowers r s (.expr (.call line callee arguments)) [node] s'
  | branch {r : Option Ty} {s s₁ s₂ s₃ : State} {line : Line} {condition : Expr}
      {whenTrue whenFalse : List Stmt} {conditionNode node : Node}
      {trueNodes falseNodes : List Node}
      (test : Lowers r s (.expr condition) [conditionNode] s₁)
      (boolean : Typing.expectNode .boolean conditionNode = .ok ())
      (first : Lowers r (s₁.enter []) (.stmts whenTrue) trueNodes s₂)
      (second : Lowers r (s₂.leave.enter []) (.stmts whenFalse) falseNodes s₃)
      (typed : Typing.branch line conditionNode trueNodes falseNodes = .ok node) :
      Lowers r s (.expr (.branch line condition whenTrue whenFalse)) [node] s₃.leave
  | function {r : Option Ty} {s s' : State} {line : Line} {receiverName : Option String}
      {name : String} {signature : Signature} {body : List Stmt} {receiver : Option Ty}
      {type : FnTy} {nodes completed : List Node}
      (received : s.scope.resolveReceiver line receiverName = .ok receiver)
      (resolved : s.scope.resolveFunctionType line receiver signature = .ok type)
      (lowered : Lowers (some type.result) ((s.declare name type).enter type.parameters)
        (.stmts body) nodes s')
      (complete : completeBody name line type nodes = .ok completed) :
      Lowers r s (.expr (.function line receiverName name signature body))
        [.function ⟨.fn type, line⟩
          ⟨s.nextId, (s.scope.nextOverload name type).name, name, type, line⟩ completed] s'.leave
  | anonymous {r : Option Ty} {s s' : State} {line : Line} {signature : Signature}
      {body : List Stmt} {type : FnTy} {nodes : List Node}
      (resolved : s.scope.resolveFunctionType line none signature = .ok type)
      (lowered : Lowers (some type.result)
        (State.enter { s with nextId := s.nextId + 1 } type.parameters) (.stmts body) nodes s')
      (complete : requireReturn "<anonymous>" line type.result nodes = .ok ()) :
      Lowers r s (.expr (.anonymous line signature body))
        [.anonymous ⟨.fn type, line⟩ ⟨s.nextId, type, line⟩ nodes] s'.leave
  | native {r : Option Ty} {s : State} {line : Line} {name : String} {signature : Signature}
      {type : FnTy}
      (resolved : s.scope.resolveFunctionType line none signature = .ok type) :
      Lowers r s (.expr (.native line name signature))
        [.native ⟨.fn type, line⟩
          ⟨s.nextId, (s.scope.nextOverload name type).name, name, type, line⟩]
        (s.declare name type)
  | noExprs {r : Option Ty} {s : State} : Lowers r s (.exprs []) [] s
  | moreExprs {r : Option Ty} {s s₁ s' : State} {expr : Expr} {rest : List Expr} {node : Node}
      {nodes : List Node}
      (head : Lowers r s (.expr expr) [node] s₁)
      (tail : Lowers r s₁ (.exprs rest) nodes s') :
      Lowers r s (.exprs (expr :: rest)) (node :: nodes) s'
  | expr {r : Option Ty} {s s' : State} {value : Expr} {node : Node}
      (lowered : Lowers r s (.expr value) [node] s') :
      Lowers r s (.stmt (.expr value)) [node] s'
  | block {r : Option Ty} {s s' : State} {line : Line} {body : List Stmt} {nodes : List Node}
      (lowered : Lowers r (s.enter []) (.stmts body) nodes s') :
      Lowers r s (.stmt (.block line body)) [.block ⟨.unit, line⟩ nodes] s'.leave
  | loop {r : Option Ty} {s s₁ s' : State} {line : Line} {condition : Expr} {body : List Stmt}
      {conditionNode : Node} {nodes : List Node}
      (test : Lowers r s (.expr condition) [conditionNode] s₁)
      (boolean : Typing.expectNode .boolean conditionNode = .ok ())
      (lowered : Lowers r (s₁.enter []) (.stmts body) nodes s') :
      Lowers r s (.stmt (.loop line condition body)) [.loop ⟨.unit, line⟩ conditionNode nodes]
        s'.leave
  | returns {r : Option Ty} {s s' : State} {line : Line} {value : Expr} {valueNode node : Node}
      (lowered : Lowers r s (.expr value) [valueNode] s')
      (typed : Typing.returns line r valueNode = .ok node) :
      Lowers r s (.stmt (.returns line value)) [node] s'
  | bind {r : Option Ty} {s s' : State} {line : Line} {mutability : Mutability} {name : String}
      {typeName : Option String} {value : Expr} {valueNode : Node} {type : Ty}
      (lowered : Lowers r s (.expr value) [valueNode] s')
      (typed : bindingType s'.scope line typeName valueNode = .ok type) :
      Lowers r s (.stmt (.bind line mutability name typeName value))
        [.bind ⟨type, line⟩ mutability name valueNode] (s'.define name type)
  | useModule {r : Option Ty} {s : State} {line : Line} {name : String} :
      Lowers r s (.stmt (.useModule line name)) [.useModule ⟨.unit, line⟩ name] s
  | openModule {r : Option Ty} {s : State} {line : Line} {name : String} :
      Lowers r s (.stmt (.openModule line name)) [.openModule ⟨.unit, line⟩ name] s
  | record {r : Option Ty} {s : State} {line : Line} {name : String}
      {fields : List (String × String)} {resolved : Parameters}
      (named : name.isEmpty = false)
      (fieldTypes : s.scope.resolveParameters line [] fields = .ok resolved) :
      Lowers r s (.stmt (.record line name fields))
        [.record ⟨recordType name resolved, line⟩ ⟨name, resolved, line⟩]
        { s with scope := s.scope.defineType name (recordType name resolved) }
  | noStmts {r : Option Ty} {s : State} : Lowers r s (.stmts []) [] s
  | moreStmts {r : Option Ty} {s s₁ s' : State} {stmt : Stmt} {rest : List Stmt} {node : Node}
      {nodes : List Node}
      (head : Lowers r s (.stmt stmt) [node] s₁)
      (tail : Lowers r s₁ (.stmts rest) nodes s') :
      Lowers r s (.stmts (stmt :: rest)) (node :: nodes) s'

section Steps

variable {α : Type} {s s' : State}

theorem inScope_eq_ok {query : Scope → Except CompileError α} {a : α} :
    inScope query s = (.ok a, s') ↔ query s.scope = .ok a ∧ s = s' := by
  simp [inScope]

theorem changeScope_eq_ok {change : Scope → Scope} {u : Unit} :
    changeScope change s = (.ok u, s') ↔ { s with scope := change s.scope } = s' := by
  simp [changeScope]

theorem freshId_eq_ok {id : Nat} :
    freshId s = (.ok id, s') ↔ s.nextId = id ∧ { s with nextId := s.nextId + 1 } = s' := by
  simp [freshId]

theorem inFrame_eq_ok {step : Lower α} {a : α} :
    inFrame step s = (.ok a, s') ↔
      ∃ s₁, step { s with scope := s.scope.push } = (.ok a, s₁) ∧ s₁.leave = s' := by
  simp only [inFrame, State.leave]
  cases step { s with scope := s.scope.push } with
  | mk result s₁ => cases result <;> simp [and_assoc]

theorem fail_ne_ok {cause : CompileError.Cause} {line : Line} {a : α} :
    ¬ fail cause line s = (.ok a, s') := by
  simp [fail, Attempt.fail]

/-- A function body is lowered in a frame that defines the parameters. -/
theorem inFrame_defineParameters_eq_ok {parameters : Parameters} {step : Lower α} {a : α} :
    (inFrame do
        defineParameters parameters
        step) s = (.ok a, s') ↔
      ∃ s₁, step (s.enter parameters) = (.ok a, s₁) ∧ s₁.leave = s' := by
  rw [inFrame_eq_ok]
  simp only [bind_eq_ok, defineParameters, changeScope_eq_ok, State.enter]
  constructor
  · rintro ⟨s₁, ⟨_, _, rfl, lowered⟩, left⟩
    exact ⟨s₁, lowered, left⟩
  · rintro ⟨s₁, lowered, left⟩
    exact ⟨s₁, ⟨(), _, rfl, lowered⟩, left⟩

theorem declareFunction_eq_ok {name : String} {type : FnTy} {indexed : String} :
    declareFunction name type s = (.ok indexed, s') ↔
      (s.scope.nextOverload name type).name = indexed ∧
        { s with scope := (s.declare name type).scope } = s' := by
  simp only [declareFunction, bind_eq_ok, inScope_eq_ok, changeScope_eq_ok, pure_eq_ok,
    State.declare, Except.ok.injEq]
  constructor
  · rintro ⟨_, _, ⟨rfl, rfl⟩, _, _, rfl, rfl, rfl⟩
    exact ⟨rfl, rfl⟩
  · rintro ⟨rfl, rfl⟩
    exact ⟨_, _, ⟨rfl, rfl⟩, (), _, rfl, rfl, rfl⟩

theorem lowerRecord_eq_ok {line : Line} {name : String} {fields : List (String × String)}
    {node : Node} :
    lowerRecord line name fields s = (.ok node, s') ↔
      name.isEmpty = false ∧ ∃ resolved,
        s.scope.resolveParameters line [] fields = .ok resolved ∧
        .record ⟨recordType name resolved, line⟩ ⟨name, resolved, line⟩ = node ∧
        { s with scope := s.scope.defineType name (recordType name resolved) } = s' := by
  rw [lowerRecord]
  split
  · rename_i unnamed
    simp only [fail_ne_ok, unnamed, Bool.true_eq_false, false_and]
  · rename_i named
    simp only [bind_eq_ok, inScope_eq_ok, changeScope_eq_ok, pure_eq_ok]
    constructor
    · rintro ⟨resolved, _, ⟨found, rfl⟩, _, _, rfl, rfl, rfl⟩
      exact ⟨by simpa using named, resolved, found, rfl, rfl⟩
    · rintro ⟨-, resolved, found, rfl, rfl⟩
      exact ⟨resolved, s, ⟨found, rfl⟩, (), _, rfl, rfl, rfl⟩

end Steps

section Callees

/-- The three kinds of callees: a field, a name, and any other expression. -/
theorem callee_cases (callee : Expr) :
    (∃ line receiver name, callee = .get line receiver name) ∨
      (∃ line name, callee = .name line name) ∨
      (∀ line receiver name, callee ≠ .get line receiver name) ∧
        ∀ line name, callee ≠ .name line name := by
  cases callee with
  | get line receiver name => exact .inl ⟨line, receiver, name, rfl⟩
  | name line name => exact .inr (.inl ⟨line, name, rfl⟩)
  | _ => exact .inr (.inr ⟨nofun, nofun⟩)

/-- The callee of a call that is neither a field nor a name is lowered behind the arguments. -/
theorem lowerExpr_callOther {r : Option Ty} {callee : Expr} {arguments : List Expr}
    (method : ∀ line receiver name, callee ≠ .get line receiver name)
    (named : ∀ line name, callee ≠ .name line name) :
    lowerExpr r (.call line callee arguments) = (do
      let arguments ← lowerExprs r arguments
      let callee ← lowerExpr r callee
      let callee ← Attempt.ofExcept (Callee.ofNode callee)
      Attempt.ofExcept (Typing.call line callee arguments)) := by
  rw [lowerExpr]
  · exact method
  · exact named

end Callees

mutual

theorem lowers_of_lowerExpr {r : Option Ty} {e : Expr} {s s' : State} {node : Node}
    (h : lowerExpr r e s = (.ok node, s')) : Lowers r s (.expr e) [node] s' := by
  match e with
  | .literal line value =>
    simp only [lowerExpr, pure_eq_ok] at h
    obtain ⟨rfl, rfl⟩ := h
    exact .literal
  | .name line name =>
    simp only [lowerExpr, inScope_eq_ok] at h
    obtain ⟨resolved, rfl⟩ := h
    exact .name resolved
  | .this line =>
    simp only [lowerExpr, inScope_eq_ok, Except.ok.injEq] at h
    obtain ⟨rfl, rfl⟩ := h
    exact .this
  | .group line inner => exact .group (lowers_of_lowerExpr h)
  | .assign line name value =>
    simp only [lowerExpr, bind_eq_ok, inScope_eq_ok, ofExcept_eq_ok] at h
    obtain ⟨expected, _, ⟨resolved, rfl⟩, valueNode, _, lowered, typed, rfl⟩ := h
    exact .assign resolved (lowers_of_lowerExpr lowered) typed
  | .unary line op right =>
    simp only [lowerExpr, bind_eq_ok, ofExcept_eq_ok] at h
    obtain ⟨rightNode, _, lowered, typed, rfl⟩ := h
    exact .unary (lowers_of_lowerExpr lowered) typed
  | .binary line op left right =>
    simp only [lowerExpr, bind_eq_ok, ofExcept_eq_ok] at h
    obtain ⟨leftNode, _, first, rightNode, _, second, typed, rfl⟩ := h
    exact .binary (lowers_of_lowerExpr first) (lowers_of_lowerExpr second) typed
  | .logical line op left right =>
    simp only [lowerExpr, bind_eq_ok, ofExcept_eq_ok] at h
    obtain ⟨leftNode, _, first, rightNode, _, second, typed, rfl⟩ := h
    exact .logical (lowers_of_lowerExpr first) (lowers_of_lowerExpr second) typed
  | .get line receiver name =>
    simp only [lowerExpr, bind_eq_ok, ofExcept_eq_ok, pure_eq_ok] at h
    obtain ⟨receiverNode, _, lowered, type, _, ⟨field, rfl⟩, rfl, rfl⟩ := h
    exact .get (lowers_of_lowerExpr lowered) field
  | .set line receiver name value =>
    simp only [lowerExpr, bind_eq_ok, ofExcept_eq_ok] at h
    obtain ⟨receiverNode, _, first, expected, _, ⟨field, rfl⟩, valueNode, _, second, typed, rfl⟩ := h
    exact .set (lowers_of_lowerExpr first) field (lowers_of_lowerExpr second) typed
  | .call line callee arguments =>
    rcases callee_cases callee with
      ⟨getLine, receiver, name, rfl⟩ | ⟨calleeLine, name, rfl⟩ | ⟨notMethod, notName⟩
    · simp only [lowerExpr, bind_eq_ok, inScope_eq_ok, ofExcept_eq_ok] at h
      obtain ⟨receiverNode, _, first, nodes, _, second, callee, _, ⟨resolved, rfl⟩, typed, rfl⟩ := h
      exact .callMethod (lowers_of_lowerExpr first) (lowers_of_lowerExprs second) resolved typed
    · simp only [lowerExpr, bind_eq_ok, inScope_eq_ok, ofExcept_eq_ok] at h
      obtain ⟨nodes, _, lowered, callee, _, ⟨resolved, rfl⟩, typed, rfl⟩ := h
      exact .callName (lowers_of_lowerExprs lowered) resolved typed
    · simp only [lowerExpr_callOther notMethod notName, bind_eq_ok, ofExcept_eq_ok] at h
      obtain ⟨nodes, _, first, calleeNode, _, second, resolved, _, ⟨callable, rfl⟩, typed, rfl⟩ := h
      exact .callValue notMethod notName (lowers_of_lowerExprs first) (lowers_of_lowerExpr second)
        callable typed
  | .branch line condition whenTrue whenFalse =>
    simp only [lowerExpr, bind_eq_ok, ofExcept_eq_ok, inFrame_eq_ok] at h
    obtain ⟨conditionNode, _, test, _, _, ⟨boolean, rfl⟩, trueNodes, _, ⟨_, first, rfl⟩,
      falseNodes, _, ⟨_, second, rfl⟩, typed, rfl⟩ := h
    exact .branch (lowers_of_lowerExpr test) boolean (lowers_of_lowerStmts first)
      (lowers_of_lowerStmts second) typed
  | .function line receiverName name signature body =>
    simp only [lowerExpr, bind_eq_ok, inScope_eq_ok, ofExcept_eq_ok, declareFunction_eq_ok,
      freshId_eq_ok, inFrame_defineParameters_eq_ok, pure_eq_ok] at h
    obtain ⟨receiver, _, ⟨received, rfl⟩, type, _, ⟨resolved, rfl⟩, _, _, ⟨rfl, rfl⟩,
      _, _, ⟨rfl, rfl⟩, nodes, _, ⟨_, lowered, rfl⟩, completed, _, ⟨complete, rfl⟩, rfl, rfl⟩ := h
    exact .function received resolved (lowers_of_lowerStmts lowered) complete
  | .anonymous line signature body =>
    simp only [lowerExpr, bind_eq_ok, inScope_eq_ok, ofExcept_eq_ok, freshId_eq_ok,
      inFrame_defineParameters_eq_ok, pure_eq_ok] at h
    obtain ⟨type, _, ⟨resolved, rfl⟩, _, _, ⟨rfl, rfl⟩, nodes, _, ⟨_, lowered, rfl⟩,
      _, _, ⟨complete, rfl⟩, rfl, rfl⟩ := h
    exact .anonymous resolved (lowers_of_lowerStmts lowered) complete
  | .native line name signature =>
    simp only [lowerExpr, lowerNative, bind_eq_ok, inScope_eq_ok, declareFunction_eq_ok,
      freshId_eq_ok, pure_eq_ok] at h
    obtain ⟨type, _, ⟨resolved, rfl⟩, _, _, ⟨rfl, rfl⟩, _, _, ⟨rfl, rfl⟩, rfl, rfl⟩ := h
    exact .native resolved

theorem lowers_of_lowerExprs {r : Option Ty} {es : List Expr} {s s' : State} {nodes : List Node}
    (h : lowerExprs r es s = (.ok nodes, s')) : Lowers r s (.exprs es) nodes s' := by
  match es with
  | [] =>
    simp only [lowerExprs, pure_eq_ok] at h
    obtain ⟨rfl, rfl⟩ := h
    exact .noExprs
  | e :: rest =>
    simp only [lowerExprs, bind_eq_ok, pure_eq_ok] at h
    obtain ⟨node, _, head, nodes, _, tail, rfl, rfl⟩ := h
    exact .moreExprs (lowers_of_lowerExpr head) (lowers_of_lowerExprs tail)

theorem lowers_of_lowerStmt {r : Option Ty} {stmt : Stmt} {s s' : State} {node : Node}
    (h : lowerStmt r stmt s = (.ok node, s')) : Lowers r s (.stmt stmt) [node] s' := by
  match stmt with
  | .expr value => exact .expr (lowers_of_lowerExpr h)
  | .block line body =>
    simp only [lowerStmt, bind_eq_ok, inFrame_eq_ok, pure_eq_ok] at h
    obtain ⟨nodes, _, ⟨_, lowered, rfl⟩, rfl, rfl⟩ := h
    exact .block (lowers_of_lowerStmts lowered)
  | .loop line condition body =>
    simp only [lowerStmt, bind_eq_ok, ofExcept_eq_ok, inFrame_eq_ok, pure_eq_ok] at h
    obtain ⟨conditionNode, _, test, _, _, ⟨boolean, rfl⟩, nodes, _, ⟨_, lowered, rfl⟩, rfl, rfl⟩ := h
    exact .loop (lowers_of_lowerExpr test) boolean (lowers_of_lowerStmts lowered)
  | .returns line value =>
    simp only [lowerStmt, bind_eq_ok, ofExcept_eq_ok] at h
    obtain ⟨valueNode, _, lowered, typed, rfl⟩ := h
    exact .returns (lowers_of_lowerExpr lowered) typed
  | .bind line mutability name typeName value =>
    simp only [lowerStmt, lowerBinding, bind_eq_ok, inScope_eq_ok, changeScope_eq_ok, pure_eq_ok] at h
    obtain ⟨valueNode, _, lowered, type, _, ⟨typed, rfl⟩, _, _, rfl, rfl, rfl⟩ := h
    exact .bind (lowers_of_lowerExpr lowered) typed
  | .useModule line name =>
    simp only [lowerStmt, pure_eq_ok] at h
    obtain ⟨rfl, rfl⟩ := h
    exact .useModule
  | .openModule line name =>
    simp only [lowerStmt, pure_eq_ok] at h
    obtain ⟨rfl, rfl⟩ := h
    exact .openModule
  | .record line name fields =>
    rw [lowerStmt] at h
    obtain ⟨named, resolved, fieldTypes, rfl, rfl⟩ := lowerRecord_eq_ok.mp h
    exact .record named fieldTypes

theorem lowers_of_lowerStmts {r : Option Ty} {stmts : List Stmt} {s s' : State} {nodes : List Node}
    (h : lowerStmts r stmts s = (.ok nodes, s')) : Lowers r s (.stmts stmts) nodes s' := by
  match stmts with
  | [] =>
    simp only [lowerStmts, pure_eq_ok] at h
    obtain ⟨rfl, rfl⟩ := h
    exact .noStmts
  | stmt :: rest =>
    simp only [lowerStmts, bind_eq_ok, pure_eq_ok] at h
    obtain ⟨node, _, head, nodes, _, tail, rfl, rfl⟩ := h
    exact .moreStmts (lowers_of_lowerStmt head) (lowers_of_lowerStmts tail)

end

end ScriptCore.Lowering
