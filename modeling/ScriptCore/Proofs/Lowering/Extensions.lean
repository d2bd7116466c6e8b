import ScriptCore.Proofs.Lowering.Kept

/-!
# Extensions at every point of lowering

Lowering passes through the states before and behind each piece that it lowers, and through those
inside the frames that it enters, whether what it lowers comes to an end or fails. From the builtin
scope on, the scopes of all these states are mirrored: the extensions that a call of a method
chooses from are the visible overloads with its receiver.
-/
namespace ScriptCore.Lowering

/-- The expressions that lowering a piece starts with, in order and in the frame of the piece. A
method has its receiver lowered before the arguments, any other callee comes behind them. -/
def Piece.operands : Piece → List Expr
  | .expr (.group _ inner) => [inner]
  | .expr (.assign _ _ value) => [value]
  | .expr (.unary _ _ right) => [right]
  | .expr (.binary _ _ left right) | .expr (.logical _ _ left right) => [left, right]
  | .expr (.get _ receiver _) => [receiver]
  | .expr (.set _ receiver _ value) => [receiver, value]
  | .expr (.call _ (.get _ receiver _) arguments) => receiver :: arguments
  | .expr (.call _ (.name _ _) arguments) => arguments
  | .expr (.call _ callee arguments) => arguments ++ [callee]
  | .expr (.branch _ condition _ _) => [condition]
  | .expr _ => []
  | .exprs es => es
  | .stmt (.expr value) | .stmt (.returns _ value) | .stmt (.bind _ _ _ _ value) => [value]
  | .stmt (.loop _ condition _) => [condition]
  | .stmt _ | .stmts _ => []

/-- `Passes r s piece s'`: lowering the piece from `s` comes through the state `s'`. What comes
later is reached only if all that is lowered before has lowered. -/
inductive Passes : Option Ty → State → Piece → State → Prop
  | start {r : Option Ty} {s : State} {piece : Piece} : Passes r s piece s
  | finish {r : Option Ty} {s : State} {piece : Piece} : Passes r s piece (piece.leaves r s)
  | operand {r : Option Ty} {s s₁ s' : State} {piece : Piece} {before after : List Expr}
      {expr : Expr} {nodes : List Node}
      (split : piece.operands = before ++ expr :: after)
      (earlier : lowerExprs r before s = (.ok nodes, s₁))
      (inside : Passes r s₁ (.expr expr) s') : Passes r s piece s'
  | statement {r : Option Ty} {s s₁ s' : State} {before after : List Stmt} {stmt : Stmt}
      {nodes : List Node}
      (earlier : lowerStmts r before s = (.ok nodes, s₁))
      (inside : Passes r s₁ (.stmt stmt) s') : Passes r s (.stmts (before ++ stmt :: after)) s'
  | block {r : Option Ty} {s s' : State} {line : Line} {body : List Stmt}
      (inside : Passes r (s.enter []) (.stmts body) s') : Passes r s (.stmt (.block line body)) s'
  | loop {r : Option Ty} {s s₁ s' : State} {line : Line} {condition : Expr} {body : List Stmt}
      {node : Node}
      (test : lowerExpr r condition s = (.ok node, s₁))
      (inside : Passes r (s₁.enter []) (.stmts body) s') :
      Passes r s (.stmt (.loop line condition body)) s'
  | whenTrue {r : Option Ty} {s s₁ s' : State} {line : Line} {condition : Expr}
      {whenTrue whenFalse : List Stmt} {node : Node}
      (test : lowerExpr r condition s = (.ok node, s₁))
      (inside : Passes r (s₁.enter []) (.stmts whenTrue) s') :
      Passes r s (.expr (.branch line condition whenTrue whenFalse)) s'
  | whenFalse {r : Option Ty} {s s₁ s₂ s' : State} {line : Line} {condition : Expr}
      {whenTrue whenFalse : List Stmt} {node : Node} {nodes : List Node}
      (test : lowerExpr r condition s = (.ok node, s₁))
      (first : inFrame (lowerStmts r whenTrue) s₁ = (.ok nodes, s₂))
      (inside : Passes r (s₂.enter []) (.stmts whenFalse) s') :
      Passes r s (.expr (.branch line condition whenTrue whenFalse)) s'
  | declared {r : Option Ty} {s : State} {line : Line} {receiverName : Option String}
      {name : String} {signature : Signature} {body : List Stmt} {receiver : Option Ty}
      {type : FnTy}
      (received : s.scope.resolveReceiver line receiverName = .ok receiver)
      (resolved : s.scope.resolveFunctionType line receiver signature = .ok type) :
      Passes r s (.expr (.function line receiverName name signature body)) (s.declare name type)
  | parameters {r : Option Ty} {s : State} {line : Line} {receiverName : Option String}
      {name : String} {signature : Signature} {body : List Stmt} {receiver : Option Ty}
      {type : FnTy} {known : Parameters}
      (received : s.scope.resolveReceiver line receiverName = .ok receiver)
      (resolved : s.scope.resolveFunctionType line receiver signature = .ok type)
      (defined : known <+: type.parameters) :
      Passes r s (.expr (.function line receiverName name signature body))
        ((s.declare name type).enter known)
  | body {r : Option Ty} {s s' : State} {line : Line} {receiverName : Option String}
      {name : String} {signature : Signature} {body : List Stmt} {receiver : Option Ty}
      {type : FnTy}
      (received : s.scope.resolveReceiver line receiverName = .ok receiver)
      (resolved : s.scope.resolveFunctionType line receiver signature = .ok type)
      (inside : Passes (some type.result) ((s.declare name type).enter type.parameters)
        (.stmts body) s') :
      Passes r s (.expr (.function line receiverName name signature body)) s'
  | anonymousParameters {r : Option Ty} {s : State} {line : Line} {signature : Signature}
      {body : List Stmt} {type : FnTy} {known : Parameters}
      (resolved : s.scope.resolveFunctionType line none signature = .ok type)
      (defined : known <+: type.parameters) :
      Passes r s (.expr (.anonymous line signature body)) (s.enter known)
  | anonymousBody {r : Option Ty} {s s' : State} {line : Line} {signature : Signature}
      {body : List Stmt} {type : FnTy}
      (resolved : s.scope.resolveFunctionType line none signature = .ok type)
      (inside : Passes (some type.result)
        (State.enter { s with nextId := s.nextId + 1 } type.parameters) (.stmts body) s') :
      Passes r s (.expr (.anonymous line signature body)) s'

/-- The states that lowering one piece after another comes through, from the builtin scope on. The
next piece starts wherever the one before has stopped. -/
inductive Passed : State → Prop
  | builtins (nextId : Nat) : Passed ⟨.builtins, nextId⟩
  | through {r : Option Ty} {s s' : State} {piece : Piece} (before : Passed s)
      (passes : Passes r s piece s') : Passed s'

/-- No change that lowering makes sets the extensions of a name apart from its overloads. -/
theorem kept_mirrored : Kept fun old new => old.Mirrored → new.Mirrored where
  refl _ mirrored := mirrored
  trans first second mirrored := second (first mirrored)
  frame inside mirrored := (inside mirrored.push).pop
  define _ _ _ mirrored := mirrored.define
  record _ _ _ mirrored := mirrored.defineClass _
  function _ _ _ plain mirrored := mirrored.defineFunction plain
  extension _ _ _ given takes mirrored := mirrored.defineExtension given takes

section Mirrored

variable {α : Type} {s s' : State}

theorem mirrored_of_run {step : Lower α} {result : Except CompileError α}
    (keeps : Keeps (fun old new => old.Mirrored → new.Mirrored) step)
    (ran : step s = (result, s')) (mirrored : s.scope.Mirrored) : s'.scope.Mirrored := by
  have kept := keeps s mirrored
  rwa [ran] at kept

theorem mirrored_enter (mirrored : s.scope.Mirrored) (parameters : Parameters) :
    (s.enter parameters).scope.Mirrored :=
  kept_mirrored.defineVariables parameters _ mirrored.push

theorem mirrored_declare (mirrored : s.scope.Mirrored) (name : String) {receiver : Option Ty}
    {line : Line} {signature : Signature} {type : FnTy}
    (resolved : s.scope.resolveFunctionType line receiver signature = .ok type) :
    (s.declare name type).scope.Mirrored :=
  kept_mirrored.declared (Scope.takesReceiver_of_resolveFunctionType resolved) _ name mirrored

theorem Passes.mirrored {r : Option Ty} {piece : Piece} (passes : Passes r s piece s')
    (mirrored : s.scope.Mirrored) : s'.scope.Mirrored := by
  induction passes with
  | start => exact mirrored
  | @finish r s piece => exact kept_mirrored.leaves r piece s mirrored
  | operand _ earlier _ ih =>
    exact ih (mirrored_of_run (kept_mirrored.lowerExprs _ _) earlier mirrored)
  | statement earlier _ ih =>
    exact ih (mirrored_of_run (kept_mirrored.lowerStmts _ _) earlier mirrored)
  | block _ ih => exact ih (mirrored_enter mirrored [])
  | loop test _ ih | whenTrue test _ ih =>
    have tested := mirrored_of_run (kept_mirrored.lowerExpr _ _) test mirrored
    exact ih (mirrored_enter tested [])
  | whenFalse test first _ ih =>
    have tested := mirrored_of_run (kept_mirrored.lowerExpr _ _) test mirrored
    have left := mirrored_of_run (kept_mirrored.inFrame (kept_mirrored.lowerStmts _ _)) first tested
    exact ih (mirrored_enter left [])
  | declared _ resolved => exact mirrored_declare mirrored _ resolved
  | parameters _ resolved _ => exact mirrored_enter (mirrored_declare mirrored _ resolved) _
  | body _ resolved _ ih => exact ih (mirrored_enter (mirrored_declare mirrored _ resolved) _)
  | anonymousParameters _ _ => exact mirrored_enter mirrored _
  | anonymousBody _ _ ih => exact ih (mirrored_enter (s := { .. }) mirrored _)

theorem Passed.mirrored (passed : Passed s) : s.scope.Mirrored := by
  induction passed with
  | builtins => exact Scope.mirrored_builtins
  | through _ passes ih => exact passes.mirrored ih

end Mirrored

/-- At every point of lowering, the extensions of a name that are found for a receiver are the
visible overloads of the name with exactly that receiver, in the same order and under the same
indexed names, and each of them takes the receiver as `this` before all other parameters. -/
theorem extensions_mirror_overloads {s : State} (passed : Passed s) (receiver : Ty)
    (name : String) :
    s.scope.extensions receiver name =
        (s.scope.overloads name).filter (·.type.receiver = some receiver) ∧
      ∀ overload ∈ s.scope.extensions receiver name,
        overload.type.parameters.head? = some ("this", receiver) :=
  ⟨passed.mirrored.extensions_eq receiver name, fun _ found => passed.mirrored.takes found⟩

/-- An extension of `Int` in a block that goes on with a name that nothing declares. -/
def failingBlock : List Stmt :=
  [.expr (.function ⟨2⟩ (some "Int") "twice" ⟨[], some "Int"⟩ [.returns ⟨3⟩ (.this ⟨3⟩)]),
    .expr (.name ⟨4⟩ "missing")]

/-- Where lowering stops inside of that block, the extension is found in both ways. -/
theorem extensions_mirror_overloads_failingBlock :
    ∃ s : State, Passed s ∧
      (lowerUnit [.block ⟨1⟩ failingBlock] ⟨.builtins, 0⟩).1 =
        .error ⟨.unresolvedVariable "missing", ⟨4⟩⟩ ∧
      s.scope.depth = 2 ∧
      s.scope.extensions .int "twice" = [⟨"twice-0", ⟨[("this", .int)], .int, some .int⟩⟩] ∧
      s.scope.extensions .int "twice" =
        (s.scope.overloads "twice").filter (·.type.receiver = some .int) := by
  have stops : Passes none ⟨.builtins, 0⟩ (.stmts [.block ⟨1⟩ failingBlock])
      ((Piece.stmts failingBlock).leaves none (State.enter ⟨.builtins, 0⟩ [])) := by
    refine .statement (show lowerStmts none [] _ = (.ok [], _) from rfl) ?_
    exact .block .finish
  have passed : Passed _ := .through (.builtins 0) stops
  refine ⟨_, passed, rfl, by decide +kernel, by decide +kernel, ?_⟩
  exact (extensions_mirror_overloads passed .int "twice").1

end ScriptCore.Lowering
