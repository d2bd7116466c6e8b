import ScriptCore.Proofs.Lowering.Derivation
import ScriptCore.Proofs.Scope.Alike
import ScriptCore.Proofs.Scope.Extensions

/-!
# What lowering is composed of

Lowering asks the scope and changes it, numbers declarations and checks what it has got, and it does
so in sequences and in frames. A property of steps that each of these has, and that sequences and
frames hand on, is a property of lowering (`Compositional.lowerStmts`), whether a piece lowers or
not.

What a step may declare can be part of its property: the functions and records that a statement
adds to the frame it stands in are those that its source names (`Stmt.declaredNames`).
-/
namespace ScriptCore

mutual

/-- The names of the functions that the expression adds to the frame it stands in. Bodies have
frames of their own. -/
def Expr.declaredNames : Expr → List String
  | .literal _ _ | .name _ _ | .this _ | .anonymous _ _ _ => []
  | .group _ inner => inner.declaredNames
  | .assign _ _ value | .unary _ _ value | .get _ value _ => value.declaredNames
  | .binary _ _ left right | .logical _ _ left right | .set _ left _ right =>
    left.declaredNames ++ right.declaredNames
  | .call _ callee arguments => callee.declaredNames ++ Expr.declaredNamesAll arguments
  | .branch _ condition _ _ => condition.declaredNames
  | .function _ _ declared _ _ | .native _ declared _ => [declared]

def Expr.declaredNamesAll : List Expr → List String
  | [] => []
  | expr :: rest => expr.declaredNames ++ Expr.declaredNamesAll rest

end

/-- The names of the functions and records that the statement adds to the frame it stands in. -/
def Stmt.declaredNames : Stmt → List String
  | .expr value | .returns _ value | .bind _ _ _ _ value => value.declaredNames
  | .loop _ condition _ => condition.declaredNames
  | .record _ name _ => [name]
  | .block _ _ | .useModule _ _ | .openModule _ _ => []

/-- A question that scopes which answer alike give one answer to. -/
def Scope.Observable {α : Type} (query : Scope → Except CompileError α) : Prop :=
  ∀ {free : String → Prop} {scope scope' : Scope},
    scope.Alike free scope' → query scope' = query scope

namespace Scope.Alike

variable {free : String → Prop} {scope scope' : Scope} {line : Line}

section Resolution

variable (alike : scope.Alike free scope')

include alike

theorem resolveType (name : String) :
    scope'.resolveType line name = scope.resolveType line name := by
  rw [Scope.resolveType, Scope.resolveType, alike.lookupType]

theorem resolveVariable (name : String) :
    scope'.resolveVariable line name = scope.resolveVariable line name := by
  rw [Scope.resolveVariable, Scope.resolveVariable, alike.lookup]

theorem resolveParameters (known : Parameters) (given : List (String × String)) :
    scope'.resolveParameters line known given = scope.resolveParameters line known given := by
  induction given generalizing known with
  | nil => rfl
  | cons parameter rest ih =>
    obtain ⟨name, typeName⟩ := parameter
    simp only [Scope.resolveParameters, alike.resolveType, ih]

theorem resolveResult (name : Option String) :
    scope'.resolveResult line name = scope.resolveResult line name := by
  cases name with
  | none => rfl
  | some name => exact alike.resolveType name

theorem resolveReceiver (name : Option String) :
    scope'.resolveReceiver line name = scope.resolveReceiver line name := by
  cases name with
  | none => rfl
  | some name => rw [Scope.resolveReceiver, Scope.resolveReceiver, alike.resolveType]

theorem resolveFunctionType (receiver : Option Ty) (signature : Signature) :
    scope'.resolveFunctionType line receiver signature =
      scope.resolveFunctionType line receiver signature := by
  rw [Scope.resolveFunctionType, Scope.resolveFunctionType, alike.resolveParameters,
    alike.resolveResult]

theorem resolveName (name : String) :
    scope'.resolveName line name = scope.resolveName line name := by
  rw [Scope.resolveName, Scope.resolveName, alike.lookup, alike.overloads]

theorem receiverType : scope'.receiverType = scope.receiverType := by
  rw [Scope.receiverType, Scope.receiverType, alike.lookup]

theorem resolveCallee (name : String) (arguments : List Ty) :
    scope'.resolveCallee line name arguments = scope.resolveCallee line name arguments := by
  rw [Scope.resolveCallee, Scope.resolveCallee, alike.overloads, alike.lookup]

theorem resolveMethod (receiver : Ty) (name : String) (arguments : List Ty) :
    scope'.resolveMethod line receiver name arguments =
      scope.resolveMethod line receiver name arguments := by
  rw [Scope.resolveMethod, Scope.resolveMethod, alike.extensions_eq]

theorem bindingType (typeName : Option String) (value : Node) :
    Lowering.bindingType scope' line typeName value =
      Lowering.bindingType scope line typeName value := by
  cases typeName with
  | none => rfl
  | some given => rw [Lowering.bindingType, Lowering.bindingType, alike.resolveType]

end Resolution

end Scope.Alike

namespace Lowering

/-- A property of the steps that lowering is composed of. It may depend on the names that are `free`
to be declared in the innermost frame; in a new frame all names are. -/
structure Compositional (holds : (String → Prop) → {α : Type} → Lower α → Prop) : Prop where
  pure {free : String → Prop} {α : Type} (a : α) : holds free (pure a : Lower α)
  ofExcept {free : String → Prop} {α : Type} (x : Except CompileError α) :
    holds free (Attempt.ofExcept x)
  bind {free : String → Prop} {α β : Type} {step : Lower α} {next : α → Lower β}
    (first : holds free step) (second : ∀ a, holds free (next a)) : holds free (step >>= next)
  /-- What goes on with an answer may rely on where it comes from. -/
  ask {free : String → Prop} {α β : Type} {query : Scope → Except CompileError α}
    {next : α → Lower β} (observable : Scope.Observable query)
    (second : ∀ a, (∃ scope, query scope = .ok a) → holds free (next a)) :
    holds free (inScope query >>= next)
  freshId {free : String → Prop} : holds free freshId
  define {free : String → Prop} (name : String) (type : Ty) :
    holds free (changeScope (·.define name type))
  record {free : String → Prop} {name : String} (isFree : free name) (fields : Parameters) :
    holds free (changeScope (·.defineType name (recordType name fields)))
  function {free : String → Prop} {name : String} {type : FnTy} (isFree : free name)
    (plain : type.receiver = none) : holds free (changeScope (·.defineFunction name type))
  extension {free : String → Prop} {name : String} {type : FnTy} (isFree : free name)
    (given : type.receiver.isSome) (takes : type.TakesReceiver) :
    holds free (changeScope (·.defineExtension name type))
  inFrame {free : String → Prop} {α : Type} {step : Lower α} (inside : holds (fun _ => True) step) :
    holds free (inFrame step)

namespace Compositional

variable {holds : (String → Prop) → {α : Type} → Lower α → Prop}

section Steps

variable {free : String → Prop} {α : Type} (composed : Compositional holds)

include composed

theorem inScope {query : Scope → Except CompileError α} (observable : Scope.Observable query) :
    holds free (inScope query) := by
  rw [← bind_pure (Lowering.inScope query)]
  exact composed.ask observable fun a _ => composed.pure a

theorem defineParameters (parameters : Parameters) : holds free (defineParameters parameters) := by
  induction parameters with
  | nil => exact composed.pure ()
  | cons parameter rest ih =>
    exact composed.bind (composed.define parameter.1 parameter.2) fun _ => ih

theorem declareFunction {name : String} (isFree : free name) {type : FnTy}
    (takes : type.TakesReceiver) : holds free (declareFunction name type) := by
  apply composed.ask fun alike => by rw [alike.nextOverload]
  intro overload _
  refine composed.bind ?_ fun _ => composed.pure _
  cases given : type.receiver.isSome with
  | true => exact composed.extension isFree given takes
  | false => exact composed.function isFree (by simpa using given)

theorem lowerNative {name : String} (isFree : free name) (line : Line) (signature : Signature) :
    holds free (lowerNative line name signature) := by
  apply composed.ask fun alike => alike.resolveFunctionType none signature
  rintro type ⟨scope, resolved⟩
  apply composed.bind
    (composed.declareFunction isFree (Scope.takesReceiver_of_resolveFunctionType resolved))
  intro indexed
  exact composed.bind composed.freshId fun _ => composed.pure _

theorem lowerRecord {name : String} (isFree : free name) (line : Line)
    (fields : List (String × String)) : holds free (lowerRecord line name fields) := by
  rw [Lowering.lowerRecord]
  split
  · exact composed.ofExcept (.error _)
  · apply composed.ask fun alike => alike.resolveParameters [] fields
    intro resolved _
    exact composed.bind (composed.record isFree resolved) fun _ => composed.pure _

theorem lowerBinding (line : Line) (mutability : Mutability) (name : String)
    (typeName : Option String) (value : Node) :
    holds free (lowerBinding line mutability name typeName value) := by
  apply composed.ask fun alike => alike.bindingType typeName value
  intro type _
  exact composed.bind (composed.define name type) fun _ => composed.pure _

/-- The body of a function has a frame of its own, with the parameters in it. -/
theorem functionBody {step : Lower α} (parameters : Parameters)
    (inside : holds (fun _ => True) step) :
    holds free (Lowering.inFrame do Lowering.defineParameters parameters; step) :=
  composed.inFrame (composed.bind (composed.defineParameters parameters) fun _ => inside)

end Steps

mutual

/-- What holds of the steps of lowering holds of lowering an expression, if the names that the
expression declares are free. -/
theorem lowerExpr (composed : Compositional holds) {free : String → Prop} (r : Option Ty)
    (e : Expr) (areFree : ∀ name ∈ e.declaredNames, free name) : holds free (lowerExpr r e) := by
  match e with
  | .literal line value =>
    rw [Lowering.lowerExpr]
    exact composed.pure _
  | .name line name =>
    rw [Lowering.lowerExpr]
    exact composed.inScope fun alike => alike.resolveName name
  | .this line =>
    rw [Lowering.lowerExpr]
    exact composed.inScope fun alike => by rw [alike.receiverType]
  | .group line inner =>
    rw [Expr.declaredNames] at areFree
    rw [Lowering.lowerExpr]
    exact composed.lowerExpr r inner areFree
  | .assign line name value =>
    rw [Expr.declaredNames] at areFree
    rw [Lowering.lowerExpr]
    apply composed.ask fun alike => alike.resolveVariable name
    intro expected _
    exact composed.bind (composed.lowerExpr r value areFree) fun _ => composed.ofExcept _
  | .unary line op right =>
    rw [Expr.declaredNames] at areFree
    rw [Lowering.lowerExpr]
    exact composed.bind (composed.lowerExpr r right areFree) fun _ => composed.ofExcept _
  | .binary line op left right | .logical line op left right =>
    rw [Expr.declaredNames, List.forall_mem_append] at areFree
    rw [Lowering.lowerExpr]
    apply composed.bind (composed.lowerExpr r left areFree.1)
    intro leftNode
    exact composed.bind (composed.lowerExpr r right areFree.2) fun _ => composed.ofExcept _
  | .get line receiver name =>
    rw [Expr.declaredNames] at areFree
    rw [Lowering.lowerExpr]
    apply composed.bind (composed.lowerExpr r receiver areFree)
    intro receiverNode
    exact composed.bind (composed.ofExcept _) fun _ => composed.pure _
  | .set line receiver name value =>
    rw [Expr.declaredNames, List.forall_mem_append] at areFree
    rw [Lowering.lowerExpr]
    apply composed.bind (composed.lowerExpr r receiver areFree.1)
    intro receiverNode
    apply composed.bind (composed.ofExcept _)
    intro expected
    exact composed.bind (composed.lowerExpr r value areFree.2) fun _ => composed.ofExcept _
  | .call line callee arguments =>
    rw [Expr.declaredNames, List.forall_mem_append] at areFree
    obtain ⟨calleeFree, argumentsFree⟩ := areFree
    rcases callee_cases callee with
      ⟨getLine, receiver, name, rfl⟩ | ⟨calleeLine, name, rfl⟩ | ⟨notMethod, notName⟩
    · rw [Expr.declaredNames] at calleeFree
      rw [Lowering.lowerExpr]
      apply composed.bind (composed.lowerExpr r receiver calleeFree)
      intro receiverNode
      apply composed.bind (composed.lowerExprs r arguments argumentsFree)
      intro nodes
      exact composed.ask (fun alike => alike.resolveMethod _ name _) fun _ _ => composed.ofExcept _
    · rw [Lowering.lowerExpr]
      apply composed.bind (composed.lowerExprs r arguments argumentsFree)
      intro nodes
      exact composed.ask (fun alike => alike.resolveCallee name _) fun _ _ => composed.ofExcept _
    · rw [lowerExpr_callOther notMethod notName]
      apply composed.bind (composed.lowerExprs r arguments argumentsFree)
      intro nodes
      apply composed.bind (composed.lowerExpr r callee calleeFree)
      intro calleeNode
      exact composed.bind (composed.ofExcept _) fun _ => composed.ofExcept _
  | .branch line condition whenTrue whenFalse =>
    rw [Expr.declaredNames] at areFree
    rw [Lowering.lowerExpr]
    apply composed.bind (composed.lowerExpr r condition areFree)
    intro conditionNode
    apply composed.bind (composed.ofExcept _)
    intro _
    apply composed.bind (composed.inFrame (composed.lowerStmts r whenTrue fun _ _ => trivial))
    intro trueNodes
    apply composed.bind (composed.inFrame (composed.lowerStmts r whenFalse fun _ _ => trivial))
    intro falseNodes
    exact composed.ofExcept _
  | .function line receiver name signature body =>
    rw [Expr.declaredNames, List.forall_mem_singleton] at areFree
    rw [Lowering.lowerExpr]
    apply composed.ask fun alike => alike.resolveReceiver receiver
    intro receiver _
    apply composed.ask fun alike => alike.resolveFunctionType receiver signature
    rintro type ⟨scope, resolved⟩
    -- what is left behind of a body that fails is the declaration of the function
    apply composed.bind
      (composed.declareFunction areFree (Scope.takesReceiver_of_resolveFunctionType resolved))
    intro indexed
    apply composed.bind composed.freshId
    intro id
    have inside := composed.lowerStmts (some type.result) body fun _ _ => True.intro
    apply composed.bind (composed.functionBody type.parameters inside)
    intro nodes
    exact composed.bind (composed.ofExcept _) fun _ => composed.pure _
  | .anonymous line signature body =>
    rw [Lowering.lowerExpr]
    apply composed.ask fun alike => alike.resolveFunctionType none signature
    intro type _
    apply composed.bind composed.freshId
    intro id
    have inside := composed.lowerStmts (some type.result) body fun _ _ => True.intro
    apply composed.bind (composed.functionBody type.parameters inside)
    intro nodes
    exact composed.bind (composed.ofExcept _) fun _ => composed.pure _
  | .native line name signature =>
    rw [Expr.declaredNames, List.forall_mem_singleton] at areFree
    rw [Lowering.lowerExpr]
    exact composed.lowerNative areFree line signature

theorem lowerExprs (composed : Compositional holds) {free : String → Prop} (r : Option Ty)
    (es : List Expr) (areFree : ∀ name ∈ Expr.declaredNamesAll es, free name) :
    holds free (lowerExprs r es) := by
  match es with
  | [] =>
    rw [Lowering.lowerExprs]
    exact composed.pure _
  | e :: rest =>
    rw [Expr.declaredNamesAll, List.forall_mem_append] at areFree
    rw [Lowering.lowerExprs]
    apply composed.bind (composed.lowerExpr r e areFree.1)
    intro node
    exact composed.bind (composed.lowerExprs r rest areFree.2) fun _ => composed.pure _

theorem lowerStmt (composed : Compositional holds) {free : String → Prop} (r : Option Ty)
    (stmt : Stmt) (areFree : ∀ name ∈ stmt.declaredNames, free name) :
    holds free (lowerStmt r stmt) := by
  match stmt with
  | .expr value =>
    rw [Lowering.lowerStmt]
    exact composed.lowerExpr r value areFree
  | .block line body =>
    rw [Lowering.lowerStmt]
    apply composed.bind (composed.inFrame (composed.lowerStmts r body fun _ _ => trivial))
    intro nodes
    exact composed.pure _
  | .loop line condition body =>
    rw [Lowering.lowerStmt]
    apply composed.bind (composed.lowerExpr r condition areFree)
    intro conditionNode
    apply composed.bind (composed.ofExcept _)
    intro _
    apply composed.bind (composed.inFrame (composed.lowerStmts r body fun _ _ => trivial))
    intro nodes
    exact composed.pure _
  | .returns line value =>
    rw [Lowering.lowerStmt]
    exact composed.bind (composed.lowerExpr r value areFree) fun _ => composed.ofExcept _
  | .bind line mutability name typeName value =>
    rw [Lowering.lowerStmt]
    apply composed.bind (composed.lowerExpr r value areFree)
    intro valueNode
    exact composed.lowerBinding line mutability name typeName valueNode
  | .useModule line name | .openModule line name =>
    rw [Lowering.lowerStmt]
    exact composed.pure _
  | .record line name fields =>
    rw [Lowering.lowerStmt]
    exact composed.lowerRecord (areFree name List.mem_cons_self) line fields

/-- What holds of the steps of lowering holds of lowering statements, if the names that they declare
outside of bodies are free. -/
theorem lowerStmts (composed : Compositional holds) {free : String → Prop} (r : Option Ty)
    (stmts : List Stmt) (areFree : ∀ name ∈ stmts.flatMap Stmt.declaredNames, free name) :
    holds free (lowerStmts r stmts) := by
  match stmts with
  | [] =>
    rw [Lowering.lowerStmts]
    exact composed.pure _
  | stmt :: rest =>
    rw [List.flatMap_cons, List.forall_mem_append] at areFree
    rw [Lowering.lowerStmts]
    apply composed.bind (composed.lowerStmt r stmt areFree.1)
    intro node
    exact composed.bind (composed.lowerStmts r rest areFree.2) fun _ => composed.pure _

end

end Compositional

end Lowering

end ScriptCore
