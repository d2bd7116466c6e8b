import ScriptCore.Proofs.Lowering.Composition

/-!
# What lowering does to the scope

Lowering changes the scope by a few operations only. A relation between scopes that allows for each
of them (`Kept`) holds between the scope that a piece starts with and the scope that it leaves
behind, whether the piece lowers or not.
-/
namespace ScriptCore.Lowering

open Attempt

/-- A relation between an earlier and a later scope that allows for every change that lowering
makes. Of a frame that is entered it need only be said what is left when it is left again. -/
structure Kept (related : Scope → Scope → Prop) : Prop where
  refl (scope : Scope) : related scope scope
  trans {old middle new : Scope} (first : related old middle) (second : related middle new) :
    related old new
  frame {scope inner : Scope} (inside : related scope.push inner) : related scope inner.pop
  define (scope : Scope) (name : String) (type : Ty) : related scope (scope.define name type)
  record (scope : Scope) (name : String) (fields : Parameters) :
    related scope (scope.defineType name (recordType name fields))
  function (scope : Scope) (name : String) (type : FnTy) (plain : type.receiver = none) :
    related scope (scope.defineFunction name type)
  extension (scope : Scope) (name : String) (type : FnTy) (given : type.receiver.isSome)
    (takes : type.TakesReceiver) : related scope (scope.defineExtension name type)

/-- However the step ends, the scope that it leaves is related to the one that it started with. -/
def Keeps (related : Scope → Scope → Prop) {α : Type} (step : Lower α) : Prop :=
  ∀ s : State, related s.scope (step s).2.scope

/-- The state that lowering a piece leaves behind, whether the piece lowers or not. -/
def Piece.leaves (r : Option Ty) : Piece → State → State
  | .expr e, s => (lowerExpr r e s).2
  | .exprs es, s => (lowerExprs r es s).2
  | .stmt x, s => (lowerStmt r x s).2
  | .stmts xs, s => (lowerStmts r xs s).2

namespace Kept

variable {related : Scope → Scope → Prop} {α β : Type}

theorem changeScope {change : Scope → Scope} (changed : ∀ scope, related scope (change scope)) :
    Keeps related (changeScope change) := fun s => changed s.scope

section Rules

variable (kept : Kept related)

include kept

theorem pure (a : α) : Keeps related (pure a) := fun s => kept.refl s.scope

theorem ofExcept (x : Except CompileError α) : Keeps related (ofExcept x) :=
  fun s => kept.refl s.scope

theorem freshId : Keeps related freshId := fun s => kept.refl s.scope

/-- A failure of the first step is where the sequence ends. -/
theorem bind {x : Lower α} {f : α → Lower β} (first : Keeps related x)
    (second : ∀ a, Keeps related (f a)) : Keeps related (x >>= f) := by
  intro s
  have before := first s
  rw [bind_run]
  cases ran : x s with
  | mk result s' =>
    rw [ran] at before
    cases result with
    | ok a => exact kept.trans before (second a s')
    | error e => exact before

/-- What the scope is asked for is known to be its answer. -/
theorem bind_inScope {query : Scope → Except CompileError α} {f : α → Lower β}
    (second : ∀ a, (∃ scope, query scope = .ok a) → Keeps related (f a)) :
    Keeps related (Lowering.inScope query >>= f) := by
  intro s
  rw [bind_run, Lowering.inScope]
  cases answer : query s.scope with
  | ok a => exact second a ⟨s.scope, answer⟩ s
  | error e => exact kept.refl s.scope

/-- A frame that is entered is left again. -/
theorem inFrame {step : Lower α} (h : Keeps related step) : Keeps related (inFrame step) :=
  fun s => kept.frame (h { s with scope := s.scope.push })

theorem defineVariables (parameters : Parameters) (scope : Scope) :
    related scope (parameters.foldl (fun scope parameter => scope.define parameter.1 parameter.2)
      scope) := by
  induction parameters generalizing scope with
  | nil => exact kept.refl scope
  | cons parameter rest ih => exact kept.trans (kept.define scope _ _) (ih _)

theorem declared {type : FnTy} (takes : type.TakesReceiver) (scope : Scope) (name : String) :
    related scope (if type.receiver.isSome then scope.defineExtension name type
      else scope.defineFunction name type) := by
  split
  · rename_i given
    exact kept.extension scope name type given takes
  · rename_i plain
    exact kept.function scope name type (by simpa using plain)

end Rules

/-- A relation that allows for every change is kept by all steps, whatever names they declare. -/
theorem compositional (kept : Kept related) : Compositional fun _ => Keeps related where
  pure := kept.pure
  ofExcept := kept.ofExcept
  bind := kept.bind
  ask _ := kept.bind_inScope
  freshId := kept.freshId
  define name type := changeScope fun scope => kept.define scope name type
  record _ fields := changeScope fun scope => kept.record scope _ fields
  function _ plain := changeScope fun scope => kept.function scope _ _ plain
  extension _ given takes := changeScope fun scope => kept.extension scope _ _ given takes
  inFrame := kept.inFrame

section Pieces

variable (kept : Kept related) (r : Option Ty)

include kept

theorem lowerExpr (e : Expr) : Keeps related (lowerExpr r e) :=
  kept.compositional.lowerExpr r e fun _ _ => True.intro

theorem lowerExprs (es : List Expr) : Keeps related (lowerExprs r es) :=
  kept.compositional.lowerExprs r es fun _ _ => True.intro

theorem lowerStmt (stmt : Stmt) : Keeps related (lowerStmt r stmt) :=
  kept.compositional.lowerStmt r stmt fun _ _ => True.intro

theorem lowerStmts (stmts : List Stmt) : Keeps related (lowerStmts r stmts) :=
  kept.compositional.lowerStmts r stmts fun _ _ => True.intro

/-- The scope behind a piece is related to the scope that the piece starts with. -/
theorem leaves (piece : Piece) (s : State) : related s.scope (piece.leaves r s).scope := by
  cases piece with
  | expr e => exact kept.lowerExpr r e s
  | exprs es => exact kept.lowerExprs r es s
  | stmt x => exact kept.lowerStmt r x s
  | stmts xs => exact kept.lowerStmts r xs s

end Pieces

end Kept

end ScriptCore.Lowering
