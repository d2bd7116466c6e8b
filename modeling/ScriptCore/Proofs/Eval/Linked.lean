import ScriptCore.Proofs.Eval.Evolution
import ScriptCore.Proofs.Store.Linked

/-!
# Evaluation keeps links

Evaluation opens modules in the global scope alone and takes only opened modules into use, so
however it ends, it leaves a linked store linked, with all modules that were opened before.
-/
namespace ScriptCore

/-- Links do not depend on what is held on to. -/
theorem Store.linked_heap {store : Store} {global : Location} :
    store.heap.Linked global ↔ store.Linked global :=
  ⟨fun linked => ⟨linked.root, linked.unique, linked.modules, linked.distinct, linked.uses⟩,
    fun linked => ⟨linked.root, linked.unique, linked.modules, linked.distinct, linked.uses⟩⟩

namespace Interpreter

open Eval

/-- A linked heap that has this scope, and all modules of an earlier heap. -/
structure LinkedAt (interpreter : Interpreter) (start : Store) (env : Location) (heap : Store) :
    Prop where
  linked : heap.Linked interpreter.global
  modules : start.KeepsModules heap
  inside : env < heap.next

variable {interpreter : Interpreter} {evaluator : Evaluator} {start heap : Store} {env : Location}

theorem LinkedAt.global (now : interpreter.LinkedAt start env heap) :
    interpreter.LinkedAt start interpreter.global heap :=
  ⟨now.linked, now.modules, now.linked.lt_next⟩

theorem LinkedAt.module (now : interpreter.LinkedAt start env heap) {name : String}
    {module : Location} (opened : heap.modules.get? name = some module) :
    interpreter.LinkedAt start module heap := by
  obtain ⟨frame, there, -⟩ := now.linked.modules name module opened
  exact ⟨now.linked, now.modules, Store.lt_next_of_frame? there⟩

/-- A new scope inside any other one. -/
theorem LinkedAt.child (now : interpreter.LinkedAt start env heap) {outer : Location}
    {site : CallSite} : interpreter.LinkedAt start heap.next
      (heap.add (.create (some outer) (some site))) := by
  refine ⟨now.linked.add, now.modules, ?_⟩
  exact Store.lt_next_of_frame? Store.frame?_add_next

/-- Evaluation keeps a linked heap linked in every scope. -/
def Linking (interpreter : Interpreter) (evaluator : Evaluator) : Prop :=
  ∀ node start env, Keeps (interpreter.LinkedAt start env) (evaluator node env)

theorem linked_setVariable (now : interpreter.LinkedAt start env heap) {holder : Location}
    {name : String} {binding : Binding} :
    interpreter.LinkedAt start env (heap.setVariable holder name binding) := by
  refine ⟨now.linked.setVariable, now.modules, ?_⟩
  rw [Store.setVariable, Store.next_update]
  exact now.inside

theorem linked_declare {scope : Location} (name : String) (value : Value)
    (mutability : Mutability) :
    Keeps (interpreter.LinkedAt start env) (Eval.declare scope name value mutability) :=
  Triple.declare (fun _ now _ => linked_setVariable now) fun _ now _ => now

theorem linked_assign {scope : Location} (name : String) (value : Value) :
    Keeps (interpreter.LinkedAt start env) (Eval.assign scope name value) :=
  Triple.assign (fun _ _ _ now _ => linked_setVariable now) (fun _ _ _ now _ => now)
    fun _ now _ => now

theorem linked_declareFunction {scope : Location} (name : String) (callable : Callable) :
    Keeps (interpreter.LinkedAt start env) (Eval.declareFunction scope name callable) := by
  refine Triple.declareFunction fun heap now => ⟨now.linked.declareFunction, now.modules, ?_⟩
  rw [Store.declareFunction, Store.next_update]
  exact now.inside

/-- Only in the global scope is a module opened, and it is there from then on. -/
theorem linked_openModule (name : String) :
    Triple (interpreter.LinkedAt start env) (Eval.openModule name env)
      (fun module heap => interpreter.LinkedAt start env heap ∧
        heap.modules.get? name = some module)
      ⟨fun _ => interpreter.LinkedAt start env, fun _ => interpreter.LinkedAt start env,
        interpreter.LinkedAt start env⟩ := by
  refine Triple.openModule (fun heap module now opened => ⟨now, opened⟩)
    (fun heap now isGlobal unknown => ⟨?_, Table.get?_insert_self _ _ _⟩) fun _ now => now
  obtain rfl := (now.linked.isGlobal_iff now.inside).mp isGlobal
  refine ⟨now.linked.opened unknown, now.modules.trans (Store.keepsModules_opened unknown), ?_⟩
  exact Nat.lt_trans now.inside (Store.lt_next_of_frame? Store.frame?_add_next)

theorem linked_useModule (name : String) :
    Keeps (interpreter.LinkedAt start env) (do
      let module ← Eval.openedModule name
      Eval.expand env module) := by
  have opened : Triple (interpreter.LinkedAt start env) (Eval.openedModule name)
      (fun module heap => interpreter.LinkedAt start env heap ∧
        heap.modules.get? name = some module)
      ⟨fun _ => interpreter.LinkedAt start env, fun _ => interpreter.LinkedAt start env,
        interpreter.LinkedAt start env⟩ :=
    Triple.openedModule (fun _ _ now known => ⟨now, known⟩) fun _ now => now
  refine opened.bind fun module => Triple.expand fun heap now => ⟨now.1.linked.expand now.2, ?_, ?_⟩
  · intro other location known
    rw [Store.modules_expand]
    exact now.1.modules other location known
  · rw [Store.next_expand]
    exact now.1.inside

/-- The scopes that are opened meanwhile come behind this one. -/
theorem linked_inScope {α : Type} {outer : Location} {site : CallSite} {work : Location → Eval α}
    (keeps : ∀ scope, Keeps (interpreter.LinkedAt start scope) (work scope)) :
    Keeps (interpreter.LinkedAt start env) (Eval.inScope outer site work) := by
  refine Triple.inScope fun heap now => ?_
  have after : ∀ later, interpreter.LinkedAt start heap.next later →
      interpreter.LinkedAt start env later :=
    fun later inner => ⟨inner.linked, inner.modules, Nat.lt_trans now.inside inner.inside⟩
  refine Triple.consequence (keeps heap.next) ?_ (fun _ => after)
    ⟨fun _ => after, fun _ => after, after⟩
  rintro _ rfl
  exact now.child

theorem linked_bindArguments {scope : Location} (arguments : Arguments) :
    Keeps (interpreter.LinkedAt start env) (Eval.bindArguments scope arguments) :=
  Triple.bindArguments (fun _ => interpreter.LinkedAt start env) fun name value _ _ =>
    linked_declare name value .immutable

section Step

variable (linking : interpreter.Linking evaluator)

include linking

theorem linked_body (function : String) (line : Line) (arguments : Arguments) (body : List Node)
    (scope : Location) :
    Keeps (interpreter.LinkedAt start scope) (do
      Eval.bindArguments scope arguments
      Eval.catchReturn function line scope (Eval.runBody evaluator scope body)) :=
  (linked_bindArguments arguments).bind fun _ =>
    keeps_catchReturn (Keeps.runBody (fun node => linking node start scope) body)

variable (hosts : interpreter.natives = Native.standard)

include hosts

theorem linked_invokeWith (callable : Callable) (site : Node) (arguments : Arguments)
    (scope : Location) :
    Keeps (interpreter.LinkedAt start env)
      (interpreter.invokeWith evaluator callable site arguments scope) := by
  cases callable with
  | function header body =>
    exact linked_inScope (linked_body linking header.name site.line arguments body)
  | closure header body captured =>
    exact linked_inScope (linked_body linking _ site.line arguments body)
  | native header =>
    exact linked_inScope fun scope =>
      keeps_catchReturn (keeps_callNative hosts header.hostName site arguments scope)
  | constructor header =>
    exact linked_inScope fun _ => keeps_catchReturn (Keeps.returned _)

theorem linked_step (rounds : Nat) (node : Node) :
    Keeps (interpreter.LinkedAt start env) (interpreter.step rounds evaluator node env) :=
  Keeps.step
    { operands := fun operand _ => linking operand start env
      declares := fun _ mutability name _ _ value => linked_declare name value mutability
      assigns := linked_assign
      functions := fun callable _ => linked_declareFunction callable.name callable
      opens := fun _ name _ =>
        Triple.mono (linked_openModule name) fun _ _ now => now.1
      uses := fun _ name _ => linked_useModule name
      scopes := fun _ body => linked_inScope fun scope =>
        Keeps.sequence (fun node => linking node start scope) body _
      invokes := fun callable site arguments =>
        linked_invokeWith linking hosts callable site arguments env }
    rounds

end Step

theorem linking_evaluate (hosts : interpreter.natives = Native.standard) (fuel : Nat) :
    interpreter.Linking (interpreter.evaluate fuel) := by
  induction fuel with
  | zero => exact fun _ _ _ => Triple.exhausted fun _ now => now
  | succ fuel ih => exact fun node start env => Triple.located (linked_step ih hosts fuel node)

theorem linked_evaluateFrom (hosts : interpreter.natives = Native.standard) (fuel : Nat)
    (unit : List Node) (target : Location) :
    Triple (interpreter.LinkedAt start target) (interpreter.evaluateFrom fuel target unit)
      (fun _ => interpreter.LinkedAt start interpreter.global)
      ⟨fun _ => interpreter.LinkedAt start interpreter.global,
        fun _ => interpreter.LinkedAt start interpreter.global,
        interpreter.LinkedAt start interpreter.global⟩ := by
  refine Triple.mono (Triple.evaluateFrom (fun target _ => interpreter.LinkedAt start target)
    (fun _ _ => True) ?_ ?_ target) ?_
  · intro target node rest _ _
    refine Triple.uncaught (Triple.consequence (linking_evaluate hosts fuel node start target)
      (fun _ now => now) (fun _ _ now => ⟨trivial, now⟩) ?_)
    exact ⟨fun _ _ => LinkedAt.global, fun _ _ => LinkedAt.global, fun _ => LinkedAt.global⟩
  · intro target tag name rest _
    refine Triple.consequence (linked_openModule name) (fun _ now => now.global)
      (fun module _ now => ⟨trivial, now.1.module now.2⟩) ?_
    exact ⟨fun _ _ => id, fun _ _ => id, fun _ => id⟩
  · rintro _ _ ⟨-, _, now⟩
    exact now.global

end Interpreter

end ScriptCore
