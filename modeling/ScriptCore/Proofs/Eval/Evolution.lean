import ScriptCore.Native.Standard
import ScriptCore.Proofs.Eval.Triple
import ScriptCore.Proofs.Store.Evolution

/-!
# Evaluation lets the store evolve

However the evaluation of a node in a scope ends, the frames that were there before are as an
evolution of the store in that scope leaves them. Nothing is assumed of the node, and of the host
only that its functions are the standard ones.
-/
namespace ScriptCore

namespace Eval

/-- What holds of the heap at any end of a step, if it holds at the start. -/
def Keeps {α : Type} (held : Store → Prop) (step : Eval α) : Prop :=
  Triple held step (fun _ => held) ⟨fun _ => held, fun _ => held, held⟩

namespace Keeps

variable {α β : Type} {held : Store → Prop}

theorem pure (a : α) : Keeps held (Pure.pure a) := Triple.pure fun _ now => now

theorem bind {step : Eval α} {next : α → Eval β} (first : Keeps held step)
    (second : ∀ a, Keeps held (next a)) : Keeps held (step >>= next) :=
  Triple.bind first second

theorem ask (query : Store → Except Fault α) : Keeps held (Eval.ask query) :=
  Triple.ask (fun _ _ now _ => now) fun _ _ now _ => now

theorem lookup (env : Location) (name : String) : Keeps held (Eval.lookup env name) := ask _

theorem lookupFunction (env : Location) (name : String) :
    Keeps held (Eval.lookupFunction env name) :=
  ask _

theorem fault (fault : Fault) : Keeps held (Eval.fault fault : Eval α) :=
  Triple.fault fun _ now => now

theorem returned (value : Value) : Keeps held (Attempt.fail (.returned value) : Eval α) :=
  Triple.returned fun _ now => now

theorem ends {step : Eval α} (keeps : Keeps held step) {m : Machine} (now : held m.heap) :
    held (step m).2.heap :=
  Triple.ends keeps now

/-- What holds still after the heap has changed as a step may change it. -/
theorem of_relation {related : Store → Store → Prop} {step : Eval α}
    (steps : ∀ start, Keeps (related start) step) (refl : ∀ start, related start start)
    (carries : ∀ now later, held now → related now later → held later) : Keeps held step := by
  intro m now
  have after : ∀ later, related m.heap later → held later := fun later => carries m.heap later now
  have step' : Eval.Triple (· = m.heap) step (fun _ => held) ⟨fun _ => held, fun _ => held, held⟩ :=
    (steps m.heap).consequence (fun _ same => same ▸ refl m.heap) (fun _ => after)
      ⟨fun _ => after, fun _ => after, after⟩
  exact step' m rfl

section Walks

variable {evaluator : Evaluator} {env : Location}

theorem testCondition {condition : Node} (test : Keeps held (evaluator condition env)) :
    Keeps held (Eval.testCondition evaluator condition env) :=
  Triple.testCondition test fun _ _ now => ⟨fun _ _ => now, fun _ _ => now⟩

theorem evaluateArguments {arguments : List (String × Node)}
    (each : ∀ argument ∈ arguments, Keeps held (evaluator argument.2 env)) :
    Keeps held (Eval.evaluateArguments evaluator env arguments) := by
  refine Triple.mono (Triple.evaluateArguments (fun _ => held) (fun _ _ => True) ?_)
    fun _ _ ended => ended.2
  intro name node rest there
  have value := each (name, node) (there.subset List.mem_cons_self)
  exact Triple.mono value fun _ _ now => ⟨trivial, now⟩

theorem runLoop {line : Line} {condition : Node} {body : List Node}
    (test : Keeps held (evaluator condition env))
    (round : Keeps held (Eval.inScope env ⟨"while", line⟩ fun scope =>
      Eval.sequence evaluator scope .unit body)) (rounds : Nat) :
    Keeps held (Eval.runLoop evaluator line condition body env rounds) := by
  induction rounds with
  | zero => exact Triple.exhausted fun _ now => now
  | succ rounds rest =>
    rw [Eval.runLoop]
    refine (testCondition test).bind fun chosen => ?_
    cases chosen with
    | true => exact round.bind fun _ => rest
    | false => exact pure _

/-- What a call invokes is looked up, or it is the value of the callee. -/
theorem evaluateCallee {callee : Node} (value : Keeps held (evaluator callee env)) :
    Keeps held (Interpreter.evaluateCallee evaluator callee env) := by
  rw [Interpreter.evaluateCallee.eq_def]
  split
  · exact (lookupFunction _ _).bind fun _ => pure _
  · exact lookup _ _
  · exact value

variable (h : ∀ node, Keeps held (evaluator node env))

include h

theorem sequence (body : List Node) (last : Value) :
    Keeps held (Eval.sequence evaluator env last body) :=
  Triple.sequence (fun _ _ => held) (fun node _ _ _ => h node) last

theorem runBody (body : List Node) : Keeps held (Eval.runBody evaluator env body) :=
  Triple.runBody (fun _ => held) fun node _ _ => h node

end Walks

end Keeps

end Eval

namespace Node

/-- The nodes below a node that are evaluated in the scope of the node. -/
def operands : Node → List Node
  | call _ callee arguments => callee :: arguments.map Prod.snd
  | unary _ _ operand | bind _ _ _ operand | assign _ _ operand | returns _ operand
  | loop _ operand _ | branch _ operand _ _ => [operand]
  | binary _ _ left right | logical _ _ left right => [left, right]
  | literal _ _ | this _ | readVariable _ _ | readFunction _ _ | get _ _ _ | set _ _ _ _
  | block _ _ | function _ _ _ | native _ _ | anonymous _ _ _ | record _ _ | openModule _ _
  | useModule _ _ => []

/-- The function that a node itself declares. -/
def declares? : Node → Option Callable
  | function _ header body => some (.function header body)
  | native _ header => some (.native header)
  | _ => none

end Node

namespace Eval

/-- All that one step of a node in a scope may do, each part of which keeps what holds: it evaluates
the operands, it declares or assigns, it works in a scope of its own, or it invokes a callable. -/
structure KeptBy (held : Store → Prop) (interpreter : Interpreter) (evaluator : Evaluator)
    (node : Node) (env : Location) : Prop where
  operands : ∀ operand ∈ node.operands, Keeps held (evaluator operand env)
  declares : ∀ tag mutability name below, node = .bind tag mutability name below →
    ∀ value, Keeps held (Eval.declare env name value mutability)
  assigns : ∀ name value, Keeps held (Eval.assign env name value)
  functions : ∀ callable, node.declares? = some callable →
    Keeps held (Eval.declareFunction env callable.name callable)
  opens : ∀ tag name, node = .openModule tag name → Keeps held (Eval.openModule name env)
  uses : ∀ tag name, node = .useModule tag name → Keeps held (do
    let module ← Eval.openedModule name
    Eval.expand env module)
  scopes : ∀ site body, Keeps held
    (Eval.inScope env site fun scope => Eval.sequence evaluator scope .unit body)
  invokes : ∀ callable site arguments,
    Keeps held (interpreter.invokeWith evaluator callable site arguments env)

theorem Keeps.evaluateCall {held : Store → Prop} {interpreter : Interpreter}
    {evaluator : Evaluator} {env : Location} {site callee : Node} {arguments : List (String × Node)}
    (value : Keeps held (evaluator callee env))
    (each : ∀ argument ∈ arguments, Keeps held (evaluator argument.2 env))
    (invokes : ∀ callable values,
      Keeps held (interpreter.invokeWith evaluator callable site values env)) :
    Keeps held (interpreter.evaluateCall evaluator site callee arguments env) := by
  refine (Keeps.evaluateCallee value).bind fun target => Triple.holding ?_
  refine (Keeps.evaluateArguments each).bind fun values => ?_
  split
  · exact Triple.holding (invokes _ values)
  · exact Keeps.fault _

/-- What all parts of a step keep holds however the step ends. -/
theorem Keeps.step {held : Store → Prop} {interpreter : Interpreter} {evaluator : Evaluator}
    {node : Node} {env : Location} (kept : KeptBy held interpreter evaluator node env)
    (rounds : Nat) : Keeps held (interpreter.step rounds evaluator node env) := by
  obtain ⟨operands, declares, assigns, functions, opens, uses, scopes, invokes⟩ := kept
  cases node with
  | literal => exact Keeps.pure _
  | this => exact Keeps.lookup _ _
  | readVariable => exact Keeps.lookup _ _
  | readFunction => exact (Keeps.lookupFunction _ _).bind fun _ => Keeps.pure _
  | get => exact Keeps.fault _
  | set => exact Keeps.fault _
  | call tag callee arguments =>
    obtain ⟨target, values⟩ := List.forall_mem_cons.mp operands
    exact Keeps.evaluateCall target (fun argument mem => values _ (List.mem_map_of_mem mem))
      fun callable => invokes callable _
  | unary tag op right =>
    exact (operands right List.mem_cons_self).bind fun _ => Keeps.ask _
  | binary tag op left right =>
    obtain ⟨first, rest⟩ := List.forall_mem_cons.mp operands
    have second := List.forall_mem_singleton.mp rest
    refine first.bind fun value => ?_
    exact (Triple.holding second).bind fun _ => Keeps.ask _
  | logical tag op left right =>
    obtain ⟨first, rest⟩ := List.forall_mem_cons.mp operands
    have second := List.forall_mem_singleton.mp rest
    refine first.bind fun value => (Keeps.ask _).bind fun decided => ?_
    split
    · exact Keeps.pure _
    · exact second.bind fun _ => (Keeps.ask _).bind fun _ => Keeps.pure _
  | bind tag mutability name value =>
    exact (operands value List.mem_cons_self).bind fun bound =>
      (declares _ _ _ _ rfl bound).bind fun _ => Keeps.pure _
  | assign tag name value =>
    exact (operands value List.mem_cons_self).bind fun assigned =>
      (assigns name assigned).bind fun _ => Keeps.pure _
  | returns tag value =>
    exact (operands value List.mem_cons_self).bind fun result => Keeps.returned result
  | block tag body => exact scopes _ body
  | loop tag condition body =>
    exact Keeps.runLoop (operands condition List.mem_cons_self) (scopes _ body) rounds
  | branch tag condition whenTrue whenFalse =>
    refine (Keeps.testCondition (operands condition List.mem_cons_self)).bind fun chosen => ?_
    exact scopes _ _
  | function tag header body => exact (functions _ rfl).bind fun _ => Keeps.pure _
  | native tag header => exact (functions _ rfl).bind fun _ => Keeps.pure _
  | anonymous => exact Keeps.pure _
  | record => exact Keeps.fault _
  | openModule tag name => exact (opens tag name rfl).bind fun _ => Keeps.pure _
  | useModule tag name =>
    have used := (uses tag name rfl).bind fun _ => Keeps.pure Value.unit
    rw [bind_assoc] at used
    exact used

end Eval

namespace Interpreter

open Eval

variable {interpreter : Interpreter} {evaluator : Evaluator} {env : Location} {start : Store}

/-- An evaluator that lets the store evolve in every scope. -/
def Evolving (evaluator : Evaluator) : Prop :=
  ∀ node env start, Keeps (Store.Evolves env start) (evaluator node env)

/-- Work in a scope of its own that lets the store evolve there. -/
theorem keeps_inScope {α : Type} {outer : Location} {site : CallSite} {work : Location → Eval α}
    (h : ∀ scope start, Keeps (Store.Evolves scope start) (work scope)) :
    Keeps (Store.Evolves env start) (Eval.inScope outer site work) := by
  refine Triple.inScope fun heap before => ?_
  have after : ∀ later, Store.Evolves heap.next (heap.add (.create (some outer) (some site))) later →
      Store.Evolves env start later :=
    fun later inner => before.trans inner.of_child
  refine Triple.consequence (h heap.next (heap.add (.create (some outer) (some site)))) ?_
    (fun _ => after) ⟨fun _ => after, fun _ => after, after⟩
  rintro _ rfl
  exact .refl

theorem keeps_declare (name : String) (value : Value) (mutability : Mutability) :
    Keeps (Store.Evolves env start) (Eval.declare env name value mutability) := by
  refine Triple.declare (fun heap before free => ?_) fun _ before _ => before
  exact before.trans (Store.evolves_declare free)

theorem keeps_declareFunction (name : String) (callable : Callable) :
    Keeps (Store.Evolves env start) (Eval.declareFunction env name callable) :=
  Triple.declareFunction fun _ before => before.trans Store.evolves_declareFunction

theorem keeps_assign {scope : Location} (name : String) (value : Value) :
    Keeps (Store.Evolves env start) (Eval.assign scope name value) := by
  refine Triple.assign (fun heap holder old before found => ?_) (fun _ _ _ before _ => before)
    fun _ before _ => before
  exact before.trans (Store.evolves_assign found)

theorem keeps_bindArguments (arguments : Arguments) :
    Keeps (Store.Evolves env start) (Eval.bindArguments env arguments) :=
  Triple.bindArguments (fun _ => Store.Evolves env start) fun name value _ _ =>
    keeps_declare name value .immutable

theorem keeps_openModule (name : String) (global : Location) :
    Keeps (Store.Evolves env start) (Eval.openModule name global) := by
  refine Triple.openModule (fun _ _ before _ => before) (fun heap before _ _ => ?_)
    fun _ before => before
  have opened : Store.Evolves env heap (heap.add (.create (some global) none)) := Store.evolves_add
  exact before.trans opened

theorem keeps_openedModule (name : String) :
    Keeps (Store.Evolves env start) (Eval.openedModule name) :=
  Keeps.ask _

theorem keeps_expand (module : Location) :
    Keeps (Store.Evolves env start) (Eval.expand env module) :=
  Triple.expand fun _ before => before.trans Store.evolves_expand

theorem keeps_catchReturn {function : String} {line : Line} {scope : Location} {body : Eval Unit}
    {held : Store → Prop} (h : Keeps held body) :
    Keeps held (Eval.catchReturn function line scope body) :=
  Triple.catchReturn h

/-- What an invocation does in the scope of the call. -/
theorem keeps_body (ih : Evolving evaluator) (function : String) (line : Line)
    (arguments : Arguments) (body : List Node) :
    Keeps (Store.Evolves env start) (do
      Eval.bindArguments env arguments
      Eval.catchReturn function line env (Eval.runBody evaluator env body)) := by
  refine (keeps_bindArguments arguments).bind fun _ => ?_
  exact keeps_catchReturn (Keeps.runBody (fun node => ih node env start) body)

section Hosts

variable (hosts : interpreter.natives = Native.standard)

include hosts

theorem keeps_callNative {held : Store → Prop} (name : String) (site : Node)
    (arguments : Arguments) (scope : Location) :
    Keeps held (callNative interpreter.natives name site arguments scope) := by
  rw [callNative, hosts]
  split
  · rename_i native supplied
    cases Native.eq_println_of_standard supplied
    have prints : Keeps held (Native.println site arguments scope) :=
      Triple.bind (Triple.printLine fun _ now => now) fun _ => Keeps.pure _
    exact prints.bind fun value => Keeps.returned value
  · exact Keeps.fault _

theorem keeps_invokeWith {scope : Location} (ih : Evolving evaluator) (callable : Callable)
    (site : Node) (arguments : Arguments) :
    Keeps (Store.Evolves env start)
      (interpreter.invokeWith evaluator callable site arguments scope) := by
  cases callable with
  | function header body =>
    exact keeps_inScope fun _ _ => keeps_body ih header.name site.line arguments body
  | closure header body captured =>
    exact keeps_inScope fun _ _ => keeps_body ih _ site.line arguments body
  | native header =>
    exact keeps_inScope fun scope _ =>
      keeps_catchReturn (keeps_callNative hosts header.hostName site arguments scope)
  | constructor header =>
    exact keeps_inScope fun _ _ => keeps_catchReturn (Keeps.returned _)

theorem keeps_step (ih : Evolving evaluator) (rounds : Nat) (node : Node) :
    Keeps (Store.Evolves env start) (interpreter.step rounds evaluator node env) :=
  Keeps.step
    { operands := fun operand _ => ih operand env start
      declares := fun _ mutability name _ _ value => keeps_declare name value mutability
      assigns := keeps_assign
      functions := fun callable _ => keeps_declareFunction callable.name callable
      opens := fun _ name _ => keeps_openModule name env
      uses := fun _ name _ => (keeps_openedModule name).bind fun module => keeps_expand module
      scopes := fun _ body =>
        keeps_inScope fun scope start' => Keeps.sequence (fun node => ih node scope start') body _
      invokes := fun callable site arguments => keeps_invokeWith hosts ih callable site arguments }
    rounds

theorem evolving_evaluate (fuel : Nat) : Evolving (interpreter.evaluate fuel) := by
  induction fuel with
  | zero => exact fun _ _ _ => Triple.exhausted fun _ before => before
  | succ fuel ih => exact fun node env start => Triple.located (keeps_step hosts ih fuel node)

end Hosts

end Interpreter

end ScriptCore
