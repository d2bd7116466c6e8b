import ScriptCore.Proofs.Eval.Linked

/-!
# Steps that do the same whatever is held

The scopes that evaluation holds on to are there for the modules that would be given up otherwise.
In a linked heap no module in use ever is, so it makes no difference what is held. Two steps are
alike on some heaps when they do the same there, whatever is held on to at the start, and hold on to
the same in the end. There is one rule for each step of the machine, and one for each walk over
nodes with two evaluators that are alike.
-/
namespace ScriptCore

namespace Eval

variable {α β : Type} {before : Store → Prop} {step step' : Eval α}

def Alike (before : Store → Prop) (step step' : Eval α) : Prop :=
  ∀ m : Machine, before m.heap → ∃ (result : Except Stop α) (m' : Machine), ∀ held,
    step (m.holdingOnly held) = (result, m'.holdingOnly held) ∧
      step' (m.holdingOnly held) = (result, m'.holdingOnly held)

namespace Alike

theorem weaken {before' : Store → Prop} (alike : Alike before' step step')
    (weaker : ∀ heap, before heap → before' heap) : Alike before step step' :=
  fun m now => alike m (weaker m.heap now)

/-- A step that is alike to another one is alike to itself. -/
theorem self (alike : Alike before step step') : Alike before step step := by
  intro m now
  obtain ⟨result, m', ran⟩ := alike m now
  exact ⟨result, m', fun held => ⟨(ran held).1, (ran held).1⟩⟩

theorem eq (alike : Alike before step step') {m : Machine} (now : before m.heap) :
    step m = step' m := by
  obtain ⟨result, m', ran⟩ := alike m now
  obtain ⟨left, right⟩ := ran m.store.held
  exact left.trans right.symm

/-- To hold on to further scopes makes no difference. -/
theorem holding_eq (alike : Alike before step step') {m : Machine} (now : before m.heap)
    (kept : List Location) : Eval.holding kept step m = step m := by
  obtain ⟨result, m', ran⟩ := alike m now
  have plain : step m = (result, m'.holdingOnly m.store.held) := (ran m.store.held).1
  rw [holding_run, (ran (kept ++ m.store.held)).1, plain]
  rfl

section Steps

theorem const {result : Except Stop α} (fixed : ∀ m, step m = (result, m)) :
    Alike before step step :=
  fun m _ => ⟨result, m, fun _ => ⟨fixed _, fixed _⟩⟩

theorem pure (a : α) : Alike before (Pure.pure a) (Pure.pure a) := const fun _ => rfl

theorem fault (fault : Fault) : Alike before (Eval.fault fault : Eval α) (Eval.fault fault) :=
  const fun _ => rfl

theorem fail (stop : Stop) :
    Alike before (Attempt.fail stop : Eval α) (Attempt.fail stop) := const fun _ => rfl

theorem bind {next next' : α → Eval β} {between : α → Store → Prop} {stops : Stops}
    (first : Alike before step step') (leads : Triple before step between stops)
    (second : ∀ a, Alike (between a) (next a) (next' a)) :
    Alike before (step >>= next) (step' >>= next') := by
  intro m now
  obtain ⟨result, m₁, ran⟩ := first m now
  cases result with
  | error stop =>
    exact ⟨.error stop, m₁, fun held =>
      ⟨Attempt.bind_error (ran held).1, Attempt.bind_error (ran held).2⟩⟩
  | ok a =>
    have here : step m = (.ok a, m₁.holdingOnly m.store.held) := (ran m.store.held).1
    have after : between a m₁.heap := by
      have ended := leads.of_ok now (congrArg Prod.fst here)
      rw [here] at ended
      exact ended
    obtain ⟨result, m₂, ran'⟩ := second a m₁ after
    refine ⟨result, m₂, fun held => ⟨?_, ?_⟩⟩
    · rw [Attempt.bind_ok (ran held).1]
      exact (ran' held).1
    · rw [Attempt.bind_ok (ran held).2]
      exact (ran' held).2

/-- A first step that keeps what holds. -/
theorem bind_keeps {next next' : α → Eval β} (first : Alike before step step')
    (keeps : Keeps before step) (second : ∀ a, Alike before (next a) (next' a)) :
    Alike before (step >>= next) (step' >>= next') :=
  bind first keeps second

theorem ask {query : Store → Except Fault α}
    (same : ∀ store, before store.heap → ∀ held,
      query { store with held := held } = query store) :
    Alike before (Eval.ask query) (Eval.ask query) := by
  intro m now
  have asked (held : List Location) : query (m.holdingOnly held).store = query m.store :=
    same m.store now held
  cases answer : query m.store with
  | ok a =>
    have ran (held : List Location) : Eval.ask query (m.holdingOnly held) =
        (.ok a, m.holdingOnly held) := by rw [Eval.ask, asked, answer]
    exact ⟨_, m, fun held => ⟨ran held, ran held⟩⟩
  | error f =>
    have ran (held : List Location) : Eval.ask query (m.holdingOnly held) =
        (.error (.failed (.ofFault f)), m.holdingOnly held) := by rw [Eval.ask, asked, answer]
    exact ⟨_, m, fun held => ⟨ran held, ran held⟩⟩

/-- A check of a value that does not depend on the store. -/
theorem check (result : Except Fault α) :
    Alike before (Eval.ask fun _ => result) (Eval.ask fun _ => result) :=
  ask fun _ _ _ => rfl

theorem onStore {change : StoreStep α}
    (same : ∀ store held, change { store with held := held } =
      ((change store).1, { (change store).2 with held := held })) :
    Alike before (Eval.onStore change) (Eval.onStore change) := by
  intro m _
  obtain ⟨store, output, stamp⟩ := m
  have changed (held : List Location) := same store held
  cases ran : change store with
  | mk result store' =>
    simp only [ran] at changed
    cases result with
    | ok a =>
      have done (held : List Location) : Eval.onStore change
          (Machine.holdingOnly ⟨store, output, stamp⟩ held) =
            (.ok a, Machine.holdingOnly ⟨store', output, stamp⟩ held) := by
        simp only [Eval.onStore, Machine.holdingOnly, changed]
      exact ⟨_, _, fun held => ⟨done held, done held⟩⟩
    | error f =>
      have done (held : List Location) : Eval.onStore change
          (Machine.holdingOnly ⟨store, output, stamp⟩ held) =
            (.error (.failed (.ofFault f)), Machine.holdingOnly ⟨store', output, stamp⟩ held) := by
        simp only [Eval.onStore, Machine.holdingOnly, changed]
      exact ⟨_, _, fun held => ⟨done held, done held⟩⟩

theorem declare (env : Location) (name : String) (value : Value) (mutability : Mutability) :
    Alike before (Eval.declare env name value mutability)
      (Eval.declare env name value mutability) := by
  refine onStore fun store held => ?_
  have same : ({ store with held := held } : Store).contains env name = store.contains env name :=
    rfl
  rw [Store.declare, Store.declare, same]
  split <;> rfl

theorem declareFunction (env : Location) (name : String) (callable : Callable) :
    Alike before (Eval.declareFunction env name callable)
      (Eval.declareFunction env name callable) :=
  onStore fun _ _ => rfl

theorem assign (env : Location) (name : String) (value : Value) :
    Alike before (Eval.assign env name value) (Eval.assign env name value) := by
  refine onStore fun store held => ?_
  have same : ({ store with held := held } : Store).holder? env name = store.holder? env name :=
    Store.holderWithin_held held name _
  rw [Store.assign, Store.assign, same]
  split <;> rfl

theorem expand (env module : Location) :
    Alike before (Eval.expand env module) (Eval.expand env module) := by
  refine onStore fun store held => ?_
  have same : ({ store with held := held } : Store).expand env module =
      { store.expand env module with held := held } := by
    rw [Store.expand, Store.expand, Store.frame_held]
    split <;> rfl
  rw [Attempt.update, same]
  rfl

theorem openModule (env : Location) (name : String) :
    Alike before (Eval.openModule name env) (Eval.openModule name env) := by
  refine onStore fun store held => ?_
  rw [Store.openModule, Store.openModule, Store.frame_held]
  by_cases isGlobal : (store.frame env).isGlobal = true
  · rw [if_pos isGlobal, if_pos isGlobal]
    cases opened : store.modules.get? name <;> rfl
  · rw [if_neg isGlobal, if_neg isGlobal]

theorem openedModule (name : String) :
    Alike before (Eval.openedModule name) (Eval.openedModule name) :=
  ask fun _ _ _ => rfl

theorem printLine (text : String) : Alike before (Eval.printLine text) (Eval.printLine text) :=
  fun m _ => ⟨.ok (), { m with output := m.output.printLine text }, fun _ => ⟨rfl, rfl⟩⟩

theorem holding (alike : Alike before step step') (kept : List Location) :
    Alike before (Eval.holding kept step) (Eval.holding kept step') := by
  intro m now
  obtain ⟨result, m', ran⟩ := alike m now
  refine ⟨result, m', fun held => ?_⟩
  obtain ⟨left, right⟩ := ran (kept ++ held)
  rw [holding_run, holding_run]
  exact ⟨congrArg (fun ran => (ran.1, ran.2.holdingOnly held)) left,
    congrArg (fun ran => (ran.1, ran.2.holdingOnly held)) right⟩

/-- Work in a new scope starts on a heap that has one frame more. -/
theorem inScope {env : Location} {site : CallSite} {work work' : Location → Eval α}
    (alike : ∀ heap, before heap → Alike (· = heap.add (.create (some env) (some site)))
      (work heap.next) (work' heap.next)) :
    Alike before (Eval.inScope env site work) (Eval.inScope env site work') := by
  intro m now
  obtain ⟨result, m', ran⟩ := holding (alike m.heap now) [m.heap.next]
    ⟨m.store.add (.create (some env) (some site)), m.output, m.nextStamp⟩ rfl
  exact ⟨result, m', ran⟩

end Steps

section Wraps

variable {line : Line} {env : Location}

/-- Where an error comes from does not depend on what is held. -/
theorem located (alike : Alike before step step') :
    Alike before (Eval.located line env step) (Eval.located line env step') := by
  intro m now
  obtain ⟨result, m', ran⟩ := alike m now
  refine ⟨(Eval.located line env (fun _ => (result, m')) m).1, m', fun held => ?_⟩
  obtain ⟨left, right⟩ := ran held
  have site : (m'.holdingOnly held).store.backtrace env = m'.store.backtrace env :=
    Store.backtrace_held held
  rw [Eval.located, Eval.located, left, right]
  rcases result with (_ | _ | _) | _ <;> simp [Eval.located, site]

theorem onLine (alike : Alike before step step') :
    Alike before (Eval.onLine line step) (Eval.onLine line step') := by
  intro m now
  obtain ⟨result, m', ran⟩ := alike m now
  refine ⟨(Eval.onLine line (fun _ => (result, m')) m).1, m', fun held => ?_⟩
  obtain ⟨left, right⟩ := ran held
  rw [Eval.onLine, Eval.onLine, left, right]
  rcases result with (_ | _ | _) | _ <;> simp [Eval.onLine]

theorem uncaught (alike : Alike before step step') :
    Alike before (Eval.uncaught line step) (Eval.uncaught line step') := by
  intro m now
  obtain ⟨result, m', ran⟩ := alike m now
  refine ⟨(Eval.uncaught line (fun _ => (result, m')) m).1, m', fun held => ?_⟩
  obtain ⟨left, right⟩ := ran held
  rw [Eval.uncaught, Eval.uncaught, left, right]
  rcases result with (_ | _ | _) | _ <;> simp [Eval.uncaught]

theorem catchReturn {function : String} {body body' : Eval Unit} (alike : Alike before body body') :
    Alike before (Eval.catchReturn function line env body)
      (Eval.catchReturn function line env body') := by
  intro m now
  obtain ⟨result, m', ran⟩ := alike m now
  refine ⟨(Eval.catchReturn function line env (fun _ => (result, m')) m).1, m', fun held => ?_⟩
  obtain ⟨left, right⟩ := ran held
  have site : (m'.holdingOnly held).store.backtrace env = m'.store.backtrace env :=
    Store.backtrace_held held
  rw [Eval.catchReturn, Eval.catchReturn, left, right]
  rcases result with (_ | _ | _) | _ <;> simp [Eval.catchReturn, site]

end Wraps

end Alike

end Eval

namespace Interpreter

open Eval

variable {interpreter : Interpreter} {evaluator evaluator' : Evaluator} {start : Store}
  {env : Location}

theorem alike_lookup (name : String) :
    Alike (interpreter.LinkedAt start env) (Eval.lookup env name) (Eval.lookup env name) := by
  refine Alike.ask fun store now held => ?_
  have linked := Store.linked_heap.mp now.linked
  rw [Store.lookup, Store.lookup, Store.find, Store.find, linked.findWithin_held]

theorem alike_lookupFunction (name : String) :
    Alike (interpreter.LinkedAt start env) (Eval.lookupFunction env name)
      (Eval.lookupFunction env name) := by
  refine Alike.ask fun store now held => ?_
  have linked := Store.linked_heap.mp now.linked
  rw [Store.lookupFunction, Store.lookupFunction, Store.find, Store.find, linked.findWithin_held]

theorem alike_inScope {α : Type} {outer : Location} {site : CallSite}
    {work work' : Location → Eval α}
    (alike : ∀ scope, scope ≠ interpreter.global →
      Alike (interpreter.LinkedAt start scope) (work scope) (work' scope)) :
    Alike (interpreter.LinkedAt start env) (Eval.inScope outer site work)
      (Eval.inScope outer site work') := by
  refine Alike.inScope fun heap now => ?_
  have inner : heap.next ≠ interpreter.global := Nat.ne_of_gt now.linked.lt_next
  refine (alike heap.next inner).weaken ?_
  rintro _ rfl
  exact now.child

theorem alike_bindArguments {scope : Location} (arguments : Arguments) :
    Alike (interpreter.LinkedAt start env) (Eval.bindArguments scope arguments)
      (Eval.bindArguments scope arguments) := by
  induction arguments with
  | nil => exact Alike.pure _
  | cons argument rest ih =>
    exact (Alike.declare scope _ _ _).bind_keeps (linked_declare _ _ _) fun _ => ih

/-- Two evaluators that are alike on the nodes that are admitted in a scope. -/
structure Pair (interpreter : Interpreter) (admits : Node → Location → Prop)
    (evaluator evaluator' : Evaluator) : Prop where
  alike : ∀ node start env, admits node env →
    Alike (interpreter.LinkedAt start env) (evaluator node env) (evaluator' node env)
  linking : interpreter.Linking evaluator
  /-- In all scopes but the global one any node is admitted. -/
  inner : ∀ node env, env ≠ interpreter.global → admits node env

section Walks

variable {admits : Node → Location → Prop}
  (pair : interpreter.Pair admits evaluator evaluator')

include pair

theorem alike_sequence {body : List Node} (admitted : ∀ node ∈ body, admits node env)
    (last : Value) :
    Alike (interpreter.LinkedAt start env) (Eval.sequence evaluator env last body)
      (Eval.sequence evaluator' env last body) := by
  induction body generalizing last with
  | nil => exact Alike.pure _
  | cons node rest ih =>
    obtain ⟨head, tail⟩ := List.forall_mem_cons.mp admitted
    refine ((pair.alike node start env head).holding _).bind_keeps ?_ fun value => ih tail value
    exact Triple.holding (pair.linking node start env)

theorem alike_runBody {body : List Node} (admitted : ∀ node ∈ body, admits node env) :
    Alike (interpreter.LinkedAt start env) (Eval.runBody evaluator env body)
      (Eval.runBody evaluator' env body) := by
  induction body with
  | nil => exact Alike.pure _
  | cons node rest ih =>
    obtain ⟨head, tail⟩ := List.forall_mem_cons.mp admitted
    exact (pair.alike node start env head).bind_keeps (pair.linking node start env) fun _ => ih tail

theorem alike_evaluateArguments {arguments : List (String × Node)}
    (admitted : ∀ argument ∈ arguments, admits argument.2 env) :
    Alike (interpreter.LinkedAt start env) (Eval.evaluateArguments evaluator env arguments)
      (Eval.evaluateArguments evaluator' env arguments) := by
  induction arguments with
  | nil => exact Alike.pure _
  | cons argument rest ih =>
    obtain ⟨head, tail⟩ := List.forall_mem_cons.mp admitted
    refine (pair.alike argument.2 start env head).bind_keeps (pair.linking _ start env)
      fun value => ?_
    refine ((ih tail).holding _).bind_keeps (Triple.holding ?_) fun _ => Alike.pure _
    exact Keeps.evaluateArguments fun argument _ => pair.linking argument.2 start env

theorem alike_testCondition {condition : Node} (admitted : admits condition env) :
    Alike (interpreter.LinkedAt start env) (Eval.testCondition evaluator condition env)
      (Eval.testCondition evaluator' condition env) :=
  (pair.alike condition start env admitted).bind_keeps (pair.linking condition start env)
    fun value => (Alike.check value.truth).onLine

theorem alike_scope (outer : Location) (site : CallSite) (body : List Node) :
    Alike (interpreter.LinkedAt start env)
      (Eval.inScope outer site fun scope => Eval.sequence evaluator scope .unit body)
      (Eval.inScope outer site fun scope => Eval.sequence evaluator' scope .unit body) :=
  alike_inScope fun scope inner =>
    alike_sequence pair (fun node _ => pair.inner node scope inner) .unit

theorem alike_runLoop {line : Line} {condition : Node} (admitted : admits condition env)
    (body : List Node) (rounds : Nat) :
    Alike (interpreter.LinkedAt start env)
      (Eval.runLoop evaluator line condition body env rounds)
      (Eval.runLoop evaluator' line condition body env rounds) := by
  induction rounds with
  | zero => exact Alike.fail _
  | succ rounds ih =>
    refine (alike_testCondition pair admitted).bind_keeps
      (Keeps.testCondition (pair.linking condition start env)) fun chosen => ?_
    cases chosen with
    | true =>
      refine (alike_scope pair env ⟨"while", line⟩ body).bind_keeps ?_ fun _ => ih
      exact linked_inScope fun scope =>
        Keeps.sequence (fun node => pair.linking node start scope) body _
    | false => exact Alike.pure _

theorem alike_body (function : String) (line : Line) (arguments : Arguments) (body : List Node)
    {scope : Location} (inner : scope ≠ interpreter.global) :
    Alike (interpreter.LinkedAt start scope)
      (do
        Eval.bindArguments scope arguments
        Eval.catchReturn function line scope (Eval.runBody evaluator scope body))
      (do
        Eval.bindArguments scope arguments
        Eval.catchReturn function line scope (Eval.runBody evaluator' scope body)) :=
  (alike_bindArguments arguments).bind_keeps (linked_bindArguments arguments) fun _ =>
    (alike_runBody pair fun node _ => pair.inner node scope inner).catchReturn

variable (hosts : interpreter.natives = Native.standard)

include hosts

theorem alike_invokeWith (callable : Callable) (site : Node) (arguments : Arguments)
    (scope : Location) :
    Alike (interpreter.LinkedAt start env)
      (interpreter.invokeWith evaluator callable site arguments scope)
      (interpreter.invokeWith evaluator' callable site arguments scope) := by
  cases callable with
  | function header body =>
    exact alike_inScope fun scope => alike_body pair header.name site.line arguments body
  | closure header body captured =>
    exact alike_inScope fun scope => alike_body pair _ site.line arguments body
  | native header =>
    refine alike_inScope fun scope _ => Alike.catchReturn ?_
    rw [callNative, hosts]
    split
    · rename_i native supplied
      cases Native.eq_println_of_standard supplied
      have prints : Keeps (interpreter.LinkedAt start scope)
          (Native.println site arguments scope) :=
        Triple.bind (Triple.printLine fun _ now => now) fun _ => Keeps.pure _
      refine Alike.bind_keeps ?_ prints fun value => Alike.fail _
      exact (Alike.printLine _).bind_keeps (Triple.printLine fun _ now => now)
        fun _ => Alike.pure _
    · exact Alike.fault _
  | constructor header =>
    exact alike_inScope fun _ _ => (Alike.fail _).catchReturn

theorem alike_evaluateCall (site : Node) {callee : Node} {arguments : List (String × Node)}
    (called : admits callee env) (admitted : ∀ argument ∈ arguments, admits argument.2 env) :
    Alike (interpreter.LinkedAt start env)
      (interpreter.evaluateCall evaluator site callee arguments env)
      (interpreter.evaluateCall evaluator' site callee arguments env) := by
  have target : Alike (interpreter.LinkedAt start env) (evaluateCallee evaluator callee env)
      (evaluateCallee evaluator' callee env) := by
    rw [evaluateCallee.eq_def, evaluateCallee.eq_def]
    split
    · exact (alike_lookupFunction _).bind_keeps (Keeps.lookupFunction _ _) fun _ => Alike.pure _
    · exact alike_lookup _
    · exact pair.alike callee start env called
  refine target.bind_keeps (Keeps.evaluateCallee (pair.linking callee start env)) fun value => ?_
  refine Alike.holding ?_ _
  refine (alike_evaluateArguments pair admitted).bind_keeps
    (Keeps.evaluateArguments fun argument _ => pair.linking argument.2 start env) fun values => ?_
  split
  · exact (alike_invokeWith pair hosts _ site values env).holding _
  · exact Alike.fault _

/-- A step over evaluators that are alike on the operands. -/
theorem alike_step (rounds : Nat) {node : Node}
    (admitted : ∀ operand ∈ node.operands, admits operand env) :
    Alike (interpreter.LinkedAt start env) (interpreter.step rounds evaluator node env)
      (interpreter.step rounds evaluator' node env) := by
  have operand {below : Node} (mem : below ∈ node.operands) :
      Alike (interpreter.LinkedAt start env) (evaluator below env) (evaluator' below env) :=
    pair.alike below start env (admitted below mem)
  have keeps (below : Node) : Keeps (interpreter.LinkedAt start env) (evaluator below env) :=
    pair.linking below start env
  cases node with
  | literal | anonymous => exact Alike.pure _
  | this | readVariable => exact alike_lookup _
  | readFunction =>
    exact (alike_lookupFunction _).bind_keeps (Keeps.lookupFunction _ _) fun _ => Alike.pure _
  | get | set | record => exact Alike.fault _
  | call tag callee arguments =>
    obtain ⟨called, given⟩ := List.forall_mem_cons.mp admitted
    exact alike_evaluateCall pair hosts _ called fun argument mem =>
      given _ (List.mem_map_of_mem mem)
  | unary tag op right =>
    exact (operand List.mem_cons_self).bind_keeps (keeps right) fun _ => Alike.check _
  | binary tag op left right =>
    refine (operand List.mem_cons_self).bind_keeps (keeps left) fun value => ?_
    have second := operand (List.mem_cons_of_mem _ List.mem_cons_self)
    exact (second.holding _).bind_keeps (Triple.holding (keeps right)) fun _ => Alike.check _
  | logical tag op left right =>
    refine (operand List.mem_cons_self).bind_keeps (keeps left) fun value => ?_
    refine (Alike.check _).bind_keeps (Keeps.ask _) fun decided => ?_
    split
    · exact Alike.pure _
    · have second := operand (List.mem_cons_of_mem _ List.mem_cons_self)
      refine second.bind_keeps (keeps right) fun _ => ?_
      exact (Alike.check _).bind_keeps (Keeps.ask _) fun _ => Alike.pure _
  | bind tag mutability name value =>
    refine (operand List.mem_cons_self).bind_keeps (keeps value) fun bound => ?_
    exact (Alike.declare _ _ _ _).bind_keeps (linked_declare _ _ _) fun _ => Alike.pure _
  | assign tag name value =>
    refine (operand List.mem_cons_self).bind_keeps (keeps value) fun assigned => ?_
    exact (Alike.assign _ _ _).bind_keeps (linked_assign _ _) fun _ => Alike.pure _
  | returns tag value =>
    exact (operand List.mem_cons_self).bind_keeps (keeps value) fun _ => Alike.fail _
  | block tag body => exact alike_scope pair env _ body
  | loop tag condition body => exact alike_runLoop pair (admitted _ List.mem_cons_self) body rounds
  | branch tag condition whenTrue whenFalse =>
    refine (alike_testCondition pair (admitted _ List.mem_cons_self)).bind_keeps
      (Keeps.testCondition (keeps condition)) fun chosen => ?_
    exact alike_scope pair env _ _
  | function | native =>
    exact (Alike.declareFunction _ _ _).bind_keeps (linked_declareFunction _ _)
      fun _ => Alike.pure _
  | openModule tag name =>
    exact (Alike.openModule _ _).bind_keeps
      (Triple.mono (linked_openModule name) fun _ _ now => now.1) fun _ => Alike.pure _
  | useModule tag name =>
    have used : Alike (interpreter.LinkedAt start env)
        (Eval.openedModule name >>= Eval.expand env) (Eval.openedModule name >>= Eval.expand env) :=
      (Alike.openedModule _).bind_keeps (Keeps.ask _) fun _ => Alike.expand _ _
    have both := used.bind_keeps (linked_useModule name) fun _ => Alike.pure Value.unit
    rw [bind_assoc] at both
    exact both

end Walks

end Interpreter

end ScriptCore
