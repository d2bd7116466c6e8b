import ScriptCore.Native.Standard
import ScriptCore.Proofs.Eval.ClosureFree
import ScriptCore.Proofs.Eval.Operators

/-!
# Errors carry the call stack

An error picks up its line and its call sites at the innermost node that it passes. Where there are
no closures, that node is evaluated in the scope of every node around it or in one inside of it, so
that the call sites of an error end with those of every scope that it passes (`tracing_evaluate`).
-/
namespace ScriptCore

namespace EvalError

variable {e : EvalError} {sites inner : Backtrace}

/-- If call sites are attached, they end with these. -/
def Passes (sites : Backtrace) (e : EvalError) : Prop :=
  ∀ trace, e.backtrace = some trace → sites <:+ trace

/-- A line and call sites are attached, and the call sites end with these. Where there are none,
none need be attached. -/
structure Placed (sites : Backtrace) (e : EvalError) : Prop where
  line : e.line.isSome = true
  suffix : sites <:+ e.backtrace.getD []
  attached : sites ≠ [] → e.backtrace.isSome = true

theorem passes_ofFault {fault : Fault} : (ofFault fault).Passes sites := nofun

theorem Passes.of_suffix (passes : e.Passes inner) (suffix : sites <:+ inner) : e.Passes sites :=
  fun trace attached => suffix.trans (passes trace attached)

/-- Call sites that are attached stay, others are attached. -/
theorem Passes.placed (passes : e.Passes sites) (line : Line) :
    ((e.atLine line).withBacktrace sites).Placed sites := by
  obtain ⟨fault, own, backtrace⟩ := e
  cases backtrace with
  | some trace =>
    have suffix : sites <:+ trace := passes trace rfl
    refine ⟨?_, suffix, fun _ => rfl⟩
    cases own <;> rfl
  | none =>
    cases sites with
    | nil =>
      refine ⟨?_, List.suffix_refl _, fun some => absurd rfl some⟩
      cases own <;> rfl
    | cons site rest =>
      refine ⟨?_, List.suffix_refl _, fun _ => rfl⟩
      cases own <;> rfl

theorem Placed.passes (placed : e.Placed sites) : e.Passes sites := by
  intro trace attached
  have suffix := placed.suffix
  rw [attached] at suffix
  exact suffix

end EvalError

namespace Eval

/-- A result that `fits`, a returned value that is no closure, or an error that passes these call
sites. -/
def Traced {α : Type} (sites : Backtrace) (fits : α → Prop) : Except Stop α → Prop
  | .ok a => fits a
  | .error (.returned value) => value.ClosureFree
  | .error (.failed e) => e.Passes sites
  | .error .exhausted => True

/-- From a store without closures the step leads to one in which all scopes keep their places. It
gives a result that `fits`, and its errors pass the call sites around `env`. -/
def Traces {α : Type} (env : Location) (fits : α → Prop) (step : Eval α) : Prop :=
  ∀ m : Machine, m.store.ClosureFree → env < m.store.next →
    (step m).2.store.ClosureFree ∧ m.store.KeepsPlaces (step m).2.store ∧
      Traced (m.store.backtrace env) fits (step m).1

variable {α β : Type} {env : Location} {fits fits' : α → Prop} {step : Eval α}
  {sites inner : Backtrace}

theorem Traced.mono {result : Except Stop α} (traced : Traced inner fits result)
    (suffix : sites <:+ inner) (weaker : ∀ a, fits a → fits' a) : Traced sites fits' result := by
  rcases result with (value | e | _) | a
  · exact traced
  · exact EvalError.Passes.of_suffix traced suffix
  · exact trivial
  · exact weaker a traced

namespace Traces

section Rules

theorem pure {a : α} (held : fits a) : Traces env fits (Pure.pure a) :=
  fun _ free _ => ⟨free, .refl, held⟩

theorem returned {value : Value} (free : value.ClosureFree) :
    Traces env fits (Attempt.fail (.returned value)) :=
  fun _ free' _ => ⟨free', .refl, free⟩

theorem fault (f : Fault) : Traces env fits (Eval.fault f) :=
  fun _ free _ => ⟨free, .refl, EvalError.passes_ofFault⟩

theorem exhausted : Traces env fits (Attempt.fail .exhausted) :=
  fun _ free _ => ⟨free, .refl, trivial⟩

theorem bind {first : Eval β} {next : β → Eval α} {between : β → Prop}
    (before : Traces env between first) (behind : ∀ b, between b → Traces env fits (next b)) :
    Traces env fits (first >>= next) := by
  intro m free inside
  have start := before m free inside
  rw [Attempt.bind_run]
  rcases done : first m with ⟨stop | b, m'⟩
  · rw [done] at start
    obtain ⟨free', keeps, traced⟩ := start
    exact ⟨free', keeps, by cases stop <;> exact traced⟩
  · rw [done] at start
    obtain ⟨free', keeps, held⟩ := start
    have rest := behind b held m' free' (keeps.lt_next inside)
    obtain ⟨free'', keeps', traced⟩ := rest
    rw [keeps.backtrace_eq free.tree free'.tree inside] at traced
    exact ⟨free'', keeps.trans keeps', traced⟩

theorem ask {query : Store → Except Fault α}
    (ok : ∀ store a, store.ClosureFree → query store = .ok a → fits a) :
    Traces env fits (Eval.ask query) := by
  intro m free inside
  rw [Eval.ask]
  cases asked : query m.store with
  | ok a => exact ⟨free, .refl, ok m.store a free asked⟩
  | error f => exact ⟨free, .refl, EvalError.passes_ofFault⟩

/-- A question of which nothing need be known of the answer. -/
theorem check (query : Store → Except Fault α) : Traces env (fun _ => True) (Eval.ask query) :=
  ask fun _ _ _ _ => trivial

/-- A step on the store that changes nothing when it is refused. -/
theorem onStore {operation : StoreStep α}
    (ok : ∀ store a store', store.ClosureFree → env < store.next →
      operation store = (.ok a, store') →
      fits a ∧ store'.ClosureFree ∧ store.KeepsPlaces store')
    (refused : ∀ store f store', operation store = (.error f, store') → store' = store) :
    Traces env fits (Eval.onStore operation) := by
  rintro ⟨store, output, stamp⟩ free inside
  rw [Eval.onStore]
  rcases done : operation store with ⟨f | a, store'⟩
  · obtain rfl := refused store f store' done
    exact ⟨free, .refl, EvalError.passes_ofFault⟩
  · obtain ⟨held, free', keeps⟩ := ok store a store' free inside done
    exact ⟨free', keeps, held⟩

theorem lookup (name : String) : Traces env Value.ClosureFree (Eval.lookup env name) :=
  ask fun _ _ free found => free.lookup found

theorem lookupFunction (name : String) :
    Traces env Callable.ClosureFree (Eval.lookupFunction env name) :=
  ask fun _ _ free found => free.lookupFunction found

theorem declare {name : String} {value : Value} {mutability : Mutability}
    (bound : value.ClosureFree) :
    Traces env (fun _ => True) (Eval.declare env name value mutability) := by
  refine onStore (fun store _ store' free _ done => ?_) (fun store f store' done => ?_)
  all_goals
    rw [Store.declare] at done
    split at done
    all_goals cases done
  · exact ⟨trivial, free.setVariable bound, Store.keepsPlaces_update (fun _ => rfl) fun _ => rfl⟩
  · rfl

theorem declareFunction {name : String} {callable : Callable}
    (declared : callable.ClosureFree) :
    Traces env (fun _ => True) (Eval.declareFunction env name callable) := by
  refine onStore (fun store _ store' free _ done => ?_) nofun
  cases done
  exact ⟨trivial, free.declareFunction declared,
    Store.keepsPlaces_update (fun _ => rfl) fun _ => rfl⟩

theorem assign {name : String} {value : Value} (assigned : value.ClosureFree) :
    Traces env (fun _ => True) (Eval.assign env name value) := by
  refine onStore (fun store _ store' free _ done => ?_) (fun store f store' done => ?_)
  all_goals
    rw [Store.assign] at done
    split at done
    all_goals cases done
  · exact ⟨trivial, free.setVariable assigned,
      Store.keepsPlaces_update (fun _ => rfl) fun _ => rfl⟩
  · rfl
  · rfl

theorem expand (module : Location) : Traces env (fun _ => True) (Eval.expand env module) := by
  refine onStore (fun store _ store' free _ done => ?_) nofun
  cases done
  exact ⟨trivial, free.expand, Store.keepsPlaces_expand⟩

theorem openModule (name : String) :
    Traces env (fun _ => True) (Eval.openModule name env) := by
  refine onStore (fun store _ store' free inside done => ?_) (fun store f store' done => ?_)
  all_goals
    rw [Store.openModule] at done
    split at done
    · split at done
      all_goals cases done
      try exact ⟨trivial, free, .refl⟩
      try exact ⟨trivial, ⟨(free.child inside).frames, (free.child inside).tree⟩,
        Store.keepsPlaces_add⟩
    · cases done
      try rfl

theorem printLine (text : String) : Traces env (fun _ => True) (Eval.printLine text) :=
  fun _ free _ => ⟨free, .refl, trivial⟩

theorem holding (kept : List Location) (traces : Traces env fits step) :
    Traces env fits (Eval.holding kept step) := by
  intro m free inside
  have run := traces (m.holdingOnly (kept ++ m.store.held)) (free.held _) inside
  rw [Machine.holdingOnly, Store.backtrace_held] at run
  rw [holding_run]
  exact ⟨run.1.held _, run.2.1, run.2.2⟩

/-- An error in a new scope passes the call sites around that scope, the first of which is its own,
and so it passes those around the scope that it is opened in. -/
theorem inScope {site : CallSite} {work : Location → Eval α}
    (traces : ∀ scope, Traces scope fits (work scope)) :
    Traces env fits (Eval.inScope env site work) := by
  intro m free inside
  have entered : (m.store.add (.create (some env) (some site))).ClosureFree := free.child inside
  have new : m.store.next < (m.store.add (.create (some env) (some site))).next :=
    Store.next_add ▸ Nat.lt_succ_self _
  have run := (traces m.store.next).holding [m.store.next]
    ⟨m.store.add (.create (some env) (some site)), m.output, m.nextStamp⟩ entered new
  obtain ⟨free', keeps, traced⟩ := run
  rw [free.tree.backtrace_child inside] at traced
  exact ⟨free', Store.keepsPlaces_add.trans keeps,
    traced.mono (List.suffix_cons site _) fun _ held => held⟩

theorem located {line : Line} (traces : Traces env fits step) :
    Traces env fits (Eval.located line env step) := by
  intro m free inside
  have run := traces m free inside
  rw [Eval.located]
  revert run
  rcases step m with ⟨(value | e | _) | a, m'⟩ <;> intro run
  case error.failed =>
    obtain ⟨free', keeps, passes⟩ := run
    refine ⟨free', keeps, ?_⟩
    rw [← keeps.backtrace_eq free.tree free'.tree inside] at passes ⊢
    exact (EvalError.Passes.placed passes line).passes
  all_goals exact run

theorem onLine {line : Line} (traces : Traces env fits step) :
    Traces env fits (Eval.onLine line step) := by
  intro m free inside
  have run := traces m free inside
  rw [Eval.onLine]
  revert run
  rcases step m with ⟨(value | e | _) | a, m'⟩ <;> exact id

/-- What a body returns is the result of the invocation. A missing return is located in the scope of
the body. -/
theorem catchReturn {function : String} {line : Line} {body : Eval Unit}
    (traces : Traces env (fun _ => True) body) :
    Traces env Value.ClosureFree (Eval.catchReturn function line env body) := by
  intro m free inside
  have run := traces m free inside
  rw [Eval.catchReturn]
  revert run
  rcases body m with ⟨(value | e | _) | a, m'⟩ <;> intro run
  case ok =>
    obtain ⟨free', keeps, -⟩ := run
    refine ⟨free', keeps, ?_⟩
    rw [← keeps.backtrace_eq free.tree free'.tree inside]
    exact (EvalError.Passes.placed EvalError.passes_ofFault line).passes
  all_goals exact run

/-- An error that is located in a scope has a line, and its call sites end with those around the
scope. -/
theorem placed_located {line : Line} (traces : Traces env fits step) {m m' : Machine}
    (free : m.store.ClosureFree) (inside : env < m.store.next) {e : EvalError}
    (failed : Eval.located line env step m = (.error (.failed e), m')) :
    e.Placed (m.store.backtrace env) ∧ m'.store.backtrace env = m.store.backtrace env := by
  have run := traces m free inside
  rw [Eval.located] at failed
  revert run failed
  rcases step m with ⟨(value | raised | _) | a, later⟩ <;> intro failed run
  case error.failed =>
    obtain ⟨free', keeps, passes⟩ := run
    have same := keeps.backtrace_eq free.tree free'.tree inside
    cases failed
    rw [same]
    exact ⟨EvalError.Passes.placed passes line, rfl⟩
  all_goals cases failed

end Rules

section Walks

variable {evaluator : Evaluator}

theorem sequence {body : List Node} {last : Value} (start : last.ClosureFree)
    (each : ∀ node ∈ body, Traces env Value.ClosureFree (evaluator node env)) :
    Traces env Value.ClosureFree (Eval.sequence evaluator env last body) := by
  induction body generalizing last with
  | nil => exact pure start
  | cons node rest ih =>
    obtain ⟨first, others⟩ := List.forall_mem_cons.mp each
    exact (first.holding _).bind fun value free => ih free others

theorem runBody {body : List Node}
    (each : ∀ node ∈ body, Traces env Value.ClosureFree (evaluator node env)) :
    Traces env (fun _ => True) (Eval.runBody evaluator env body) := by
  induction body with
  | nil => exact pure trivial
  | cons node rest ih =>
    obtain ⟨first, others⟩ := List.forall_mem_cons.mp each
    exact first.bind fun _ _ => ih others

theorem evaluateArguments {arguments : List (String × Node)}
    (each : ∀ node ∈ arguments.map Prod.snd, Traces env Value.ClosureFree (evaluator node env)) :
    Traces env Arguments.ClosureFree (Eval.evaluateArguments evaluator env arguments) := by
  induction arguments with
  | nil => exact pure nofun
  | cons argument rest ih =>
    obtain ⟨first, others⟩ := List.forall_mem_cons.mp each
    refine first.bind fun value free => ((ih others).holding _).bind fun values frees => ?_
    exact pure (List.forall_mem_cons.mpr ⟨free, frees⟩)

theorem testCondition {condition : Node}
    (test : Traces env Value.ClosureFree (evaluator condition env)) :
    Traces env (fun _ => True) (Eval.testCondition evaluator condition env) :=
  test.bind fun _ _ => (check _).onLine

/-- A body in a scope of its own. -/
theorem block {site : CallSite} {body : List Node}
    (each : ∀ scope, ∀ node ∈ body, Traces scope Value.ClosureFree (evaluator node scope)) :
    Traces env Value.ClosureFree
      (Eval.inScope env site fun scope => Eval.sequence evaluator scope .unit body) := by
  refine inScope fun scope => sequence ?_ (each scope)
  exact trivial

theorem runLoop {line : Line} {condition : Node} {body : List Node}
    (test : Traces env Value.ClosureFree (evaluator condition env))
    (each : ∀ scope, ∀ node ∈ body, Traces scope Value.ClosureFree (evaluator node scope))
    (rounds : Nat) :
    Traces env Value.ClosureFree (Eval.runLoop evaluator line condition body env rounds) := by
  induction rounds with
  | zero => exact exhausted
  | succ rounds rest =>
    rw [Eval.runLoop]
    refine (testCondition test).bind fun chosen _ => ?_
    cases chosen with
    | true => exact (block each).bind fun _ _ => rest
    | false => exact pure trivial

theorem bindArguments {arguments : Arguments} (free : arguments.ClosureFree) :
    Traces env (fun _ => True) (Eval.bindArguments env arguments) := by
  induction arguments with
  | nil => exact pure trivial
  | cons argument rest ih =>
    obtain ⟨first, others⟩ := List.forall_mem_cons.mp free
    exact (declare first).bind fun _ _ => ih others

end Walks

end Traces

end Eval

namespace Interpreter

open Eval

variable {interpreter : Interpreter} {evaluator : Evaluator} {env : Location}

/-- An evaluator whose errors carry the call stack, for nodes without closures. -/
def Tracing (evaluator : Evaluator) : Prop :=
  ∀ node env, Node.ClosureFree [node] → Traces env Value.ClosureFree (evaluator node env)

section Step

variable (tracing : Tracing evaluator)

include tracing

theorem Tracing.all {body : List Node} (free : Node.ClosureFree body) (scope : Location) :
    ∀ node ∈ body, Traces scope Value.ClosureFree (evaluator node scope) :=
  fun node mem => tracing node scope (free.of_mem mem)

theorem traces_invokeWith (hosts : interpreter.natives = Native.standard) {callable : Callable}
    (free : callable.ClosureFree) (site : Node) {arguments : Arguments}
    (given : arguments.ClosureFree) :
    Traces env Value.ClosureFree
      (interpreter.invokeWith evaluator callable site arguments env) := by
  cases callable with
  | function header body =>
    refine Traces.inScope fun scope => (Traces.bindArguments given).bind fun _ _ => ?_
    exact .catchReturn (.runBody (tracing.all free scope))
  | closure header body captured => exact free.elim
  | native header =>
    refine Traces.inScope fun scope => .catchReturn ?_
    rw [callNative, hosts]
    split
    · rename_i native supplied
      cases Native.eq_println_of_standard supplied
      have printed : Traces scope Value.ClosureFree (Native.println site arguments scope) :=
        (Traces.printLine _).bind fun _ _ => .pure trivial
      exact printed.bind fun _ unit => .returned unit
    · exact .fault _
  | constructor header =>
    refine Traces.inScope fun scope => .catchReturn (.returned ?_)
    rw [construct]
    split <;> trivial

theorem traces_evaluateCallee {callee : Node} (free : Node.ClosureFree [callee]) :
    Traces env Value.ClosureFree (evaluateCallee evaluator callee env) := by
  rw [evaluateCallee.eq_def]
  split
  · exact (Traces.lookupFunction _).bind fun _ callable => .pure callable
  · exact .lookup _
  · exact tracing _ env free

theorem traces_evaluateCall (hosts : interpreter.natives = Native.standard) {site callee : Node}
    {arguments : List (String × Node)} (free : Node.ClosureFree [callee])
    (given : Node.ClosureFree (arguments.map Prod.snd)) :
    Traces env Value.ClosureFree
      (interpreter.evaluateCall evaluator site callee arguments env) := by
  refine (traces_evaluateCallee tracing free).bind fun target found => .holding _ ?_
  refine (Traces.evaluateArguments (tracing.all given env)).bind fun values frees => ?_
  split
  · rename_i callable is
    exact .holding _ (traces_invokeWith tracing hosts (found.asCallable? is) site frees)
  · exact .fault _

theorem traces_evaluateLogical {op : LogicalOp} {left right : Node}
    (first : Node.ClosureFree [left]) (second : Node.ClosureFree [right]) :
    Traces env Value.ClosureFree (evaluateLogical evaluator op left right env) := by
  refine (tracing left env first).bind fun _ _ =>
    (Traces.check _).bind fun decided _ => ?_
  split
  · exact .pure trivial
  · refine (tracing right env second).bind fun _ _ =>
      (Traces.check _).bind fun _ _ => ?_
    exact .pure trivial

/-- The nodes below a node without closures are evaluated in its scope or in one inside of it. -/
theorem traces_step (hosts : interpreter.natives = Native.standard) (rounds : Nat) {node : Node}
    (free : Node.ClosureFree [node]) :
    Traces env Value.ClosureFree (interpreter.step rounds evaluator node env) := by
  have part {part : Node} (mem : part ∈ node.parts) := tracing part env (free.part mem)
  cases node with
  | literal tag value =>
    exact .pure (Value.closureFree_of_asCallable? (Value.asCallable?_ofLiteral value))
  | this => exact .lookup _
  | readVariable => exact .lookup _
  | readFunction => exact (Traces.lookupFunction _).bind fun _ callable => .pure callable
  | get => exact .fault _
  | set => exact .fault _
  | call tag callee arguments =>
    obtain ⟨first, given⟩ := Node.closureFree_cons.mp free.parts
    exact traces_evaluateCall tracing hosts first given
  | unary tag op right =>
    refine (part List.mem_cons_self).bind fun _ _ => .ask fun _ value _ computed => ?_
    exact Value.closureFree_of_asCallable? (Value.asCallable?_unary computed)
  | binary tag op left right =>
    refine (part List.mem_cons_self).bind fun _ _ => ?_
    refine ((part (List.mem_cons_of_mem _ List.mem_cons_self)).holding _).bind fun _ _ => ?_
    refine .ask fun _ value _ computed => ?_
    exact Value.closureFree_of_asCallable? (Value.asCallable?_binary computed)
  | logical tag op left right =>
    exact traces_evaluateLogical tracing (free.part List.mem_cons_self)
      (free.part (List.mem_cons_of_mem _ List.mem_cons_self))
  | bind tag mutability name value =>
    exact (part List.mem_cons_self).bind fun _ bound =>
      (Traces.declare bound).bind fun _ _ => .pure bound
  | assign tag name value =>
    exact (part List.mem_cons_self).bind fun _ assigned =>
      (Traces.assign assigned).bind fun _ _ => .pure assigned
  | returns tag value => exact (part List.mem_cons_self).bind fun _ => .returned
  | block tag body => exact .block fun scope => tracing.all free.parts scope
  | loop tag condition body =>
    obtain ⟨test, below⟩ := Node.closureFree_cons.mp free.parts
    exact .runLoop (tracing condition env test) (fun scope => tracing.all below scope) rounds
  | branch tag condition whenTrue whenFalse =>
    obtain ⟨test, below⟩ := Node.closureFree_cons.mp free.parts
    obtain ⟨first, second⟩ := Node.closureFree_append.mp below
    refine (Traces.testCondition (tracing condition env test)).bind fun chosen _ => ?_
    refine .block fun scope => ?_
    cases chosen with
    | true => exact tracing.all first scope
    | false => exact tracing.all second scope
  | function tag header body =>
    have declared : (Callable.function header body).ClosureFree := free.parts
    exact (Traces.declareFunction declared).bind fun _ _ => .pure declared
  | native tag header =>
    have declared : (Callable.native header).ClosureFree := trivial
    exact (Traces.declareFunction declared).bind fun _ _ => .pure declared
  | anonymous tag header body =>
    have refused := (Node.forall_all_singleton.mp free).1
    cases refused
  | record => exact .fault _
  | openModule tag name => exact (Traces.openModule name).bind fun _ _ => .pure trivial
  | useModule tag name =>
    have opened : Traces env (fun _ => True) (Eval.openedModule name) := .check _
    exact opened.bind fun module _ => (Traces.expand module).bind fun _ _ => .pure trivial

end Step

theorem tracing_evaluate (hosts : interpreter.natives = Native.standard) (fuel : Nat) :
    Tracing (interpreter.evaluate fuel) := by
  induction fuel with
  | zero => exact fun _ _ _ => .exhausted
  | succ fuel ih => exact fun node env free => .located (traces_step ih hosts fuel free)

/-- In a store without closures, where the host supplies the standard functions alone, let the
evaluation of a node without anonymous functions end in an error. The error has a line. Its call
sites end with those around the scope of the node, which the evaluation leaves as they are, and they
are attached if any scope on the way outwards has one. -/
theorem errors_carry_call_stack (hosts : interpreter.natives = Native.standard) {m m' : Machine}
    (free : m.store.ClosureFree) (inside : env < m.store.next) {node : Node}
    (plain : Node.ClosureFree [node]) {fuel : Nat} {e : EvalError}
    (failed : interpreter.evaluate fuel node env m = (.error (.failed e), m')) :
    e.line.isSome = true ∧ m.store.backtrace env <:+ e.backtrace.getD [] ∧
      ((∃ scope ∈ m.store.chain env, (m.store.frame scope).callSite.isSome = true) →
        e.backtrace.isSome = true) ∧
      m'.store.backtrace env = m.store.backtrace env := by
  cases fuel with
  | zero => cases failed
  | succ fuel =>
    have traces : Traces env Value.ClosureFree
        (interpreter.step fuel (interpreter.evaluate fuel) node env) :=
      traces_step (tracing_evaluate hosts fuel) hosts fuel plain
    obtain ⟨placed, same⟩ := traces.placed_located free inside failed
    refine ⟨placed.line, placed.suffix, fun ⟨scope, mem, site⟩ => placed.attached ?_, same⟩
    obtain ⟨own, known⟩ := Option.isSome_iff_exists.mp site
    exact List.ne_nil_of_mem (List.mem_filterMap.mpr ⟨scope, mem, known⟩)

/-- A function whose body reads a variable that is not there. -/
def readsMissing : Callable :=
  .function ⟨0, "f-0", "f", ⟨[], .unit, none⟩, ⟨1⟩⟩
    [.block ⟨.unit, ⟨2⟩⟩ [.readVariable ⟨.int, ⟨3⟩⟩ "x"]]

/-- A block in the global scope, where the function is declared. -/
def insideBlock : Machine where
  store := {
    frames := #[⟨.empty, ⟨[("f-0", readsMissing)]⟩, [], none, none⟩,
      .create (some 0) (some ⟨"block", ⟨5⟩⟩)]
    modules := .empty
    held := [0, 1] }
  output := .silent
  nextStamp := 0

theorem closureFree_insideBlock : insideBlock.store.ClosureFree := by
  refine ⟨fun env frame there => ?_, Store.isTree_of_frames (by decide +kernel)⟩
  match env with
  | 0 =>
    cases there
    refine ⟨nofun, fun name callable found => ?_⟩
    change (if "f-0" = name then some readsMissing else none) = some callable at found
    split at found
    · cases found
      change ∀ node ∈ Node.all _, node.isAnonymous = false
      decide
    · cases found
  | 1 =>
    cases there
    exact ⟨nofun, nofun⟩
  | env + 2 => cases there

theorem errors_carry_call_stack_insideBlock :
    let interpreter : Interpreter := ⟨0, .empty, Native.standard⟩
    let call : Node := .call ⟨.unit, ⟨6⟩⟩ (.readFunction ⟨.unit, ⟨6⟩⟩ "f-0") []
    let e : EvalError := ⟨.undefinedVariable "x", some ⟨3⟩,
      some [⟨"block", ⟨2⟩⟩, ⟨"call f-0", ⟨6⟩⟩, ⟨"block", ⟨5⟩⟩]⟩
    (interpreter.evaluate 4 call 1 insideBlock).1 = .error (.failed e) ∧ e.line.isSome = true ∧
      insideBlock.store.backtrace 1 = [⟨"block", ⟨5⟩⟩] ∧
      insideBlock.store.backtrace 1 <:+ e.backtrace.getD [] := by
  intro interpreter call e
  have failed : interpreter.evaluate 4 call 1 insideBlock =
      (.error (.failed e), (interpreter.evaluate 4 call 1 insideBlock).2) := Prod.ext rfl rfl
  have plain : Node.ClosureFree [call] := by
    unfold Node.ClosureFree
    decide
  obtain ⟨line, suffix, -⟩ :=
    errors_carry_call_stack rfl closureFree_insideBlock (by decide) plain failed
  exact ⟨rfl, line, rfl, suffix⟩

end Interpreter

end ScriptCore
