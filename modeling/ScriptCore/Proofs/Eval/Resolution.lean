import ScriptCore.Proofs.Eval.Evolution
import ScriptCore.Proofs.Eval.Operators
import ScriptCore.Proofs.Store.Sight

/-!
# Evaluation finds its names

In a scope that sees a closed context, a node that is resolved in the context never fails for a
name that is not found, and afterwards the scope sees what the node has declared as well. A
function runs in a child of the scope that calls it: the names in sight where it was declared are
in sight there too, and none of them has been hidden by another function.
-/
namespace ScriptCore

/-- The faults for names that are not found. -/
def Fault.IsUndefined : Fault → Prop
  | .undefinedVariable _ | .undefinedFunction _ => True
  | _ => False

namespace Value

theorem truth_isUndefined {value : Value} {fault : Fault} (failed : value.truth = .error fault) :
    ¬ fault.IsUndefined :=
  truth_eq_error failed ▸ nofun

theorem unary_isUndefined {op : UnaryOp} {right : Value} {fault : Fault}
    (failed : Value.unary op right = .error fault) : ¬ fault.IsUndefined := by
  obtain ⟨expected, rfl⟩ := unary_eq_error failed
  exact nofun

theorem binary_isUndefined {op : BinaryOp} {left right : Value} {fault : Fault}
    (failed : Value.binary op left right = .error fault) : ¬ fault.IsUndefined :=
  binary_eq_error failed ▸ nofun

end Value

namespace Eval

/-- Any stop but for a name that is not found. -/
def found : Stops := ⟨fun _ _ => True, fun fault _ => ¬ fault.IsUndefined, fun _ => True⟩

/-- A step that finds its names. -/
def Looks {α : Type} (before : Store → Prop) (step : Eval α) (after : α → Store → Prop) : Prop :=
  Triple before step after found

variable {α : Type} {env : Location} {context : Context} {name : String}

theorem looks_lookup (bound : .var name ∈ context) :
    Looks (·.Sees env context) (Eval.lookup env name) (fun _ => (·.Sees env context)) := by
  refine Triple.ask (fun _ _ sees _ => sees) fun store fault sees asked => ?_
  obtain ⟨value, finds⟩ := sees.shows _ bound
  have there : store.find env (Store.Frame.value? name) = some value := finds.of_heap.find
  rw [Store.lookup, there] at asked
  cases asked

theorem looks_lookupFunction {callable : Callable} (known : .fn name callable ∈ context) :
    Looks (·.Sees env context) (Eval.lookupFunction env name)
      (fun found heap => found = callable ∧ heap.Sees env context) := by
  have there (store : Store) (sees : store.heap.Sees env context) :
      store.lookupFunction env name = .ok callable := by
    have finds : store.heap.Finds (Store.Frame.function? name) env callable := sees.shows _ known
    rw [Store.lookupFunction, finds.of_heap.find]
  refine Triple.ask (fun store found sees asked => ?_) fun store fault sees asked => ?_
  · rw [there store sees] at asked
    cases asked
    exact ⟨rfl, sees⟩
  · rw [there store sees] at asked
    cases asked

theorem looks_declare (value : Value) (mutability : Mutability) :
    Looks (·.Sees env context) (Eval.declare env name value mutability)
      (fun _ => (·.Sees env (.var name :: context))) :=
  Triple.declare (fun _ sees _ => sees.declare) fun _ _ _ => nofun

theorem looks_declareFunction {callable : Callable} (fresh : context.Fresh name) :
    Looks (·.Sees env context) (Eval.declareFunction env name callable)
      (fun _ => (·.Sees env (.fn name callable :: context))) :=
  Triple.declareFunction fun _ sees => sees.declareFunction fresh

theorem looks_assign (bound : .var name ∈ context) (value : Value) :
    Looks (·.Sees env context) (Eval.assign env name value) (fun _ => (·.Sees env context)) := by
  refine Triple.assign (fun _ _ _ sees there => sees.assign there) (fun _ _ _ _ _ => nofun) ?_
  exact fun _ sees nowhere => absurd nowhere (sees.holder? bound)

theorem looks_bindArguments (arguments : Arguments) :
    Looks (·.Sees env context) (Eval.bindArguments env arguments)
      (fun _ => (·.Sees env ((arguments.map Prod.fst).map .var ++ context))) := by
  induction arguments generalizing context with
  | nil => exact Triple.pure fun _ sees => sees
  | cons argument rest ih =>
    obtain ⟨name, value⟩ := argument
    refine (looks_declare value .immutable).bind fun _ => Triple.mono ih fun _ _ sees => ?_
    refine sees.mono fun item mem => ?_
    simp only [List.map_cons, List.cons_append, List.mem_cons, List.mem_append] at mem ⊢
    tauto

/-- Work in a new scope that finds its names there and lets the store evolve. -/
theorem looks_child {site : CallSite} {work : Location → Eval α}
    (evolves : ∀ scope start, Keeps (Store.Evolves scope start) (work scope))
    (looks : ∀ scope, Looks (·.Sees scope context) (work scope) (fun _ _ => True)) {heap : Store}
    (sees : heap.Sees env context) :
    Looks (· = heap.add (.create (some env) (some site))) (work heap.next)
      (fun _ => (·.Sees env context)) := by
  have both := (evolves heap.next (heap.add (.create (some env) (some site)))).and (looks heap.next)
  refine Triple.mono (Triple.weaken both ?_) fun _ _ ended => sees.of_child ended.1
  rintro _ rfl
  exact ⟨.refl, sees.enter⟩

theorem looks_inScope {site : CallSite} {work : Location → Eval α}
    (evolves : ∀ scope start, Keeps (Store.Evolves scope start) (work scope))
    (looks : ∀ scope, Looks (·.Sees scope context) (work scope) (fun _ _ => True)) :
    Looks (·.Sees env context) (Eval.inScope env site work) (fun _ => (·.Sees env context)) :=
  Triple.inScope fun _ sees => looks_child evolves looks sees

end Eval

namespace Interpreter

open Eval

/-- An evaluator that finds the names of resolved nodes. -/
def Resolving (evaluator : Evaluator) : Prop :=
  ∀ context node env, context.Closed → context.Resolves node →
    Looks (·.Sees env context) (evaluator node env)
      (fun _ => (·.Sees env (node.declares ++ context)))

/-- A closed context is in sight in which the rest of a body is resolved, and behind the rest it
will be `final`. -/
def Ready (env : Location) (final : Context) (rest : List Node) (heap : Store) : Prop :=
  ∃ context : Context,
    (context.Closed ∧ context.ResolvesBody rest ∧ context.extend rest = final) ∧
      heap.Sees env context

theorem looks_callNative {interpreter : Interpreter} {scope : Location} {context : Context}
    (hosts : interpreter.natives = Native.standard) (site : Node) (arguments : Arguments) :
    Looks (·.Sees scope context)
      (callNative interpreter.natives "println" site arguments scope) (fun _ _ => True) := by
  have supplied : Native.standard.get? "println" = some Native.println :=
    Table.get?_insert_self _ _ _
  rw [callNative, hosts, supplied]
  have prints : Looks (·.Sees scope context) (Native.println site arguments scope)
      (fun _ _ => True) :=
    Triple.bind (Triple.printLine fun _ _ => trivial) fun _ => Triple.pure fun _ held => held
  exact prints.bind fun _ => Triple.returned fun _ _ => trivial

section Evaluator

variable {interpreter : Interpreter} {evaluator : Evaluator} {env : Location}
  {context final : Context} (resolving : Resolving evaluator)

include resolving

/-- The next node of a body finds its names and leaves the rest of the body ready. -/
theorem looks_next {node : Node} {rest : List Node} :
    Looks (Ready env final (node :: rest)) (evaluator node env) (fun _ => Ready env final rest) := by
  refine Triple.of_exists fun context => Triple.of_fact fun ⟨closed, resolved, extended⟩ => ?_
  cases resolved with
  | cons head tail =>
    refine Triple.mono (resolving context node env closed head) fun _ heap sees => ?_
    exact ⟨_, ⟨closed.declares head, tail, extended⟩, sees⟩

theorem looks_sequence (body : List Node) (last : Value) :
    Looks (Ready env final body) (Eval.sequence evaluator env last body)
      (fun _ => Ready env final []) :=
  Triple.sequence (fun rest _ => Ready env final rest) (fun _ _ _ _ => looks_next resolving) last

theorem looks_runBody (body : List Node) :
    Looks (Ready env final body) (Eval.runBody evaluator env body) (fun _ => Ready env final []) :=
  Triple.runBody (Ready env final) fun _ _ _ => looks_next resolving

section Closed

variable (closed : context.Closed)

include closed

/-- A node of which only the value counts. -/
theorem looks_operand {node : Node} (resolved : context.Resolves node) :
    Looks (·.Sees env context) (evaluator node env) (fun _ => (·.Sees env context)) :=
  Triple.mono (resolving context node env closed resolved) fun _ _ sees =>
    sees.mono (List.subset_append_right _ _)

theorem looks_testCondition {condition : Node} (resolved : context.Resolves condition) :
    Looks (·.Sees env context) (Eval.testCondition evaluator condition env)
      (fun _ => (·.Sees env context)) :=
  Triple.testCondition (looks_operand resolving closed resolved) fun _ _ sees =>
    ⟨fun _ _ => sees, fun _ failed => Value.truth_isUndefined failed⟩

/-- Arguments keep the names of their parameters. -/
theorem looks_evaluateArguments {arguments : List (String × Node)}
    (resolved : ∀ argument ∈ arguments, context.Resolves argument.2) :
    Looks (·.Sees env context) (Eval.evaluateArguments evaluator env arguments)
      (fun values heap => values.map Prod.fst = arguments.map Prod.fst ∧ heap.Sees env context) := by
  refine Triple.mono (Triple.evaluateArguments (fun _ => (·.Sees env context)) (fun _ _ => True) ?_)
    fun values heap ended => ⟨?_, ended.2⟩
  · intro name node rest there
    have operand := resolved (name, node) (there.subset List.mem_cons_self)
    exact Triple.mono (looks_operand resolving closed operand) fun _ _ sees => ⟨trivial, sees⟩
  · have pairs := ended.1
    clear ended resolved
    induction pairs with
    | nil => rfl
    | cons same _ ih => simp only [List.map_cons, ih, same.1]

/-- The statements of a block in a scope of their own. -/
theorem looks_block {body : List Node} (resolved : context.ResolvesBody body) (scope : Location) :
    Looks (·.Sees scope context) (Eval.sequence evaluator scope .unit body) (fun _ _ => True) :=
  Triple.mono (Triple.weaken (looks_sequence resolving body .unit) fun _ sees =>
    ⟨context, ⟨closed, resolved, rfl⟩, sees⟩) fun _ _ _ => trivial

end Closed

/-- A function runs where the names in sight at its declaration are in sight, too. -/
theorem looks_body {known : Context} (within : known ⊆ context) (closed : known.Closed)
    {header : FunctionHeader} {body : List Node}
    (resolved : (Context.ofParameters header.type.parameters ++ known).ResolvesBody body)
    {arguments : Arguments}
    (keys : arguments.map Prod.fst = Parameters.names header.type.parameters) (line : Line)
    (scope : Location) :
    Looks (·.Sees scope context)
      (do
        Eval.bindArguments scope arguments
        Eval.catchReturn header.name line scope (Eval.runBody evaluator scope body))
      (fun _ _ => True) := by
  have bound : Looks (·.Sees scope context) (Eval.bindArguments scope arguments)
      (fun _ => Ready scope
        ((Context.ofParameters header.type.parameters ++ known).extend body) body) := by
    refine Triple.mono (looks_bindArguments arguments) fun _ _ sees => ?_
    refine ⟨_, ⟨closed.parameters header.type.parameters, resolved, rfl⟩, sees.mono ?_⟩
    rw [keys]
    exact List.append_subset.mpr ⟨List.subset_append_left _ _,
      List.subset_append_of_subset_right _ within⟩
  refine bound.bind fun _ => Triple.catchReturn ?_
  exact Triple.consequence (looks_runBody resolving body) (fun _ ready => ready)
    (fun _ _ _ => nofun) ⟨fun _ _ _ => trivial, fun _ _ other => other, fun _ _ => trivial⟩

section Invocations

variable (evolving : Evolving evaluator) (hosts : interpreter.natives = Native.standard)

include evolving hosts

theorem looks_invokeWith {callable : Callable} (runs : context.Runs callable) {site : Node}
    {arguments : Arguments}
    (keys : arguments.map Prod.fst = Parameters.names callable.type.parameters) :
    Looks (·.Sees env context) (interpreter.invokeWith evaluator callable site arguments env)
      (fun _ => (·.Sees env context)) := by
  cases runs with
  -- the body was resolved in the context of its declaration, and that is part of the caller's
  | @function known header body within closed nodes =>
    exact looks_inScope (fun _ _ => keeps_body evolving header.name site.line arguments body)
      (looks_body resolving within closed nodes keys site.line)
  | @native header host =>
    refine looks_inScope (fun scope _ =>
      keeps_catchReturn (keeps_callNative hosts header.hostName site arguments scope)) ?_
    intro scope
    rw [host]
    refine Triple.catchReturn ?_
    exact Triple.consequence (looks_callNative hosts site arguments)
      (fun _ sees => sees) (fun _ _ _ => nofun)
      ⟨fun _ _ _ => trivial, fun _ _ other => other, fun _ _ => trivial⟩
  | constructor =>
    exact looks_inScope (fun _ _ => keeps_catchReturn (Keeps.returned _))
      fun _ => Triple.catchReturn (Triple.returned fun _ _ => trivial)

theorem looks_evaluateCall (closed : context.Closed) {name : String} {callable : Callable}
    {arguments : List (String × Node)} (known : .fn name callable ∈ context)
    (keys : arguments.map Prod.fst = Parameters.names callable.type.parameters)
    (resolved : ∀ argument ∈ arguments, context.Resolves argument.2) (site : Node) (tag : Tag) :
    Looks (·.Sees env context)
      (interpreter.evaluateCall evaluator site (.readFunction tag name) arguments env)
      (fun _ => (·.Sees env context)) := by
  have target : Looks (·.Sees env context)
      (evaluateCallee evaluator (.readFunction tag name) env)
      (fun value heap => value = .callable callable ∧ heap.Sees env context) := by
    refine (looks_lookupFunction known).bind fun found => Triple.of_fact ?_
    rintro rfl
    exact Triple.pure fun _ sees => ⟨rfl, sees⟩
  refine target.bind fun value => Triple.of_fact ?_
  rintro rfl
  refine Triple.holding ((looks_evaluateArguments resolving closed resolved).bind fun values => ?_)
  refine Triple.of_fact fun names => Triple.holding ?_
  exact looks_invokeWith resolving evolving hosts (closed.runs known) (names.trans keys)

theorem looks_step (closed : context.Closed) {node : Node} (resolved : context.Resolves node)
    (rounds : Nat) :
    Looks (·.Sees env context) (interpreter.step rounds evaluator node env)
      (fun _ => (·.Sees env (node.declares ++ context))) := by
  have operand {node : Node} (resolved : context.Resolves node) :=
    @looks_operand evaluator env context resolving closed node resolved
  cases resolved with
  | literal => exact Triple.pure fun _ sees => sees
  | this bound => exact looks_lookup bound
  | readVariable bound => exact looks_lookup bound
  | readFunction known =>
    refine (looks_lookupFunction known).bind fun found => Triple.of_fact fun _ => ?_
    exact Triple.pure fun _ sees => sees
  | get => exact Triple.fault fun _ _ => nofun
  | set => exact Triple.fault fun _ _ => nofun
  | call known keys values =>
    exact looks_evaluateCall resolving evolving hosts closed known keys values _ _
  | unary right =>
    refine (operand right).bind fun value => Triple.check ?_ ?_
    · exact fun _ _ _ sees => sees
    · exact fun _ _ failed _ => Value.unary_isUndefined failed
  | binary first second =>
    refine (operand first).bind fun left => (Triple.holding (operand second)).bind fun right => ?_
    refine Triple.check ?_ ?_
    · exact fun _ _ _ sees => sees
    · exact fun _ _ failed _ => Value.binary_isUndefined failed
  | logical first second =>
    have test (value : Value) : Looks (·.Sees env context) (Eval.ask fun _ => value.truth)
        (fun _ => (·.Sees env context)) :=
      Triple.check (fun _ _ _ sees => sees) fun _ _ failed _ => Value.truth_isUndefined failed
    refine (operand first).bind fun left => (test left).bind fun decided => ?_
    split
    · exact Triple.pure fun _ sees => sees
    · refine (operand second).bind fun right => (test right).bind fun result => ?_
      exact Triple.pure fun _ sees => sees
  | bind value =>
    refine (operand value).bind fun bound => (looks_declare bound _).bind fun _ => ?_
    exact Triple.pure fun _ sees => sees
  | assign bound value =>
    refine (operand value).bind fun assigned => (looks_assign bound assigned).bind fun _ => ?_
    exact Triple.pure fun _ sees => sees
  | returns result =>
    exact (operand result).bind fun _ => Triple.returned fun _ _ => trivial
  | block nodes =>
    exact looks_inScope
      (fun scope start => Keeps.sequence (fun node => evolving node scope start) _ _)
      (looks_block resolving closed nodes)
  | loop test nodes =>
    refine Triple.runLoop (·.Sees env context) (·.Sees env context) rounds ?_ ?_ fun _ _ => trivial
    · refine Triple.mono (looks_testCondition resolving closed test) fun chosen _ sees => ?_
      cases chosen <;> exact sees
    · intro heap sees
      exact looks_child
        (fun scope start => Keeps.sequence (fun node => evolving node scope start) _ _)
        (looks_block resolving closed nodes) sees
  | branch test first second =>
    refine (looks_testCondition resolving closed test).bind fun chosen => looks_inScope
      (fun scope start => Keeps.sequence (fun node => evolving node scope start) _ _) ?_
    cases chosen with
    | true => exact looks_block resolving closed first
    | false => exact looks_block resolving closed second
  | function fresh nodes =>
    exact (looks_declareFunction fresh).bind fun _ => Triple.pure fun _ sees => sees
  | native fresh host =>
    exact (looks_declareFunction fresh).bind fun _ => Triple.pure fun _ sees => sees

end Invocations

end Evaluator

section Hosts

variable {interpreter : Interpreter} (hosts : interpreter.natives = Native.standard)

include hosts

theorem resolving_evaluate (fuel : Nat) : Resolving (interpreter.evaluate fuel) := by
  induction fuel with
  | zero => exact fun _ _ _ _ _ => Triple.exhausted fun _ _ => trivial
  | succ fuel ih =>
    intro context node env closed resolved
    exact Triple.located (looks_step ih (evolving_evaluate hosts fuel) hosts closed resolved fuel)

/-- A unit that opens no module finds its names, and all that it declares comes into sight. -/
theorem looks_evaluateUnit {context : Context} (closed : context.Closed) (fuel : Nat)
    {unit : List Node} (resolved : context.ResolvesBody unit) :
    Looks (·.Sees interpreter.global context) (interpreter.evaluateUnit fuel unit)
      (fun _ => (·.Sees interpreter.global (context.extend unit))) := by
  let invariant (target : Location) (rest : List Node) (heap : Store) : Prop :=
    target = interpreter.global ∧ Ready target (context.extend unit) rest heap
  refine Triple.consequence (Triple.evaluateFrom invariant (fun _ _ => True) ?_ ?_ _)
    (fun _ sees => ⟨rfl, context, ⟨closed, resolved, rfl⟩, sees⟩) ?_
    ⟨fun _ _ held => held, fun _ _ held => held, fun _ held => held⟩
  · intro target node rest _ _
    refine Triple.of_fact fun global => Triple.uncaught ?_
    refine Triple.consequence (looks_next (resolving_evaluate hosts fuel)) (fun _ ready => ready)
      (fun _ _ ready => ⟨trivial, global, ready⟩)
      ⟨fun _ _ _ => nofun, fun _ _ other => other, fun _ _ => trivial⟩
  -- a module would be the target of the nodes behind it, and no resolved unit opens one
  · intro target tag name rest _
    refine Triple.of_fact fun global => Triple.of_exists fun known => Triple.of_fact ?_
    rintro ⟨-, resolved, -⟩
    cases resolved with
    | cons head tail => cases head
  · rintro values heap ⟨-, target, rfl, known, ⟨-, -, rfl⟩, sees⟩
    exact sees

end Hosts

end Interpreter

end ScriptCore
