import ScriptCore.Proofs.Eval.Linked
import ScriptCore.Proofs.Eval.Operators
import ScriptCore.Proofs.Store.Answers

/-!
# Evaluation finds what every scope finds

A function that is there in the global scope is found wherever evaluation looks for it: every scope
that evaluation works in is one of the store, and all of them lie inside the global one. So
evaluation never fails for want of it (`answering_evaluate`).
-/
namespace ScriptCore

theorem Node.SparesHost.of_mem {host : String} {body : List Node} {node : Node}
    (spares : SparesHost host body) (mem : node ∈ body) : SparesHost host [node] :=
  forall_all_of_mem spares mem

theorem Node.SparesHost.parts {host : String} {node : Node} (spares : SparesHost host [node]) :
    SparesHost host node.parts :=
  (forall_all_singleton.mp spares).2

theorem Store.lookupFunction_heap {store : Store} {global env : Location} {name : String}
    (linked : store.Linked global) :
    store.heap.lookupFunction env name = store.lookupFunction env name := by
  have same : store.heap.find env (Frame.function? name) = store.find env (Frame.function? name) :=
    linked.findWithin_held []
  rw [Store.lookupFunction, same, Store.lookupFunction]

namespace Eval

/-- Stops in a store that answers. None of them is for want of the function that is asked for. -/
def answered (global : Location) (name : String) (asked : Prop) (scopes : Nat) : Stops where
  returned value heap := value.Safe name heap.next ∧ heap.Answers global name asked scopes
  failed fault heap :=
    (asked → fault ≠ .undefinedFunction name) ∧ heap.Answers global name asked scopes
  exhausted heap := heap.Answers global name asked scopes

/-- A step that needs so many scopes of a store that answers, and leaves a store that answers. What
fits is said of the result and of the number of scopes in the end. -/
def Answering {α : Type} (global : Location) (name : String) (asked : Prop) (scopes : Nat)
    (fits : Nat → α → Prop) (step : Eval α) : Prop :=
  Triple (·.Answers global name asked scopes) step
    (fun a heap => fits heap.next a ∧ heap.Answers global name asked scopes)
    (answered global name asked scopes)

/-- Evaluation in any scope of a store that answers has a safe value. -/
def Answers (global : Location) (name : String) (asked : Prop) (evaluator : Evaluator) : Prop :=
  ∀ node env scopes, Node.SparesHost name [node] → env < scopes →
    Answering global name asked scopes (fun now value => value.Safe name now) (evaluator node env)

namespace Answering

variable {α β : Type} {global env : Location} {name other : String} {asked : Prop}
  {fewer scopes : Nat} {fits : Nat → α → Prop} {step : Eval α}

/-- A step does no harm to the scopes that it does not need. -/
theorem within (h : Answering global name asked scopes fits step) (le : fewer ≤ scopes) :
    Triple (·.Answers global name asked scopes) step
      (fun a heap => fits heap.next a ∧ heap.Answers global name asked fewer)
      (answered global name asked fewer) :=
  Triple.consequence h (fun _ held => held) (fun _ _ ended => ⟨ended.1, ended.2.mono le⟩)
    ⟨fun _ _ ended => ⟨ended.1, ended.2.mono le⟩, fun _ _ ended => ⟨ended.1, ended.2.mono le⟩,
      fun _ ended => ended.mono le⟩

/-- However a step ends, the store answers. -/
theorem ends (h : Answering global name asked scopes fits step) {m : Machine}
    (answers : m.heap.Answers global name asked scopes) :
    (step m).2.heap.Answers global name asked scopes :=
  Triple.ends (Triple.consequence h (fun _ held => held) (fun _ _ ended => ended.2)
    ⟨fun _ _ ended => ended.2, fun _ _ ended => ended.2, fun _ ended => ended⟩) answers

/-- No step fails for want of the function that is asked for. -/
theorem fault_ne (h : Answering global name asked scopes fits step) (ask : asked) {m : Machine}
    (answers : m.heap.Answers global name asked scopes) {e : EvalError}
    (failed : (step m).1 = .error (.failed e)) : e.fault ≠ .undefinedFunction name :=
  (Triple.of_error h answers failed).1 ask

theorem pure {a : α} (h : ∀ now, scopes ≤ now → fits now a) :
    Answering global name asked scopes fits (Pure.pure a) :=
  Triple.pure fun heap answers => ⟨h heap.next answers.enough, answers⟩

/-- The next step starts with all the scopes that are there by then. -/
theorem bind {first : Eval β} {next : β → Eval α} {between : Nat → β → Prop}
    (h : Answering global name asked scopes between first)
    (h' : ∀ now, scopes ≤ now → ∀ b, between now b →
      Answering global name asked now fits (next b)) :
    Answering global name asked scopes fits (first >>= next) := by
  refine Triple.bind h fun b m held => ?_
  have enough := held.2.enough
  exact (h' m.heap.next enough b held.1).within enough m held.2.all

theorem fault {fault : Fault} (found : fault ≠ .undefinedFunction name) :
    Answering global name asked scopes fits (Eval.fault fault) :=
  Triple.fault fun _ answers => ⟨fun _ => found, answers⟩

theorem returned {value : Value} (safe : value.Safe name scopes) :
    Answering global name asked scopes fits (Attempt.fail (.returned value)) :=
  Triple.returned fun _ answers => ⟨safe.mono answers.enough, answers⟩

theorem holding {kept : List Location} (h : Answering global name asked scopes fits step) :
    Answering global name asked scopes fits (Eval.holding kept step) :=
  Triple.holding h

theorem onLine {line : Line} (h : Answering global name asked scopes fits step) :
    Answering global name asked scopes fits (Eval.onLine line step) :=
  Triple.onLine h

theorem uncaught {line : Line} (h : Answering global name asked scopes fits step) :
    Answering global name asked scopes fits (Eval.uncaught line step) :=
  Triple.uncaught (Triple.consequence h (fun _ held => held) (fun _ _ ended => ended)
    ⟨fun _ _ ended => ⟨fun _ => nofun, ended.2⟩, fun _ _ ended => ended, fun _ ended => ended⟩)

theorem catchReturn {function : String} {line : Line} {scope : Location} {body : Eval Unit}
    (h : Answering global name asked scopes (fun _ _ => True) body) :
    Answering global name asked scopes (fun now value => value.Safe name now)
      (Eval.catchReturn function line scope body) :=
  Triple.catchReturn (Triple.consequence h (fun _ held => held)
    (fun _ _ ended => ⟨fun _ => nofun, ended.2⟩)
    ⟨fun _ _ ended => ended, fun _ _ ended => ended, fun _ ended => ended⟩)

section Store

/-- An operator, of which no result is a callable. -/
theorem check {result : Except Fault Value}
    (ok : ∀ value, result = .ok value → value.asCallable? = none)
    (error : ∀ fault, result = .error fault → fault ≠ .undefinedFunction name) :
    Answering global name asked scopes (fun now value => value.Safe name now)
      (Eval.ask fun _ => result) :=
  Triple.check
    (fun value _ computed answers => ⟨Value.safe_of_asCallable? (ok value computed), answers⟩)
    (fun fault _ failed answers => ⟨fun _ => error fault failed, answers⟩)

theorem truth (value : Value) :
    Answering global name asked scopes (fun _ _ => True) (Eval.ask fun _ => value.truth) :=
  Triple.check (fun _ _ _ answers => ⟨trivial, answers⟩)
    (fun _ _ failed answers => ⟨fun _ => Value.truth_eq_error failed ▸ nofun, answers⟩)

theorem lookup (env : Location) (other : String) :
    Answering global name asked scopes (fun now value => value.Safe name now)
      (Eval.lookup env other) :=
  Triple.lookup
    (fun _ location frame value answers there own =>
      ⟨(answers.frames location frame there).values other value own, answers⟩)
    fun _ answers => ⟨fun _ => nofun, answers⟩

/-- The function that is asked for is found. -/
theorem lookupFunction (other : String) (inside : env < scopes) :
    Answering global name asked scopes (fun now callable => callable.Safe name now)
      (Eval.lookupFunction env other) := by
  refine Triple.ask (fun store callable answers found => ⟨?_, answers⟩)
    (fun store fault answers missing => ⟨fun ask same => ?_, answers⟩)
  · rw [Store.lookupFunction] at found
    split at found
    · rename_i own
      cases found
      obtain ⟨location, frame, there, here⟩ := Store.exists_of_findWithin own
      exact (answers.frames location frame there).callables other _ here
    · cases found
  · obtain rfl := Store.fault_of_lookupFunction missing
    cases same
    obtain ⟨callable, found⟩ :=
      answers.lookupFunction ask (Nat.lt_of_lt_of_le inside answers.enough)
    rw [Store.lookupFunction_heap (Store.linked_heap.mp answers.linked), missing] at found
    cases found

theorem declare {value : Value} (env : Location) (other : String) (mutability : Mutability)
    (safe : value.Safe name scopes) :
    Answering global name asked scopes (fun _ _ => True)
      (Eval.declare env other value mutability) :=
  Triple.declare
    (fun _ answers free => ⟨trivial,
      answers.setVariable (safe.mono answers.enough) (Store.evolves_declare free)⟩)
    fun _ answers _ => ⟨fun _ => nofun, answers⟩

theorem assign {value : Value} (env : Location) (other : String)
    (safe : value.Safe name scopes) :
    Answering global name asked scopes (fun _ _ => True) (Eval.assign env other value) := by
  refine Triple.assign (fun heap holder old answers found => ⟨trivial, ?_⟩)
    (fun _ _ _ answers _ => ⟨fun _ => nofun, answers⟩)
    fun _ answers _ => ⟨fun _ => nofun, answers⟩
  have evolves : Store.Evolves env heap (heap.setVariable holder other ⟨value, .mutable⟩) :=
    Store.evolves_assign found
  exact answers.setVariable (safe.mono answers.enough) evolves

theorem declareFunction {callable : Callable} (env : Location) (other : String)
    (safe : callable.Safe name scopes) :
    Answering global name asked scopes (fun _ _ => True)
      (Eval.declareFunction env other callable) :=
  Triple.declareFunction fun _ answers =>
    ⟨trivial, answers.declareFunction (safe.mono answers.enough)⟩

/-- A module is a scope of the store. -/
theorem openModule (other : String) (inside : env < scopes) :
    Answering global name asked scopes (fun now module => module < now)
      (Eval.openModule other env) := by
  refine Triple.openModule (fun heap module answers known => ⟨?_, answers⟩)
    (fun heap answers isGlobal unknown => ⟨?_, ?_⟩) fun _ answers => ⟨fun _ => nofun, answers⟩
  · obtain ⟨frame, there, -⟩ := answers.linked.modules other module known
    exact Store.lt_next_of_frame? there
  · exact Store.lt_next_of_frame? Store.frame?_add_next
  · have within := Nat.lt_of_lt_of_le inside answers.enough
    obtain rfl := (answers.linked.isGlobal_iff within).mp isGlobal
    exact answers.opened unknown

theorem useModule (env : Location) (other : String) :
    Answering global name asked scopes (fun _ _ => True) (do
      let module ← Eval.openedModule other
      Eval.expand env module) := by
  have opened : Triple (·.Answers global name asked scopes) (Eval.openedModule other)
      (fun module heap => heap.modules.get? other = some module ∧
        heap.Answers global name asked scopes) (answered global name asked scopes) :=
    Triple.openedModule (fun _ _ answers known => ⟨known, answers⟩)
      fun _ answers => ⟨fun _ => nofun, answers⟩
  exact Triple.bind opened fun module =>
    Triple.expand fun _ held => ⟨trivial, held.2.expand held.1⟩

/-- Work in a new scope has that scope as well. -/
theorem inScope {site : CallSite} {work : Location → Eval α} (inside : env < scopes)
    (h : ∀ scope, scopes ≤ scope → Answering global name asked (scope + 1) fits (work scope)) :
    Answering global name asked scopes fits (Eval.inScope env site work) := by
  refine Triple.inScope fun heap answers => ?_
  have enough := answers.enough
  refine ((h heap.next enough).within (Nat.le_succ_of_le enough)).weaken ?_
  rintro _ rfl
  exact answers.child (Nat.lt_of_lt_of_le inside enough)

end Store

section Walks

variable {evaluator : Evaluator} {body : List Node} (answers : Answers global name asked evaluator)

include answers

theorem sequence (spares : Node.SparesHost name body) (inside : env < scopes) {last : Value}
    (safe : last.Safe name scopes) :
    Answering global name asked scopes (fun now value => value.Safe name now)
      (Eval.sequence evaluator env last body) := by
  induction body generalizing scopes last with
  | nil => exact pure fun now le => safe.mono le
  | cons node rest ih =>
    obtain ⟨here, others⟩ := Node.forall_all_cons.mp spares
    refine (holding (answers node env scopes here inside)).bind fun now le value safe => ?_
    exact ih others (Nat.lt_of_lt_of_le inside le) safe

theorem runBody (spares : Node.SparesHost name body) (inside : env < scopes) :
    Answering global name asked scopes (fun _ _ => True) (Eval.runBody evaluator env body) := by
  induction body generalizing scopes with
  | nil => exact pure fun _ _ => trivial
  | cons node rest ih =>
    obtain ⟨here, others⟩ := Node.forall_all_cons.mp spares
    refine (answers node env scopes here inside).bind fun now le _ _ => ?_
    exact ih others (Nat.lt_of_lt_of_le inside le)

theorem evaluateArguments {arguments : List (String × Node)}
    (spares : Node.SparesHost name (arguments.map Prod.snd)) (inside : env < scopes) :
    Answering global name asked scopes (fun now values => Arguments.Safe name now values)
      (Eval.evaluateArguments evaluator env arguments) := by
  induction arguments generalizing scopes with
  | nil => exact pure fun _ _ => List.forall_mem_nil _
  | cons argument rest ih =>
    obtain ⟨parameter, node⟩ := argument
    obtain ⟨here, others⟩ := Node.forall_all_cons.mp spares
    refine (answers node env scopes here inside).bind fun now le value safe => ?_
    have following := ih others (Nat.lt_of_lt_of_le inside le)
    refine (holding following).bind fun later le' values safe' => pure fun last le'' => ?_
    refine List.forall_mem_cons.mpr ⟨safe.mono (Nat.le_trans le' le''), fun argument mem => ?_⟩
    exact (safe' argument mem).mono le''

theorem testCondition {condition : Node} (spares : Node.SparesHost name [condition])
    (inside : env < scopes) :
    Answering global name asked scopes (fun _ _ => True)
      (Eval.testCondition evaluator condition env) :=
  (answers condition env scopes spares inside).bind fun _ _ value _ => onLine (truth value)

theorem runLoop {line : Line} {condition : Node} (spares : Node.SparesHost name [condition])
    (spares' : Node.SparesHost name body) (inside : env < scopes) (rounds : Nat) :
    Answering global name asked scopes (fun now value => value.Safe name now)
      (Eval.runLoop evaluator line condition body env rounds) := by
  induction rounds generalizing scopes with
  | zero => exact Triple.exhausted fun _ held => held
  | succ rounds ih =>
    rw [Eval.runLoop]
    refine (testCondition answers spares inside).bind fun now le chosen _ => ?_
    have within := Nat.lt_of_lt_of_le inside le
    cases chosen with
    | true =>
      have round (scope : Location) : Answering global name asked (scope + 1)
          (fun now value => value.Safe name now) (Eval.sequence evaluator scope .unit body) :=
        sequence answers spares' (Nat.lt_succ_self scope) trivial
      refine (inScope within fun scope _ => round scope).bind fun later le' _ _ => ?_
      exact ih (Nat.lt_of_lt_of_le within le')
    | false => exact pure fun _ _ => trivial

end Walks

theorem bindArguments (scope : Location) {arguments : Arguments}
    (safe : Arguments.Safe name scopes arguments) :
    Answering global name asked scopes (fun _ _ => True)
      (Eval.bindArguments scope arguments) := by
  induction arguments generalizing scopes with
  | nil => exact pure fun _ _ => trivial
  | cons argument rest ih =>
    obtain ⟨parameter, value⟩ := argument
    obtain ⟨here, others⟩ := List.forall_mem_cons.mp safe
    refine (declare scope parameter .immutable here).bind fun now le _ _ => ?_
    exact ih fun argument mem => (others argument mem).mono le

end Answering

end Eval

namespace Interpreter

open Eval

variable {interpreter : Interpreter} {evaluator : Evaluator} {global env : Location}
  {name : String} {asked : Prop} {scopes : Nat}

theorem answering_callNative (hosts : interpreter.natives = Native.standard) {hostName : String}
    (other : hostName ≠ name) (site : Node) (arguments : Arguments) (scope : Location) :
    Answering global name asked scopes (fun _ _ => True)
      (callNative interpreter.natives hostName site arguments scope) := by
  rw [callNative, hosts]
  split
  · rename_i native supplied
    cases Native.eq_println_of_standard supplied
    have prints : Answering global name asked scopes (fun now value => value.Safe name now)
        (Native.println site arguments scope) :=
      Triple.bind (Triple.printLine fun _ answers => answers) fun _ =>
        Answering.pure fun _ _ => trivial
    exact prints.bind fun _ _ _ safe => Answering.returned safe
  · refine Answering.fault fun same => other ?_
    injection same

section Step

variable (answers : Eval.Answers global name asked evaluator)

include answers

/-- What the body of a function does, with the arguments bound in a scope of the store. -/
theorem answering_body {function : String} {line : Line} {body : List Node}
    (spares : Node.SparesHost name body) {arguments : Arguments}
    (safe : Arguments.Safe name scopes arguments) {scope : Location} (inside : scope < scopes) :
    Answering global name asked scopes (fun now value => value.Safe name now) (do
      bindArguments scope arguments
      catchReturn function line scope (runBody evaluator scope body)) := by
  refine (Answering.bindArguments scope safe).bind fun now le _ _ => Answering.catchReturn ?_
  exact Answering.runBody answers spares (Nat.lt_of_lt_of_le inside le)

theorem answering_evaluateCallee {callee : Node} (spares : Node.SparesHost name [callee])
    (inside : env < scopes) :
    Answering global name asked scopes (fun now value => value.Safe name now)
      (evaluateCallee evaluator callee env) := by
  rw [evaluateCallee.eq_def]
  split
  · exact (Answering.lookupFunction _ inside).bind fun _ _ _ safe =>
      Answering.pure fun _ le => Callable.Safe.mono safe le
  · exact Answering.lookup env _
  · exact answers callee env scopes spares inside

variable (hosts : interpreter.natives = Native.standard)

include hosts

theorem answering_invokeWith {callable : Callable} (safe : callable.Safe name scopes) (site : Node)
    {arguments : Arguments} (safe' : Arguments.Safe name scopes arguments)
    (inside : env < scopes) :
    Answering global name asked scopes (fun now value => value.Safe name now)
      (interpreter.invokeWith evaluator callable site arguments env) := by
  have later {scope : Location} (le : scopes ≤ scope) :
      Arguments.Safe name (scope + 1) arguments :=
    fun argument mem => (safe' argument mem).mono (Nat.le_succ_of_le le)
  cases callable with
  | function header body =>
    exact Answering.inScope inside fun scope le =>
      answering_body answers safe (later le) (Nat.lt_succ_self scope)
  | closure header body captured =>
    exact Answering.inScope safe.2 fun scope le =>
      answering_body answers safe.1 (later le) (Nat.lt_succ_self scope)
  | native header =>
    exact Answering.inScope inside fun scope _ =>
      Answering.catchReturn (answering_callNative hosts safe site arguments scope)
  | constructor header =>
    refine Answering.inScope inside fun scope _ =>
      Answering.catchReturn (Answering.returned ?_)
    rw [construct]
    split <;> trivial

theorem answering_evaluateCall {callee : Node} {arguments : List (String × Node)}
    (spares : Node.SparesHost name (callee :: arguments.map Prod.snd)) (site : Node)
    (inside : env < scopes) :
    Answering global name asked scopes (fun now value => value.Safe name now)
      (interpreter.evaluateCall evaluator site callee arguments env) := by
  obtain ⟨here, others⟩ := Node.forall_all_cons.mp spares
  refine (answering_evaluateCallee answers here inside).bind fun now le target safe =>
    Answering.holding ?_
  have within := Nat.lt_of_lt_of_le inside le
  refine (Answering.evaluateArguments answers others within).bind fun later le' values safe' => ?_
  cases is : target.asCallable? with
  | some callable =>
    have invoked : callable.Safe name later := (safe.mono le').asCallable? is
    exact Answering.holding (answering_invokeWith answers hosts invoked site safe'
      (Nat.lt_of_lt_of_le within le'))
  | none => exact Answering.fault nofun

theorem answering_step (rounds : Nat) {node : Node} (spares : Node.SparesHost name [node])
    (inside : env < scopes) :
    Answering global name asked scopes (fun now value => value.Safe name now)
      (interpreter.step rounds evaluator node env) := by
  have below := spares.parts
  have part {operand : Node} (mem : operand ∈ node.parts) {now : Nat} (le : scopes ≤ now) :
      Answering global name asked now (fun now value => value.Safe name now)
        (evaluator operand env) :=
    answers operand env now (below.of_mem mem) (Nat.lt_of_lt_of_le inside le)
  cases node with
  | literal tag literal =>
    exact Answering.pure fun _ _ => Value.safe_of_asCallable? (Value.asCallable?_ofLiteral literal)
  | this => exact Answering.lookup env _
  | readVariable => exact Answering.lookup env _
  | readFunction =>
    exact (Answering.lookupFunction _ inside).bind fun _ _ _ safe =>
      Answering.pure fun _ le => Callable.Safe.mono safe le
  | get => exact Answering.fault nofun
  | set => exact Answering.fault nofun
  | call tag callee arguments => exact answering_evaluateCall answers hosts below _ inside
  | unary tag op right =>
    refine (part List.mem_cons_self (Nat.le_refl _)).bind fun _ _ value _ => ?_
    refine Answering.check (fun _ => Value.asCallable?_unary) fun fault failed => ?_
    obtain ⟨expected, rfl⟩ := Value.unary_eq_error failed
    exact nofun
  | binary tag op left right =>
    refine (part List.mem_cons_self (Nat.le_refl _)).bind fun now le first _ => ?_
    have second := part (List.mem_cons_of_mem _ List.mem_cons_self) le
    refine (Answering.holding second).bind fun _ _ other _ => ?_
    exact Answering.check (fun _ => Value.asCallable?_binary)
      fun _ failed => Value.binary_eq_error failed ▸ nofun
  | logical tag op left right =>
    refine (part List.mem_cons_self (Nat.le_refl _)).bind fun now le first _ => ?_
    refine (Answering.truth first).bind fun later le' decided _ => ?_
    split
    · exact Answering.pure fun _ _ => trivial
    · have second := part (List.mem_cons_of_mem _ List.mem_cons_self) (Nat.le_trans le le')
      refine second.bind fun _ _ value _ => ?_
      exact (Answering.truth value).bind fun _ _ _ _ => Answering.pure fun _ _ => trivial
  | bind tag mutability variableName value =>
    refine (part List.mem_cons_self (Nat.le_refl _)).bind fun now le bound safe => ?_
    refine (Answering.declare env variableName mutability safe).bind fun _ le' _ _ => ?_
    exact Answering.pure fun _ le'' => safe.mono (Nat.le_trans le' le'')
  | assign tag variableName value =>
    refine (part List.mem_cons_self (Nat.le_refl _)).bind fun now le assigned safe => ?_
    refine (Answering.assign env variableName safe).bind fun _ le' _ _ => ?_
    exact Answering.pure fun _ le'' => safe.mono (Nat.le_trans le' le'')
  | returns tag value =>
    exact (part List.mem_cons_self (Nat.le_refl _)).bind fun _ _ _ safe => Answering.returned safe
  | block tag body =>
    exact Answering.inScope inside fun scope _ =>
      Answering.sequence answers below (Nat.lt_succ_self scope) trivial
  | loop tag condition body =>
    obtain ⟨here, others⟩ := Node.forall_all_cons.mp below
    exact Answering.runLoop answers here others inside rounds
  | branch tag condition whenTrue whenFalse =>
    obtain ⟨here, bodies⟩ := Node.forall_all_cons.mp below
    obtain ⟨first, second⟩ := Node.forall_all_append.mp bodies
    refine (Answering.testCondition answers here inside).bind fun now le chosen _ => ?_
    refine Answering.inScope (Nat.lt_of_lt_of_le inside le) fun scope _ =>
      Answering.sequence answers ?_ (Nat.lt_succ_self scope) trivial
    cases chosen
    · exact second
    · exact first
  | function tag header body =>
    have safe (now : Nat) : (Callable.function header body).Safe name now := below
    exact (Answering.declareFunction env header.name (safe scopes)).bind fun _ _ _ _ =>
      Answering.pure fun now _ => safe now
  | native tag header =>
    have other : header.hostName ≠ name := fun same =>
      (Node.forall_all_singleton.mp spares).1 (congrArg some same)
    have safe (now : Nat) : (Callable.native header).Safe name now := other
    exact (Answering.declareFunction env header.name (safe scopes)).bind fun _ _ _ _ =>
      Answering.pure fun now _ => safe now
  | anonymous tag header body =>
    exact Answering.pure fun _ le => ⟨below, Nat.lt_of_lt_of_le inside le⟩
  | record => exact Answering.fault nofun
  | openModule tag moduleName =>
    exact (Answering.openModule moduleName inside).bind fun _ _ _ _ =>
      Answering.pure fun _ _ => trivial
  | useModule tag moduleName =>
    have opened : Answering global name asked scopes (fun _ _ => True) (do
        let module ← Eval.openedModule moduleName
        Eval.expand env module) := Answering.useModule env moduleName
    have unit (now : Nat) : Value.unit.Safe name now := trivial
    have used := opened.bind fun _ _ _ _ => Answering.pure fun now _ => unit now
    rw [bind_assoc] at used
    exact used

end Step

theorem answering_evaluate (hosts : interpreter.natives = Native.standard) (fuel : Nat) :
    Eval.Answers global name asked (interpreter.evaluate fuel) := by
  induction fuel with
  | zero => exact fun _ _ _ _ _ => Triple.exhausted fun _ answers => answers
  | succ fuel ih =>
    exact fun _ _ _ spares inside => Triple.located (answering_step ih hosts fuel spares inside)

theorem answering_evaluateFrom (hosts : interpreter.natives = Native.standard) (fuel : Nat)
    {unit : List Node} (spares : Node.SparesHost name unit) {target : Location}
    (inside : target < scopes) (root : interpreter.global < scopes) :
    Answering interpreter.global name asked scopes (fun _ _ => True)
      (interpreter.evaluateFrom fuel target unit) := by
  induction unit generalizing target scopes with
  | nil => exact Answering.pure fun _ _ => trivial
  | cons node rest ih =>
    obtain ⟨here, others⟩ := Node.forall_all_cons.mp spares
    by_cases opens : ∃ tag moduleName, node = .openModule tag moduleName
    · obtain ⟨tag, moduleName, rfl⟩ := opens
      rw [Interpreter.evaluateFrom]
      have module : Answering interpreter.global name asked scopes
          (fun now module => module < now) (Eval.openModule moduleName interpreter.global) :=
        Answering.openModule moduleName root
      refine (Answering.onLine module).bind fun now le module within => ?_
      refine (ih others within (Nat.lt_of_lt_of_le root le)).bind fun _ _ _ _ => ?_
      exact Answering.pure fun _ _ => trivial
    · rw [Interpreter.evaluateFrom]
      · have value : Answering interpreter.global name asked scopes
            (fun now value => value.Safe name now) (interpreter.evaluate fuel node target) :=
          answering_evaluate hosts fuel node target scopes here inside
        refine value.uncaught.bind fun now le _ _ => ?_
        have following := ih others (Nat.lt_of_lt_of_le inside le) (Nat.lt_of_lt_of_le root le)
        exact (Answering.holding following).bind fun _ _ _ _ =>
          Answering.pure fun _ _ => trivial
      · exact fun tag moduleName same => opens ⟨tag, moduleName, same⟩

/-- The evaluation of a unit in a store that answers does not fail for want of the function. -/
theorem answering_evaluateUnit (hosts : interpreter.natives = Native.standard) (fuel : Nat)
    {unit : List Node} (spares : Node.SparesHost name unit) :
    Answering interpreter.global name asked (interpreter.global + 1) (fun _ _ => True)
      (interpreter.evaluateUnit fuel unit) :=
  answering_evaluateFrom hosts fuel spares (Nat.lt_succ_self _) (Nat.lt_succ_self _)

end Interpreter

end ScriptCore
