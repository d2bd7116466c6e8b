import ScriptCore.Native.Standard
import ScriptCore.Proofs.Eval.Course
import ScriptCore.Proofs.Store.Relined

/-!
# Evaluation on other lines

Evaluation of nodes on other lines takes the same course. It ends with values that differ in lines
alone, or stops in the same way; an error is the same one, reported on the other line, and so are
its call sites. What a host supplies has to pay no attention to lines either, as its standard
functions do.
-/
namespace ScriptCore

variable {r : Relining}

/-- The same fault at the same place, on another line. -/
structure EvalError.Relined (r : Relining) (e e' : EvalError) : Prop where
  fault : e'.fault = e.fault
  line : Option.Rel r.Reports e.line e'.line
  backtrace : Option.Rel (List.Forall₂ (CallSite.Relined r)) e.backtrace e'.backtrace

namespace EvalError

variable {e e' : EvalError}

theorem relined_ofFault (fault : Fault) : Relined r (ofFault fault) (ofFault fault) :=
  ⟨rfl, .none, .none⟩

theorem Relined.atLine (relined : Relined r e e') {line line' : Line}
    (reports : r.Reports line line') : Relined r (e.atLine line) (e'.atLine line') := by
  refine ⟨relined.fault, ?_, relined.backtrace⟩
  rw [EvalError.atLine, EvalError.atLine]
  rcases rel_cases relined.line with ⟨missing, missing'⟩ | ⟨_, _, there, there', same⟩
  · rw [missing, missing']
    exact .some reports
  · rw [there, there']
    exact .some same

theorem Relined.withBacktrace (relined : Relined r e e') {sites sites' : Backtrace}
    (around : List.Forall₂ (CallSite.Relined r) sites sites') :
    Relined r (e.withBacktrace sites) (e'.withBacktrace sites') := by
  have lacks : e'.backtrace.isNone = e.backtrace.isNone := by
    rcases rel_cases relined.backtrace with ⟨missing, missing'⟩ | ⟨_, _, there, there', -⟩
    · rw [missing, missing']
    · rw [there, there']
      rfl
  have empty : sites'.isEmpty = sites.isEmpty := by cases around <;> rfl
  rw [EvalError.withBacktrace, EvalError.withBacktrace, lacks, empty]
  split
  · exact ⟨relined.fault, relined.line, .some around⟩
  · exact relined

end EvalError

inductive Stop.Relined (r : Relining) : Stop → Stop → Prop
  | returned {value value' : Value} (same : Value.Relined r.map value value') :
      Relined r (.returned value) (.returned value')
  | failed {e e' : EvalError} (same : EvalError.Relined r e e') :
      Relined r (.failed e) (.failed e')
  | exhausted : Relined r .exhausted .exhausted

structure Machine.Relined (r : Relining) (m m' : Machine) : Prop where
  store : Store.Relined r m.store m'.store
  output : m'.output = m.output
  nextStamp : m'.nextStamp = m.nextStamp

theorem Machine.Relined.holdingOnly {m m' : Machine} (relined : Machine.Relined r m m')
    (held : List Location) : Machine.Relined r (m.holdingOnly held) (m'.holdingOnly held) :=
  ⟨relined.store.holdingOnly held, relined.output, relined.nextStamp⟩

namespace Eval

variable {α α' β β' : Type} {results : α → α' → Prop} {step : Eval α} {step' : Eval α'}

/-- Steps of evaluation on two sets of lines. -/
abbrev Parallel (r : Relining) (results : α → α' → Prop) : Eval α → Eval α' → Prop :=
  Attempt.Matches (Machine.Relined r) (Stop.Relined r) results

section Steps

theorem parallel_fault (fault : Fault) :
    Parallel r results (Eval.fault fault) (Eval.fault fault) :=
  .fail (.failed (EvalError.relined_ofFault fault))

theorem parallel_ask {query : Store → Except Fault α} {query' : Store → Except Fault α'}
    (queries : ∀ store store', Store.Relined r store store' →
      Outcome Eq results (query store) (query' store')) :
    Parallel r results (ask query) (ask query') := by
  intro m m' now
  rw [ask, ask]
  rcases (queries _ _ now.store).ends with
    ⟨_, _, found, found', same⟩ | ⟨f, _, failed, failed', rfl⟩
  · rw [found, found']
    exact ⟨.ok same, now⟩
  · rw [failed, failed']
    exact ⟨.error (.failed (EvalError.relined_ofFault f)), now⟩

theorem parallel_onStore {change : StoreStep α} {change' : StoreStep α'}
    (changes : Store.Parallel r results change change') :
    Parallel r results (onStore change) (onStore change') := by
  intro ⟨store, output, stamp⟩ ⟨store', output', stamp'⟩ now
  rw [onStore, onStore]
  rcases changes.run now.store with
    ⟨a, a', after, after', ran, ran', same, later⟩ | ⟨f, _, after, after', ran, ran', rfl, later⟩
  · rw [ran, ran']
    exact ⟨.ok same, later, now.output, now.nextStamp⟩
  · rw [ran, ran']
    exact ⟨.error (.failed (EvalError.relined_ofFault f)), later, now.output, now.nextStamp⟩

theorem parallel_lookup (env : Location) (name : String) :
    Parallel r (Value.Relined r.map) (lookup env name) (lookup env name) :=
  parallel_ask fun _ _ relined => relined.lookup env name

theorem parallel_lookupFunction (env : Location) (name : String) :
    Parallel r (Callable.Relined r.map) (lookupFunction env name) (lookupFunction env name) :=
  parallel_ask fun _ _ relined => relined.lookupFunction env name

theorem parallel_declare (env : Location) (name : String) {value value' : Value}
    (same : Value.Relined r.map value value') (mutability : Mutability) :
    Parallel r Eq (declare env name value mutability) (declare env name value' mutability) :=
  parallel_onStore (Store.parallel_declare env name same mutability)

theorem parallel_declareFunction (env : Location) (name : String) {callable callable' : Callable}
    (same : Callable.Relined r.map callable callable') :
    Parallel r Eq (declareFunction env name callable) (declareFunction env name callable') :=
  parallel_onStore fun _ _ relined => ⟨.ok rfl, relined.declareFunction env name same⟩

/-- A named function is declared, and is the value of its declaration. -/
theorem parallel_function (env : Location) (header : FunctionHeader) {body body' : List Node}
    (bodies : List.Forall₂ (Node.RelinedInBody r.map) body body') :
    Parallel r (Value.Relined r.map)
      (do
        declareFunction env header.name (.function header body)
        return .callable (.function header body))
      (do
        declareFunction env header.name (.function (header.mapLine r.map) body')
        return .callable (.function (header.mapLine r.map) body')) := by
  have declared : Callable.Relined r.map (.function header body)
      (.function (header.mapLine r.map) body') := .function bodies
  exact (parallel_declareFunction env _ declared).bind fun _ _ _ => .pure (.callable declared)

theorem parallel_assign (env : Location) (name : String) {value value' : Value}
    (same : Value.Relined r.map value value') :
    Parallel r Eq (assign env name value) (assign env name value') :=
  parallel_onStore (Store.parallel_assign env name same)

theorem parallel_expand (env module : Location) :
    Parallel r Eq (expand env module) (expand env module) :=
  parallel_onStore fun _ _ relined => ⟨.ok rfl, relined.expand env module⟩

theorem parallel_openModule (name : String) (env : Location) :
    Parallel r Eq (openModule name env) (openModule name env) :=
  parallel_onStore (Store.parallel_openModule name env)

theorem parallel_openedModule (name : String) :
    Parallel r Eq (openedModule name) (openedModule name) := by
  refine parallel_ask fun store store' relined => ?_
  rw [relined.openedModule_eq]
  cases store.openedModule name with
  | ok module => exact .ok rfl
  | error fault => exact .error rfl

theorem parallel_printLine (text : String) : Parallel r Eq (printLine text) (printLine text) :=
  fun _ _ now => ⟨.ok rfl, now.store, congrArg (·.printLine text) now.output, now.nextStamp⟩

theorem parallel_child (env : Location) {site site' : CallSite}
    (sites : CallSite.Relined r site site') :
    Parallel r Eq (child env (some site)) (child env (some site')) := by
  intro m m' now
  refine ⟨.ok now.store.next.symm, ?_, now.output, now.nextStamp⟩
  exact now.store.add (Store.Frame.relined_create (some env) (.some sites))

theorem parallel_holding (parallel : Parallel r results step step') (kept : List Location) :
    Parallel r results (holding kept step) (holding kept step') := by
  intro m m' now
  rw [holding_run, holding_run]
  obtain ⟨ended, later⟩ := parallel _ _ (now.holdingOnly (kept ++ m.store.held))
  rw [now.store.held]
  exact ⟨ended, later.holdingOnly m.store.held⟩

theorem parallel_inScope (env : Location) {site site' : CallSite}
    (sites : CallSite.Relined r site site') {work : Location → Eval α} {work' : Location → Eval α'}
    (parallel : ∀ scope, Parallel r results (work scope) (work' scope)) :
    Parallel r results (inScope env site work) (inScope env site' work') := by
  refine (parallel_child env sites).bind ?_
  rintro scope _ rfl
  exact parallel_holding (parallel scope) [scope]

end Steps

section Wraps

variable {line line' : Line}

theorem parallel_located (parallel : Parallel r results step step') (reports : r.Reports line line')
    (env : Location) : Parallel r results (located line env step) (located line' env step') := by
  intro m m' now
  rw [located, located]
  rcases parallel.run now with
    ⟨_, _, _, _, ran, ran', same, later⟩ | ⟨_, _, _, _, ran, ran', stopped, later⟩
  · rw [ran, ran']
    exact ⟨.ok same, later⟩
  · rw [ran, ran']
    cases stopped with
    | returned same => exact ⟨.error (.returned same), later⟩
    | exhausted => exact ⟨.error .exhausted, later⟩
    | failed same =>
      refine ⟨.error (.failed ?_), later⟩
      exact (same.atLine reports).withBacktrace (later.store.backtrace env)

theorem parallel_onLine (parallel : Parallel r results step step')
    (reports : r.Reports line line') :
    Parallel r results (onLine line step) (onLine line' step') := by
  intro m m' now
  rw [onLine, onLine]
  rcases parallel.run now with
    ⟨_, _, _, _, ran, ran', same, later⟩ | ⟨_, _, _, _, ran, ran', stopped, later⟩
  · rw [ran, ran']
    exact ⟨.ok same, later⟩
  · rw [ran, ran']
    cases stopped with
    | returned same => exact ⟨.error (.returned same), later⟩
    | exhausted => exact ⟨.error .exhausted, later⟩
    | failed same => exact ⟨.error (.failed (same.atLine reports)), later⟩

theorem parallel_uncaught (parallel : Parallel r results step step')
    (reports : r.Reports line line') :
    Parallel r results (uncaught line step) (uncaught line' step') := by
  intro m m' now
  rw [uncaught, uncaught]
  rcases parallel.run now with
    ⟨_, _, _, _, ran, ran', same, later⟩ | ⟨_, _, _, _, ran, ran', stopped, later⟩
  · rw [ran, ran']
    exact ⟨.ok same, later⟩
  · rw [ran, ran']
    cases stopped with
    | returned =>
      exact ⟨.error (.failed ((EvalError.relined_ofFault _).atLine reports)), later⟩
    | exhausted => exact ⟨.error .exhausted, later⟩
    | failed same => exact ⟨.error (.failed (same.atLine reports)), later⟩

theorem parallel_catchReturn {body body' : Eval Unit} (parallel : Parallel r Eq body body')
    (reports : r.Reports line line') (function : String) (scope : Location) :
    Parallel r (Value.Relined r.map) (catchReturn function line scope body)
      (catchReturn function line' scope body') := by
  intro m m' now
  rw [catchReturn, catchReturn]
  rcases parallel.run now with
    ⟨_, _, _, _, ran, ran', -, later⟩ | ⟨_, _, _, _, ran, ran', stopped, later⟩
  · rw [ran, ran']
    refine ⟨.error (.failed ?_), later⟩
    exact ((EvalError.relined_ofFault _).atLine reports).withBacktrace (later.store.backtrace scope)
  · rw [ran, ran']
    cases stopped with
    | returned same => exact ⟨.ok same, later⟩
    | exhausted => exact ⟨.error .exhausted, later⟩
    | failed same => exact ⟨.error (.failed same), later⟩

end Wraps

section Walks

variable {evaluator evaluator' : Evaluator} {env : Location}

/-- Evaluators that take the same course on other lines. -/
def Evaluators (r : Relining) (evaluator evaluator' : Evaluator) : Prop :=
  ∀ node node', Node.RelinedInBody r.map node node' → ∀ env,
    Parallel r (Value.Relined r.map) (evaluator node env) (evaluator' node' env)

theorem parallel_bindArguments (scope : Location) {arguments arguments' : Arguments}
    (given : Arguments.Relined r.map arguments arguments') :
    Parallel r Eq (bindArguments scope arguments) (bindArguments scope arguments') := by
  induction given with
  | nil => exact .pure rfl
  | @cons argument argument' _ _ first _ ih =>
    obtain ⟨name, value⟩ := argument
    obtain ⟨_, value'⟩ := argument'
    obtain ⟨rfl, same⟩ := first
    exact (parallel_declare scope _ same .immutable).bind fun _ _ _ => ih

theorem parallel_check {result result' : Except Fault α} (same : result' = result)
    {related : α → α → Prop} (reflexive : ∀ a, result = .ok a → related a a) :
    Parallel r related (ask fun _ => result) (ask fun _ => result') := by
  refine parallel_ask fun _ _ _ => ?_
  rw [same]
  cases held : result with
  | ok a => exact .ok (reflexive a held)
  | error fault => exact .error rfl

variable (ih : Evaluators r evaluator evaluator')

include ih

theorem Evaluators.source {node node' : Node} (relined : Node.Relined r.map node node')
    (env : Location) :
    Parallel r (Value.Relined r.map) (evaluator node env) (evaluator' node' env) :=
  ih node node' (.source relined) env

theorem parallel_sequence (env : Location) {body body' : List Node}
    (bodies : List.Forall₂ (Node.Relined r.map) body body') {last last' : Value}
    (before : Value.Relined r.map last last') :
    Parallel r (Value.Relined r.map) (sequence evaluator env last body)
      (sequence evaluator' env last' body') := by
  induction bodies generalizing last last' with
  | nil => exact .pure before
  | cons first _ rest =>
    rw [sequence, sequence, before.kept_eq]
    exact (parallel_holding (ih.source first env) _).bind fun _ _ same => rest same

theorem parallel_runBody (env : Location) {body body' : List Node}
    (bodies : List.Forall₂ (Node.RelinedInBody r.map) body body') :
    Parallel r Eq (runBody evaluator env body) (runBody evaluator' env body') := by
  induction bodies with
  | nil => exact .pure rfl
  | cons first _ rest => exact (ih _ _ first env).bind fun _ _ _ => rest

theorem parallel_evaluateArguments (env : Location) {arguments arguments' : List (String × Node)}
    (keys : arguments'.map Prod.fst = arguments.map Prod.fst)
    (given : List.Forall₂ (Node.Relined r.map) (arguments.map Prod.snd)
      (arguments'.map Prod.snd)) :
    Parallel r (Arguments.Relined r.map) (evaluateArguments evaluator env arguments)
      (evaluateArguments evaluator' env arguments') := by
  induction arguments generalizing arguments' with
  | nil =>
    obtain rfl : arguments' = [] := List.map_eq_nil_iff.mp keys
    exact .pure .nil
  | cons argument rest tail =>
    cases arguments' with
    | nil => cases keys
    | cons argument' rest' =>
      obtain ⟨name, node⟩ := argument
      obtain ⟨name', node'⟩ := argument'
      obtain ⟨rfl, others⟩ := List.cons_eq_cons.mp keys
      obtain ⟨first, rest⟩ := List.forall₂_cons.mp given
      rw [evaluateArguments, evaluateArguments]
      refine (ih.source first env).bind fun value value' same => ?_
      rw [same.kept_eq]
      refine (parallel_holding (tail others rest) _).bind fun values values' passed => ?_
      exact .pure (.cons ⟨rfl, same⟩ passed)

theorem parallel_testCondition (env : Location) {condition condition' : Node}
    (test : Node.Relined r.map condition condition') :
    Parallel r Eq (testCondition evaluator condition env)
      (testCondition evaluator' condition' env) := by
  refine (ih.source test env).bind fun value value' same => ?_
  rw [test.line_eq]
  exact parallel_onLine (parallel_check same.truth_eq fun _ _ => rfl) (r.reports_map _)

theorem parallel_scope (env : Location) (label : String) (line : Line) {body body' : List Node}
    (bodies : List.Forall₂ (Node.Relined r.map) body body') :
    Parallel r (Value.Relined r.map)
      (inScope env ⟨label, line⟩ fun scope => sequence evaluator scope .unit body)
      (inScope env ⟨label, r.map line⟩ fun scope => sequence evaluator' scope .unit body') := by
  have sites : CallSite.Relined r ⟨label, line⟩ ⟨label, r.map line⟩ := ⟨rfl, r.reports_map line⟩
  exact parallel_inScope env sites fun scope => parallel_sequence ih scope bodies (.same rfl)

theorem parallel_runLoop (env : Location) (line : Line) {condition condition' : Node}
    (test : Node.Relined r.map condition condition') {body body' : List Node}
    (bodies : List.Forall₂ (Node.Relined r.map) body body') (rounds : Nat) :
    Parallel r (Value.Relined r.map) (runLoop evaluator line condition body env rounds)
      (runLoop evaluator' (r.map line) condition' body' env rounds) := by
  induction rounds with
  | zero => exact .fail .exhausted
  | succ rounds next =>
    refine (parallel_testCondition ih env test).bind ?_
    rintro chosen _ rfl
    cases chosen with
    | true => exact (parallel_scope ih env "while" line bodies).bind fun _ _ _ => next
    | false => exact .pure (.same rfl)

end Walks

end Eval

namespace Interpreter

open Eval

/-- A function of the host that does the same for calls on other lines. -/
def HeedsNoLines (r : Relining) (native : NativeFn) : Prop :=
  ∀ site site' arguments arguments' scope, r.Reports site.line site'.line →
    Arguments.Relined r.map arguments arguments' →
    Parallel r (Value.Relined r.map) (native site arguments scope) (native site' arguments' scope)

theorem heedsNoLines_println : HeedsNoLines r Native.println := by
  intro site site' arguments arguments' scope _ given
  rw [Native.println, Native.println, Arguments.firstDisplay_eq given]
  exact (parallel_printLine _).bind fun _ _ _ => .pure (.same rfl)

variable {interpreter : Interpreter} {evaluator evaluator' : Evaluator}

section Calls

variable (ih : Evaluators r evaluator evaluator')

include ih

theorem parallel_evaluateCallee {callee callee' : Node} (called : Node.Relined r.map callee callee')
    (env : Location) :
    Parallel r (Value.Relined r.map) (evaluateCallee evaluator callee env)
      (evaluateCallee evaluator' callee' env) := by
  have other := ih.source called env
  cases called
  case readFunction tag name =>
    exact (parallel_lookupFunction env name).bind fun _ _ same => .pure (.callable same)
  case readVariable tag name => exact parallel_lookup env name
  all_goals exact other

/-- The body of a function on other lines, with the arguments bound in its scope. -/
theorem parallel_body {line line' : Line} (reports : r.Reports line line') (function : String)
    {arguments arguments' : Arguments} (given : Arguments.Relined r.map arguments arguments')
    {body body' : List Node} (bodies : List.Forall₂ (Node.RelinedInBody r.map) body body')
    (scope : Location) :
    Parallel r (Value.Relined r.map)
      (do
        bindArguments scope arguments
        catchReturn function line scope (runBody evaluator scope body))
      (do
        bindArguments scope arguments'
        catchReturn function line' scope (runBody evaluator' scope body')) :=
  (parallel_bindArguments scope given).bind fun _ _ _ =>
    parallel_catchReturn (parallel_runBody ih scope bodies) reports function scope

variable (hosts : ∀ name native, interpreter.natives.get? name = some native →
  HeedsNoLines r native)

include hosts

theorem parallel_invokeWith {callable callable' : Callable}
    (relined : Callable.Relined r.map callable callable') {site site' : Node}
    (reports : r.Reports site.line site'.line) {arguments arguments' : Arguments}
    (given : Arguments.Relined r.map arguments arguments') (env : Location) :
    Parallel r (Value.Relined r.map)
      (interpreter.invokeWith evaluator callable site arguments env)
      (interpreter.invokeWith evaluator' callable' site' arguments' env) := by
  have sites : CallSite.Relined r ⟨"call " ++ callable.name, site.line⟩
      ⟨"call " ++ callable'.name, site'.line⟩ := by
    refine ⟨?_, reports⟩
    rw [relined.name_eq]
  cases relined with
  | function bodies => exact parallel_inScope env sites (parallel_body ih reports _ given bodies)
  | closure bodies =>
    have inBody := Node.relinedInBody_of_forall₂ bodies
    exact parallel_inScope _ sites (parallel_body ih reports _ given inBody)
  | @native header =>
    refine parallel_inScope env sites fun scope =>
      parallel_catchReturn ?_ reports header.name scope
    change Parallel r Eq (callNative interpreter.natives header.hostName site arguments scope)
      (callNative interpreter.natives header.hostName site' arguments' scope)
    rw [callNative, callNative]
    split
    · rename_i native supplied
      have ran := hosts header.hostName native supplied site site' _ _ scope reports given
      exact ran.bind fun _ _ same => .fail (.returned same)
    · exact parallel_fault _
  | @constructor header =>
    refine parallel_inScope env sites fun scope =>
      parallel_catchReturn (.fail (.returned ?_)) reports header.name scope
    rw [construct, construct, Arguments.firstDisplay_eq given]
    split <;> exact .same rfl

theorem parallel_evaluateCall {site site' : Node} (reports : r.Reports site.line site'.line)
    {callee callee' : Node} (called : Node.Relined r.map callee callee')
    {arguments arguments' : List (String × Node)}
    (keys : arguments'.map Prod.fst = arguments.map Prod.fst)
    (given : List.Forall₂ (Node.Relined r.map) (arguments.map Prod.snd) (arguments'.map Prod.snd))
    (env : Location) :
    Parallel r (Value.Relined r.map)
      (interpreter.evaluateCall evaluator site callee arguments env)
      (interpreter.evaluateCall evaluator' site' callee' arguments' env) := by
  refine (parallel_evaluateCallee ih called env).bind fun target target' same => ?_
  rw [same.kept_eq, same.type_eq]
  refine parallel_holding ?_ _
  refine (parallel_evaluateArguments ih env keys given).bind fun values values' passed => ?_
  rcases rel_cases same.asCallable? with ⟨missing, missing'⟩ | ⟨_, _, there, there', callables⟩
  · rw [missing, missing']
    exact parallel_fault _
  · rw [there, there', Arguments.kept_eq passed]
    exact parallel_holding (parallel_invokeWith ih hosts callables reports passed env) _

/-- A step on other lines, over evaluators that take the same course on other lines. -/
theorem parallel_step (rounds : Nat) {node node' : Node} (relined : Node.Relined r.map node node')
    (env : Location) :
    Parallel r (Value.Relined r.map) (interpreter.step rounds evaluator node env)
      (interpreter.step rounds evaluator' node' env) := by
  have line : node'.line = r.map node.line := relined.line_eq
  cases relined with
  | literal => exact .pure (.same (Value.asCallable?_ofLiteral _))
  | this | readVariable => exact parallel_lookup env _
  | readFunction =>
    exact (parallel_lookupFunction env _).bind fun _ _ same => .pure (.callable same)
  | get | set | record => exact parallel_fault _
  | call called keys given =>
    exact parallel_evaluateCall ih hosts (line ▸ r.reports_map _) called keys given env
  | unary below =>
    refine (ih.source below env).bind fun value value' same => ?_
    exact parallel_check (same.unary_eq _) fun _ held => .same (Value.asCallable?_unary held)
  | binary first second =>
    refine (ih.source first env).bind fun left left' same => ?_
    rw [same.kept_eq]
    refine (parallel_holding (ih.source second env) _).bind fun right right' same' => ?_
    exact parallel_check (same.binary_eq _ same') fun _ held =>
      .same (Value.asCallable?_binary held)
  | logical first second =>
    refine (ih.source first env).bind fun left left' same => ?_
    refine (parallel_check same.truth_eq fun _ _ => rfl).bind ?_
    rintro decided _ rfl
    split
    · exact .pure (.same rfl)
    · refine (ih.source second env).bind fun right right' same' => ?_
      refine (parallel_check same'.truth_eq fun _ _ => rfl).bind ?_
      rintro result _ rfl
      exact .pure (.same rfl)
  | bind below =>
    refine (ih.source below env).bind fun value value' same => ?_
    exact (parallel_declare env _ same _).bind fun _ _ _ => .pure same
  | assign below =>
    refine (ih.source below env).bind fun value value' same => ?_
    exact (parallel_assign env _ same).bind fun _ _ _ => .pure same
  | returns below =>
    exact (ih.source below env).bind fun value value' same => .fail (.returned same)
  | block bodies => exact parallel_scope ih env _ _ bodies
  | loop test bodies => exact parallel_runLoop ih env _ test bodies rounds
  | branch test first second =>
    refine (parallel_testCondition ih env test).bind ?_
    rintro chosen _ rfl
    cases chosen with
    | true => exact parallel_scope ih env _ _ first
    | false => exact parallel_scope ih env _ _ second
  | @function _ header _ _ bodies =>
    exact parallel_function env header (Node.relinedInBody_of_forall₂ bodies)
  | @extension _ header _ _ receiver none bodies =>
    have source := Node.relinedInBody_of_forall₂ bodies
    exact parallel_function env header (List.rel_append source (.cons .added .nil))
  | native =>
    exact (parallel_declareFunction env _ .native).bind fun _ _ _ => .pure (.callable .native)
  | anonymous bodies => exact .pure (.callable (.closure bodies))
  | openModule =>
    exact (parallel_openModule _ env).bind fun _ _ _ => .pure (.same rfl)
  | useModule =>
    refine (parallel_openedModule _).bind ?_
    rintro module _ rfl
    exact (parallel_expand env module).bind fun _ _ _ => .pure (.same rfl)

end Calls

/-- The return that lowering adds returns the unit value, unless the fuel does not reach that far;
in neither case is there an error that could tell its line. -/
theorem evaluate_syntheticReturn (interpreter : Interpreter) (fuel : Nat) (env : Location) :
    ∃ stop, (∀ r : Relining, Stop.Relined r stop stop) ∧
      interpreter.evaluate fuel Lowering.syntheticReturn env = Attempt.fail stop := by
  match fuel with
  | 0 => exact ⟨.exhausted, fun _ => .exhausted, rfl⟩
  | 1 => exact ⟨.exhausted, fun _ => .exhausted, rfl⟩
  | fuel + 2 => exact ⟨.returned .unit, fun _ => .returned (.same rfl), rfl⟩

section Runs

variable (hosts : ∀ name native, interpreter.natives.get? name = some native →
  HeedsNoLines r native)

include hosts

theorem parallel_evaluate (fuel : Nat) :
    Evaluators r (interpreter.evaluate fuel) (interpreter.evaluate fuel) := by
  induction fuel with
  | zero => exact fun _ _ _ _ => .fail .exhausted
  | succ fuel ih =>
    intro node node' relined env
    cases relined with
    | added =>
      obtain ⟨stop, same, stopped⟩ := evaluate_syntheticReturn interpreter (fuel + 1) env
      rw [stopped]
      exact .fail (same r)
    | source relined =>
      rw [evaluate, evaluate, relined.line_eq]
      exact parallel_located (parallel_step ih hosts fuel relined env) (r.reports_map _) env

/-- Evaluation of a unit on other lines. -/
theorem parallel_evaluateFrom (fuel : Nat) (target : Location) {unit unit' : List Node}
    (units : List.Forall₂ (Node.Relined r.map) unit unit') :
    Parallel r (List.Forall₂ (Value.Relined r.map)) (interpreter.evaluateFrom fuel target unit)
      (interpreter.evaluateFrom fuel target unit') := by
  induction units generalizing target with
  | nil => exact .pure .nil
  | @cons node node' rest rest' first _ ih =>
    have evaluated := parallel_evaluate hosts fuel _ _ (.source first) target
    by_cases opens : ∃ tag name, node = .openModule tag name
    · obtain ⟨tag, name, rfl⟩ := opens
      cases first
      rw [evaluateFrom, evaluateFrom]
      refine (parallel_onLine (parallel_openModule name interpreter.global)
        (r.reports_map tag.line)).bind ?_
      rintro module _ rfl
      exact (ih module).bind fun _ _ values => .pure (.cons (.same rfl) values)
    · have other : ∀ tag name, node ≠ .openModule tag name :=
        fun tag name same => opens ⟨tag, name, same⟩
      have other' : ∀ tag name, node' ≠ .openModule tag name := by
        rintro tag name rfl
        cases first
        exact other _ _ rfl
      rw [evaluateFrom_cons other, evaluateFrom_cons other', first.line_eq]
      refine (parallel_uncaught evaluated (r.reports_map node.line)).bind ?_
      intro value value' same
      rw [same.kept_eq]
      refine (parallel_holding (ih target) _).bind fun values values' others => ?_
      exact .pure (.cons same others)

/-- A call from outside is on no line of the source. -/
theorem parallel_callFunction (reports : r.Reports .synthetic .synthetic) (fuel : Nat)
    (name : String) :
    Parallel r (Value.Relined r.map) (interpreter.callFunction fuel name [])
      (interpreter.callFunction fuel name []) := by
  refine (parallel_lookupFunction interpreter.global name).bind fun callable callable' same => ?_
  rw [same.kept_eq, same.type_eq]
  refine parallel_holding ?_ _
  refine parallel_invokeWith (parallel_evaluate hosts fuel) hosts same ?_ .nil interpreter.global
  exact reports

end Runs

end Interpreter

end ScriptCore
