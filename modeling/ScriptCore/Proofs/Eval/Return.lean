import ScriptCore.Native.Standard
import ScriptCore.Proofs.Eval.Operators
import ScriptCore.Proofs.Eval.Triple

/-!
# Returns stay inside of invocations

A return is on its way only where the node that is evaluated has one, and an invocation catches
every return of what it runs. So the only returns that a unit is left with are those of its own
nodes.
-/
namespace ScriptCore

namespace Node

mutual

/-- Whether a return occurs in a node anywhere but in the body of a function. -/
def hasReturn : Node → Bool
  | returns _ _ => true
  | block _ body => anyHasReturn body
  | loop _ condition body => hasReturn condition || anyHasReturn body
  | branch _ condition whenTrue whenFalse =>
    hasReturn condition || anyHasReturn whenTrue || anyHasReturn whenFalse
  | bind _ _ _ value | assign _ _ value => hasReturn value
  | call _ callee arguments => hasReturn callee || anyArgumentHasReturn arguments
  | unary _ _ right => hasReturn right
  | binary _ _ left right | logical _ _ left right => hasReturn left || hasReturn right
  | get _ receiver _ => hasReturn receiver
  | set _ receiver _ value => hasReturn receiver || hasReturn value
  | literal _ _ | this _ | readVariable _ _ | readFunction _ _ | function _ _ _ | native _ _
  | anonymous _ _ _ | record _ _ | openModule _ _ | useModule _ _ => false

def anyHasReturn : List Node → Bool
  | [] => false
  | node :: rest => hasReturn node || anyHasReturn rest

def anyArgumentHasReturn : List (String × Node) → Bool
  | [] => false
  | (_, value) :: rest => hasReturn value || anyArgumentHasReturn rest

end

theorem anyHasReturn_iff {body : List Node} :
    anyHasReturn body = true ↔ ∃ node ∈ body, node.hasReturn = true := by
  induction body with
  | nil => simp [anyHasReturn]
  | cons node rest ih => simp [anyHasReturn, ih]

theorem anyArgumentHasReturn_iff {arguments : List (String × Node)} :
    anyArgumentHasReturn arguments = true ↔ ∃ argument ∈ arguments, argument.2.hasReturn = true := by
  induction arguments with
  | nil => simp [anyArgumentHasReturn]
  | cons argument rest ih => simp [anyArgumentHasReturn, ih]

end Node

/-- A host may return, but it does not claim that a return went uncaught. -/
def NativeFn.KeepsReturns (native : NativeFn) : Prop :=
  ∀ site arguments scope m e m', native site arguments scope m = (.error (.failed e), m') →
    e.fault ≠ .uncaughtReturn

namespace Eval

/-- Steps that return only if they may, and that do not fail for an uncaught return. -/
def returning (may : Prop) : Stops :=
  ⟨fun _ _ => may, fun fault _ => fault ≠ .uncaughtReturn, fun _ => True⟩

/-- What holds of evaluation when only the way it ends counts. -/
def Returns {α : Type} (may : Prop) (step : Eval α) : Prop :=
  Triple (fun _ => True) step (fun _ _ => True) (returning may)

namespace Returns

variable {α β : Type} {may : Prop}

theorem mono {step : Eval α} {rarely : Prop} (h : Returns rarely step) (allows : rarely → may) :
    Returns may step :=
  Triple.consequence h (fun _ held => held) (fun _ _ held => held)
    ⟨fun _ _ => allows, fun _ _ held => held, fun _ held => held⟩

/-- Any result will do that holds of every heap. -/
theorem triple {step : Eval α} (h : Returns may step) {after : α → Store → Prop}
    (all : ∀ a heap, after a heap) : Triple (fun _ => True) step after (returning may) :=
  Triple.mono h fun a heap _ => all a heap

theorem bind {step : Eval α} {next : α → Eval β} (first : Returns may step)
    (second : ∀ a, Returns may (next a)) : Returns may (step >>= next) :=
  Triple.bind first second

theorem pure (a : α) : Returns may (Pure.pure a) := Triple.pure fun _ held => held

theorem ask {query : Store → Except Fault α}
    (h : ∀ store f, query store = .error f → f ≠ .uncaughtReturn) : Returns may (Eval.ask query) :=
  Triple.ask (fun _ _ _ _ => trivial) (fun store f _ asked => h store f asked)

theorem lookup (env : Location) (name : String) : Returns may (Eval.lookup env name) :=
  Triple.lookup (fun _ _ _ _ _ _ _ => trivial) (fun _ _ => nofun)

theorem lookupFunction (env : Location) (name : String) :
    Returns may (Eval.lookupFunction env name) :=
  Triple.lookupFunction (fun _ _ _ _ _ _ _ => trivial) (fun _ _ => nofun)

theorem declare (env : Location) (name : String) (value : Value) (mutability : Mutability) :
    Returns may (Eval.declare env name value mutability) :=
  Triple.declare (fun _ _ _ => trivial) (fun _ _ _ => nofun)

theorem truth (value : Value) : Returns may (Eval.ask fun _ => value.truth) :=
  ask fun _ _ failed => Value.truth_eq_error failed ▸ nofun

theorem unary (op : UnaryOp) (right : Value) :
    Returns may (Eval.ask fun _ => Value.unary op right) := by
  refine ask fun _ f failed => ?_
  obtain ⟨expected, rfl⟩ := Value.unary_eq_error failed
  exact nofun

theorem binary (op : BinaryOp) (left right : Value) :
    Returns may (Eval.ask fun _ => Value.binary op left right) :=
  ask fun _ _ failed => Value.binary_eq_error failed ▸ nofun

theorem declareFunction (env : Location) (name : String) (callable : Callable) :
    Returns may (Eval.declareFunction env name callable) :=
  Triple.declareFunction fun _ _ => trivial

theorem assign (env : Location) (name : String) (value : Value) :
    Returns may (Eval.assign env name value) :=
  Triple.assign (fun _ _ _ _ _ => trivial) (fun _ _ _ _ _ => nofun) (fun _ _ _ => nofun)

theorem inScope {env : Location} {site : CallSite} {work : Location → Eval α}
    (h : ∀ scope, Returns may (work scope)) : Returns may (Eval.inScope env site work) :=
  Triple.inScope fun heap _ => (h heap.next).weaken fun _ _ => trivial

section Walks

variable {evaluator : Evaluator} {env : Location}

theorem sequence {body : List Node} (h : ∀ node ∈ body, Returns may (evaluator node env))
    (last : Value) : Returns may (Eval.sequence evaluator env last body) :=
  Triple.sequence (fun _ _ _ => True)
    (fun node _ _ there => h node (there.subset List.mem_cons_self)) last

theorem runBody {body : List Node} (h : ∀ node ∈ body, Returns may (evaluator node env)) :
    Returns may (Eval.runBody evaluator env body) :=
  Triple.runBody (fun _ _ => True) fun node _ there => h node (there.subset List.mem_cons_self)

theorem evaluateArguments {arguments : List (String × Node)}
    (h : ∀ argument ∈ arguments, Returns may (evaluator argument.2 env)) :
    Returns may (Eval.evaluateArguments evaluator env arguments) := by
  have walk := Triple.evaluateArguments (fun _ _ => True) (fun _ _ => True)
    fun name node rest there =>
      (h (name, node) (there.subset List.mem_cons_self)).triple fun _ _ => ⟨trivial, trivial⟩
  exact walk.mono fun _ _ _ => trivial

theorem testCondition {condition : Node} (h : Returns may (evaluator condition env)) :
    Returns may (Eval.testCondition evaluator condition env) :=
  Triple.testCondition h fun _ _ _ =>
    ⟨fun _ _ => trivial, fun _ failed => Value.truth_eq_error failed ▸ nofun⟩

theorem runLoop {line : Line} {condition : Node} {body : List Node} (rounds : Nat)
    (test : Returns may (evaluator condition env))
    (round : ∀ scope, ∀ node ∈ body, Returns may (evaluator node scope)) :
    Returns may (Eval.runLoop evaluator line condition body env rounds) :=
  Triple.runLoop (fun _ => True) (fun _ => True) rounds
    ((testCondition test).triple fun chosen _ => by cases chosen <;> trivial)
    (fun heap _ => (sequence (round heap.next) .unit).weaken fun _ _ => trivial) fun _ _ => trivial

theorem bindArguments (scope : Location) (arguments : Arguments) :
    Returns may (Eval.bindArguments scope arguments) :=
  Triple.bindArguments (fun _ _ => True) fun name value _ _ => declare scope name value .immutable

end Walks

end Returns

end Eval

/-- Whether the body that a callable brings has a return. -/
def Callable.mayReturn : Callable → Prop
  | .function _ body | .closure _ body _ => ∃ node ∈ body, node.hasReturn = true
  | .native _ | .constructor _ => True

namespace Interpreter

open Eval

variable {interpreter : Interpreter}

/-- All functions of the host keep to their own returns. -/
def KeepsReturns (interpreter : Interpreter) : Prop :=
  ∀ name native, interpreter.natives.get? name = some native → NativeFn.KeepsReturns native

theorem returns_callNative (hosts : interpreter.KeepsReturns) (name : String) (site : Node)
    (arguments : Arguments) (scope : Location) :
    Returns True (callNative interpreter.natives name site arguments scope) := by
  rw [callNative]
  split
  · rename_i native supplied
    refine Returns.bind ?_ fun value => Triple.returned fun _ _ => trivial
    refine Triple.of_runs (fun _ _ _ _ _ => trivial) fun m stop m' _ done => ?_
    cases stop with
    | returned => trivial
    | failed e => exact hosts name native supplied site arguments scope m e m' done
    | exhausted => trivial
  · exact Triple.fault fun _ _ => nofun

section Step

variable {evaluator : Evaluator} (ih : ∀ node env, Returns (node.hasReturn = true) (evaluator node env))

include ih

/-- Nodes without returns of their own do not return. -/
theorem returns_of_mem {body : List Node} {env : Location} :
    ∀ node ∈ body, Returns (∃ node ∈ body, node.hasReturn = true) (evaluator node env) :=
  fun node mem => (ih node env).mono fun has => ⟨node, mem, has⟩

/-- The body of a function is run for what it returns, and for nothing else. -/
theorem returns_body {function : String} {line : Line} {body : List Node} (arguments : Arguments)
    (scope : Location) :
    Triple (fun _ => True)
      (do
        bindArguments scope arguments
        catchReturn function line scope (runBody evaluator scope body))
      (fun _ _ => ∃ node ∈ body, node.hasReturn = true) (returning False) := by
  refine Triple.bind (Returns.bindArguments scope arguments) fun _ => Triple.catchReturn ?_
  exact (Returns.runBody (returns_of_mem ih)).triple fun _ _ => nofun

/-- An invocation never returns, and it has a result only if its body may return. -/
theorem returns_invokeWith (hosts : interpreter.KeepsReturns) (callable : Callable) (site : Node)
    (arguments : Arguments) (env : Location) :
    Triple (fun _ => True) (interpreter.invokeWith evaluator callable site arguments env)
      (fun _ _ => callable.mayReturn) (returning False) := by
  cases callable with
  | function header body =>
    exact Triple.inScope fun heap _ =>
      (returns_body ih arguments heap.next).weaken fun _ _ => trivial
  | closure header body captured =>
    exact Triple.inScope fun heap _ =>
      (returns_body ih arguments heap.next).weaken fun _ _ => trivial
  | native header =>
    refine Triple.inScope fun heap _ => Triple.weaken (Triple.catchReturn ?_) fun _ _ => trivial
    exact (returns_callNative hosts _ _ _ _).triple fun _ _ => nofun
  | constructor header =>
    exact Triple.inScope fun heap _ => Triple.catchReturn (Triple.returned fun _ _ => trivial)

theorem returns_evaluateCallee {callee : Node} {env : Location} :
    Returns (callee.hasReturn = true) (evaluateCallee evaluator callee env) := by
  rw [evaluateCallee.eq_def]
  split
  · exact (Returns.lookupFunction env _).bind fun callable => Returns.pure _
  · exact Returns.lookup env _
  · exact ih callee env

theorem returns_evaluateCall (hosts : interpreter.KeepsReturns) {tag : Tag} {callee : Node}
    {arguments : List (String × Node)} {env : Location} :
    Returns ((Node.call tag callee arguments).hasReturn = true)
      (interpreter.evaluateCall evaluator (.call tag callee arguments) callee arguments env) := by
  have fromCallee : callee.hasReturn = true →
      (Node.call tag callee arguments).hasReturn = true := fun has => by
    simp [Node.hasReturn, has]
  have fromArgument : ∀ argument ∈ arguments, argument.2.hasReturn = true →
      (Node.call tag callee arguments).hasReturn = true := fun argument mem has => by
    simp [Node.hasReturn, Node.anyArgumentHasReturn_iff.mpr ⟨argument, mem, has⟩]
  refine ((returns_evaluateCallee ih).mono fromCallee).bind fun target => Triple.holding ?_
  refine Returns.bind (Returns.evaluateArguments fun argument mem =>
    (ih argument.2 env).mono (fromArgument argument mem)) fun values => ?_
  split
  · refine Triple.holding (Returns.mono ?_ False.elim)
    exact (returns_invokeWith ih hosts _ _ values env).mono fun _ _ _ => trivial
  · exact Triple.fault fun _ _ => nofun

theorem returns_step (hosts : interpreter.KeepsReturns) (rounds : Nat) (node : Node)
    (env : Location) :
    Returns (node.hasReturn = true) (interpreter.step rounds evaluator node env) := by
  cases node with
  | literal => exact Returns.pure _
  | this => exact Returns.lookup env _
  | readVariable => exact Returns.lookup env _
  | readFunction => exact (Returns.lookupFunction env _).bind fun callable => Returns.pure _
  | get => exact Triple.fault fun _ _ => nofun
  | set => exact Triple.fault fun _ _ => nofun
  | call => exact returns_evaluateCall ih hosts
  | unary tag op right => exact (ih right env).bind fun value => Returns.unary op value
  -- a return of an operand is one of the node
  | binary tag op left right =>
    refine ((ih left env).mono fun has => by simp [Node.hasReturn, has]).bind fun first => ?_
    refine Returns.bind (Triple.holding ((ih right env).mono fun has => ?_)) fun second =>
      Returns.binary op first second
    simp [Node.hasReturn, has]
  | logical tag op left right =>
    refine ((ih left env).mono fun has => by simp [Node.hasReturn, has]).bind fun first => ?_
    refine (Returns.truth first).bind fun decided => ?_
    split
    · exact Returns.pure _
    · refine ((ih right env).mono fun has => by simp [Node.hasReturn, has]).bind fun second => ?_
      exact (Returns.truth second).bind fun result => Returns.pure _
  | bind tag mutability name value =>
    exact (ih value env).bind fun bound =>
      (Returns.declare env name bound mutability).bind fun _ => Returns.pure _
  | assign tag name value =>
    exact (ih value env).bind fun assigned =>
      (Returns.assign env name assigned).bind fun _ => Returns.pure _
  | returns tag value =>
    refine Returns.bind ((ih value env).mono fun _ => rfl) fun result => ?_
    exact Triple.returned fun _ _ => rfl
  | block tag body =>
    refine Returns.inScope fun scope => Returns.sequence (fun node mem => ?_) _
    exact (ih node scope).mono fun has => Node.anyHasReturn_iff.mpr ⟨node, mem, has⟩
  | loop tag condition body =>
    refine Returns.runLoop rounds ((ih condition env).mono fun has => ?_) fun scope node mem =>
      (ih node scope).mono fun has => ?_
    · simp [Node.hasReturn, has]
    · simp [Node.hasReturn, Node.anyHasReturn_iff.mpr ⟨node, mem, has⟩]
  | branch tag condition whenTrue whenFalse =>
    refine (Returns.testCondition ((ih condition env).mono fun has => ?_)).bind fun chosen => ?_
    · simp [Node.hasReturn, has]
    refine Returns.inScope fun scope => Returns.sequence (fun node mem => ?_) _
    refine (ih node scope).mono fun has => ?_
    cases chosen with
    | true =>
      have found : Node.anyHasReturn whenTrue = true := Node.anyHasReturn_iff.mpr ⟨node, mem, has⟩
      simp [Node.hasReturn, found]
    | false =>
      have found : Node.anyHasReturn whenFalse = true := Node.anyHasReturn_iff.mpr ⟨node, mem, has⟩
      simp [Node.hasReturn, found]
  | function tag header body =>
    exact (Returns.declareFunction env header.name _).bind fun _ => Returns.pure _
  | native tag header =>
    exact (Returns.declareFunction env header.name _).bind fun _ => Returns.pure _
  | anonymous => exact Returns.pure _
  | record => exact Triple.fault fun _ _ => nofun
  | openModule tag name =>
    refine Returns.bind (Triple.openModule ?_ ?_ ?_) fun module => Returns.pure _
    · exact fun _ _ _ _ => trivial
    · exact fun _ _ _ _ => trivial
    · exact fun _ _ => nofun
  | useModule tag name =>
    refine Returns.bind (Triple.openedModule ?_ ?_) fun module =>
      Returns.bind (Triple.expand ?_) fun _ => Returns.pure _
    · exact fun _ _ _ _ => trivial
    · exact fun _ _ => nofun
    · exact fun _ _ => trivial

end Step

theorem returns_evaluate (hosts : interpreter.KeepsReturns) (fuel : Nat) (node : Node)
    (env : Location) : Returns (node.hasReturn = true) (interpreter.evaluate fuel node env) := by
  induction fuel generalizing node env with
  | zero => exact Triple.exhausted fun _ _ => trivial
  | succ fuel ih => exact Triple.located (returns_step ih hosts fuel node env)

theorem returns_evaluateUnit (hosts : interpreter.KeepsReturns) (fuel : Nat) (unit : List Node) :
    Triple (fun _ => True) (interpreter.evaluateUnit fuel unit) (fun _ _ => True)
      ⟨fun _ _ => False,
        fun fault _ => fault = .uncaughtReturn → ∃ node ∈ unit, node.hasReturn = true,
        fun _ => True⟩ := by
  refine Triple.mono (Triple.evaluateFrom (fun _ _ _ => True) (fun _ _ => True) ?_ ?_ _)
    fun _ _ _ => trivial
  · intro target node rest there _
    refine Triple.uncaught (Triple.consequence (returns_evaluate hosts fuel node target)
      (fun _ _ => trivial) (fun _ _ _ => ⟨trivial, trivial⟩) ⟨?_, ?_, fun _ _ => trivial⟩)
    · exact fun _ _ has _ => ⟨node, there.subset List.mem_cons_self, has⟩
    · exact fun _ _ other same => absurd same other
  · intro target tag name rest _
    refine Triple.openModule ?_ ?_ ?_
    · exact fun _ _ _ _ => ⟨trivial, trivial⟩
    · exact fun _ _ _ _ => ⟨trivial, trivial⟩
    · exact fun _ _ => nofun

/-- A return never crosses an invocation. Evaluation returns only where the node has a return, a
unit is left with a return only if one of its nodes has it, and a function whose body has none
has no result. -/
theorem return_safety (hosts : interpreter.KeepsReturns) (fuel : Nat) (m : Machine) :
    (∀ callable site arguments env value,
      (interpreter.invoke fuel callable site arguments env m).1 ≠ .error (.returned value)) ∧
    (∀ node env value, (interpreter.evaluate fuel node env m).1 = .error (.returned value) →
      node.hasReturn = true) ∧
    (∀ unit e, (interpreter.evaluateUnit fuel unit m).1 = .error (.failed e) →
      e.fault = .uncaughtReturn → ∃ node ∈ unit, node.hasReturn = true) ∧
    (∀ body, (∀ node ∈ body, node.hasReturn = false) → ∀ callable,
      ((∃ header, callable = .function header body) ∨
        ∃ header scope, callable = .closure header body scope) →
      ∀ site arguments env value,
        (interpreter.invoke fuel callable site arguments env m).1 ≠ .ok value) := by
  have invocation := returns_invokeWith (returns_evaluate hosts fuel) hosts
  refine ⟨?_, ?_, ?_, ?_⟩
  · intro callable site arguments env value ended
    exact (invocation callable site arguments env).of_error trivial ended
  · intro node env value ended
    exact (returns_evaluate hosts fuel node env).of_error trivial ended
  · intro unit e ended uncaught
    exact (returns_evaluateUnit hosts fuel unit).of_error trivial ended uncaught
  · intro body none callable brought site arguments env value ended
    have may := (invocation callable site arguments env).of_ok trivial ended
    obtain ⟨node, mem, has⟩ : ∃ node ∈ body, node.hasReturn = true := by
      rcases brought with ⟨header, rfl⟩ | ⟨header, scope, rfl⟩ <;> exact may
    simp [none node mem] at has

/-- The standard functions of a host never return and never fail. -/
theorem keepsReturns_standard (global : Location) (classes : Table ClassObject) :
    KeepsReturns ⟨global, classes, Native.standard⟩ := by
  intro name native supplied site arguments scope m e m' failed
  cases Native.eq_println_of_standard supplied
  cases failed

/-- The value that a step returns with. -/
def returned? {α : Type} : Except Stop α → Option Value
  | .error (.returned value) => some value
  | _ => none

/-- The fault that a step fails with. -/
def faultOf? {α : Type} : Except Stop α → Option Fault
  | .error (.failed e) => some e.fault
  | _ => none

theorem eq_returned_of_returned? {α : Type} {result : Except Stop α} {value : Value}
    (shown : returned? result = some value) : result = .error (.returned value) := by
  unfold returned? at shown
  split at shown
  · exact congrArg (Except.error ∘ Stop.returned) (Option.some.inj shown)
  · cases shown

theorem exists_of_faultOf? {α : Type} {result : Except Stop α} {fault : Fault}
    (shown : faultOf? result = some fault) :
    ∃ e, result = .error (.failed e) ∧ e.fault = fault := by
  unfold faultOf? at shown
  split at shown
  · exact ⟨_, rfl, Option.some.inj shown⟩
  · cases shown

/-- A return with a number. -/
def leaving : Node := .returns ⟨.int, ⟨2⟩⟩ (.literal ⟨.int, ⟨2⟩⟩ (.scalar (.int 7)))

/-- The same in a block of a loop. -/
def leavingLoop : Node :=
  .loop ⟨.unit, ⟨1⟩⟩ (.literal ⟨.boolean, ⟨1⟩⟩ (.scalar (.boolean true)))
    [.block ⟨.unit, ⟨1⟩⟩ [leaving]]

/-- A function with this body. -/
def leavingFunction (body : List Node) : Callable :=
  .function ⟨0, "f-0", "f", ⟨[], .int, none⟩, ⟨1⟩⟩ body

/-- A machine with a scope that has nothing in it. -/
def bareMachine : Machine := (Eval.newGlobal (.fresh .silent)).2

theorem computed_leaving :
    let interpreter : Interpreter := ⟨0, .empty, Native.standard⟩
    let invoked := interpreter.invoke 9 (leavingFunction [leavingLoop]) leaving [] 0 bareMachine
    ((returned? (interpreter.evaluate 9 leavingLoop 0 bareMachine).1).bind Value.asInt?,
      invoked.1.toOption.bind Value.asInt?,
      faultOf? (interpreter.evaluateUnit 9 [leaving] bareMachine).1) =
      (some 7, some 7, some .uncaughtReturn) := by
  decide +kernel

/-- A loop is left with a return, which gives an invocation its result and not its end. A unit that
is left with one fails, and a function without one has no result. -/
theorem return_safety_standard :
    let interpreter : Interpreter := ⟨0, .empty, Native.standard⟩
    let invoked := interpreter.invoke 9 (leavingFunction [leavingLoop]) leaving [] 0 bareMachine
    KeepsReturns interpreter ∧
      (∃ value, (interpreter.evaluate 9 leavingLoop 0 bareMachine).1 = .error (.returned value) ∧
        value.asInt? = some 7 ∧ leavingLoop.hasReturn = true) ∧
      (invoked.1.toOption.bind Value.asInt? = some 7 ∧
        ∀ value, invoked.1 ≠ .error (.returned value)) ∧
      (∃ e, (interpreter.evaluateUnit 9 [leaving] bareMachine).1 = .error (.failed e) ∧
        e.fault = .uncaughtReturn ∧ ∃ node ∈ [leaving], node.hasReturn = true) ∧
      ∀ site arguments env value,
        (interpreter.invoke 9 (leavingFunction []) site arguments env bareMachine).1 ≠
          .ok value := by
  intro interpreter invoked
  have hosts : KeepsReturns interpreter := keepsReturns_standard 0 .empty
  obtain ⟨crosses, evaluates, unit, results⟩ := return_safety hosts 9 bareMachine
  obtain ⟨left, rest⟩ := Prod.mk.inj computed_leaving
  obtain ⟨result, uncaught⟩ := Prod.mk.inj rest
  obtain ⟨value, shown, seven⟩ := Option.bind_eq_some_iff.mp left
  have returned := eq_returned_of_returned? shown
  obtain ⟨e, failed, fault⟩ := exists_of_faultOf? uncaught
  exact ⟨hosts, ⟨value, returned, seven, evaluates leavingLoop 0 value returned⟩,
    ⟨result, crosses _ leaving [] 0⟩, ⟨e, failed, fault, unit [leaving] e failed fault⟩,
    results [] nofun _ (.inl ⟨_, rfl⟩)⟩

end Interpreter

end ScriptCore
