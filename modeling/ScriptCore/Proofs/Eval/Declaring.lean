import ScriptCore.Proofs.Eval.Discipline
import ScriptCore.Proofs.Eval.Suits
import ScriptCore.Proofs.Eval.TypeSafety

/-!
# Declarations meet no other one

A typed and tidy node that is evaluated in a scope that has none of its variables yet declares none
twice, however deep loops, invocations and closures go (`declaring_evaluate`). Every body gets a
scope of its own, and every invocation one that holds no more than the arguments: a call binds them
under the parameters of the very function that it invokes, as values of function types are what
their types say.
-/
namespace ScriptCore

namespace Eval

/-- A suited store, and any fault but that a variable is declared already. -/
def redeclaringNothing (declared : Declarations) : Discipline :=
  ⟨(·.Suited declared), fun fault => ∀ name, fault ≠ .alreadyDeclared name⟩

/-- What may be returned inside a function with the result type `returned`, if there is one. -/
def SuitsResult (declared : Declarations) (returned : Option Ty) (value : Value) : Prop :=
  ∀ type, returned = some type → value.Suits declared type

abbrev redeclaringStops (declared : Declarations) (returned : Option Ty) : Stops :=
  (redeclaringNothing declared).stops (SuitsResult declared returned)

/-- The step gives a result that `suits` and declares no variable twice. -/
def Declares {α : Type} (declared : Declarations) (returned : Option Ty) (suits : α → Prop)
    (step : Eval α) : Prop :=
  Obeys (redeclaringNothing declared) (SuitsResult declared returned) suits step

namespace Declares

variable {declared : Declarations} {r : Option Ty} {α : Type} {suits : α → Prop}
  {env : Location} {name : String} {value : Value} {type : Ty}

/-- Work in a scope of its own, which has no variables at the start. -/
theorem inScope {site : CallSite} {names : List String} {work : Location → Eval α}
    (h : ∀ scope, Triple (Store.Awaits declared scope names) (work scope)
      (fun a heap => suits a ∧ heap.Suited declared)
      (redeclaringStops declared r)) :
    Declares declared r suits (Eval.inScope env site work) := by
  refine Triple.inScope fun heap suited => (h heap.next).weaken ?_
  rintro _ rfl
  exact suited.enter

/-- Work that does not depend on what its scope has. -/
theorem inAnyScope {site : CallSite} {work : Location → Eval α}
    (h : ∀ scope, Declares declared r suits (work scope)) :
    Declares declared r suits (Eval.inScope env site work) := by
  have free (scope : Location) := (h scope).weaken
    fun _ (held : Store.Awaits declared scope [] _) => held.suited
  exact inScope free

theorem lookup (known : type = .any ∨ declared.vars name type) :
    Declares declared r (·.Suits declared type) (Eval.lookup env name) := by
  refine Triple.lookup (fun heap location frame value suited there found => ?_)
    fun heap suited => ⟨nofun, suited⟩
  exact ⟨(suited location frame there).values name value found type known, suited⟩

theorem lookupFunction {fn : FnTy} (known : declared.functions name fn) :
    Declares declared r (fun callable => callable.Neat declared ∧ callable.Answers fn)
      (Eval.lookupFunction env name) := by
  refine Triple.lookupFunction (fun heap location frame callable suited there found => ?_)
    fun heap suited => ⟨nofun, suited⟩
  obtain ⟨neat, answers⟩ := (suited location frame there).callables name callable found
  exact ⟨⟨neat, answers fn known⟩, suited⟩

section Unambiguous

variable (unambiguous : declared.Unambiguous)

include unambiguous

theorem assign (known : declared.vars name type) (suits : value.Suits declared type) :
    Declares declared r (fun _ => True) (Eval.assign env name value) := by
  refine Triple.assign (fun _ _ _ suited _ => ⟨trivial, suited.setVariable ?_⟩)
    (fun _ _ _ suited _ => ⟨nofun, suited⟩) fun _ suited _ => ⟨nofun, suited⟩
  exact unambiguous.suits known suits

/-- A variable is declared in a scope that does not have it, and that has none of the variables to
be declared later. -/
theorem declare {mutability : Mutability} {rest : List String} {stops : Stops}
    (known : declared.vars name type) (suits : value.Suits declared type)
    (distinct : (name :: rest).Nodup) :
    Triple (Store.Awaits declared env (name :: rest))
      (Eval.declare env name value mutability)
      (fun _ => Store.Awaits declared env rest) stops := by
  refine Triple.declare (fun heap held _ => ?_) fun heap held taken => ?_
  · have gains : Store.GainsOnly env [.var name] heap
        (heap.setVariable env name ⟨value, mutability⟩) :=
      Store.gainsOnly_declare List.mem_cons_self
    have later := held.free.mono (List.subset_cons_self name rest)
    refine ⟨held.suited.setVariable (unambiguous.suits known suits), later.of_gains gains ?_⟩
    intro other mem added
    cases List.mem_singleton.mp added
    exact (List.nodup_cons.mp distinct).1 mem
  · rw [held.free.contains List.mem_cons_self] at taken
    cases taken

theorem declareFunction {callable : Callable} (neat : callable.Neat declared)
    (known : declared.functions name callable.type) :
    Declares declared r (fun _ => True) (Eval.declareFunction env name callable) := by
  refine Triple.declareFunction fun _ suited => ⟨trivial, suited.declareFunction neat ?_⟩
  intro other declares
  rw [← unambiguous.functions known declares]
  exact callable.answers_type

end Unambiguous

theorem openModule :
    Declares declared r (fun _ => True) (Eval.openModule name env) :=
  Triple.openModule (fun _ _ suited _ => ⟨trivial, suited⟩)
    (fun _ suited _ _ => ⟨trivial, suited.add Store.Frame.suited_create⟩)
    fun _ suited => ⟨nofun, suited⟩

theorem openedModule : Declares declared r (fun _ => True) (Eval.openedModule name) :=
  Triple.openedModule (fun _ _ suited _ => ⟨trivial, suited⟩) fun _ suited => ⟨nofun, suited⟩

theorem expand {module : Location} : Declares declared r (fun _ => True) (Eval.expand env module) :=
  Triple.expand fun _ suited => ⟨trivial, suited.expand⟩

/-- What a body returns suits the result type of its function. -/
theorem catchReturn {before : Store → Prop} {function : String} {line : Line} {scope : Location}
    {body : Eval Unit} {result : Ty}
    (h : Triple before body (fun _ heap => heap.Suited declared)
      (redeclaringStops declared (some result))) :
    Triple before (Eval.catchReturn function line scope body)
      (fun value heap => value.Suits declared result ∧ heap.Suited declared)
      (redeclaringStops declared r) :=
  Triple.mono (Obeys.catchReturn h nofun) fun _ _ held => ⟨held.1 result rfl, held.2⟩

theorem truth : Declares declared r (fun _ => True) (Eval.ask fun _ => value.truth) := by
  refine Obeys.check (fun _ _ => trivial) fun fault failed => ?_
  obtain rfl := Value.truth_eq_error failed
  exact nofun

end Declares

/-- Arguments bound to the parameters that they are given for. -/
def SuitParameters (declared : Declarations) : Parameters → Arguments → Prop :=
  List.Forall₂ fun parameter argument =>
    parameter.1 = argument.1 ∧ argument.2.Suits declared parameter.2

theorem SuitParameters.names {declared : Declarations} {parameters : Parameters}
    {arguments : Arguments} (suiting : SuitParameters declared parameters arguments) :
    arguments.map Prod.fst = Parameters.names parameters := by
  induction suiting with
  | nil => rfl
  | cons head _ ih => exact congrArg₂ List.cons head.1.symm ih

end Eval

namespace Interpreter

open Eval

variable {declared : Declarations} {interpreter : Interpreter} {evaluator : Evaluator}
  {r : Option Ty} {node : Node} {body : List Node} {env : Location}

/-- An evaluator of typed and tidy nodes, in scopes that have none of the variables that the node
declares. -/
def Declaring (declared : Declarations) (evaluator : Evaluator) : Prop :=
  ∀ node env r, Typed declared r node → Node.Tidy [node] →
    Triple (Store.Awaits declared env (Node.boundNames [node]))
      (evaluator node env)
      (fun value heap => value.Suits declared node.type ∧ heap.Suited declared)
      (redeclaringStops declared r)

theorem expectation_suits : Expectation fun type value => value.Suits declared type where
  widens := Value.Suits.of_accepts
  unit := fun suits => suits.of_fn nofun
  empty := trivial

section Step

variable (unambiguous : declared.Unambiguous) (hosts : interpreter.natives = Native.standard)
  (encapsulating : Encapsulating evaluator) (ih : Declaring declared evaluator)

include ih

/-- An expression declares nothing in the scope that it is evaluated in. -/
theorem declares_operand (typed : Typed declared r node)
    (operand : Node.Tidy [node] ∧ node.isStatement = false) (env : Location) :
    Declares declared r (·.Suits declared node.type) (evaluator node env) := by
  refine (ih node env r typed operand.1).weaken fun heap suited => ⟨suited, ?_⟩
  rw [Node.boundNames_of_expression operand.2]
  exact Store.free_nil

/-- A node takes none of the variables that are declared behind it. -/
theorem declares_before (typed : Typed declared r node) (tidy : Node.Tidy [node])
    {rest : List String} (distinct : (Node.boundNames [node] ++ rest).Nodup)
    (encapsulating : Encapsulating evaluator) (env : Location) :
    Triple (Store.Awaits declared env (Node.boundNames [node] ++ rest))
      (evaluator node env)
      (fun value heap => value.Suits declared node.type ∧ heap.Awaits declared env rest)
      (redeclaringStops declared r) := by
  -- what the node adds to its scope is its own variable: the bodies below it have their own scopes
  have apart : ∀ name ∈ rest, .var name ∉ node.additions := by
    intro name mem added
    have bound := tidy.plain.of_var_mem_additions added
    exact (List.nodup_append.mp distinct).2.2 name bound name mem rfl
  have gains (start : Store) := encapsulating node env _ start (List.Subset.refl _)
  have others : Keeps (Store.Free env rest) (evaluator node env) :=
    Keeps.of_relation gains (fun _ => .refl) fun _ _ free gains => free.of_gains gains apart
  refine (Triple.and others (ih node env r typed tidy)).consequence ?_ ?_ ?_
  · rintro heap ⟨suited, free⟩
    exact ⟨free.mono (List.subset_append_right _ _), suited,
      free.mono (List.subset_append_left _ _)⟩
  · exact fun _ _ held => ⟨held.2.1, held.2.2, held.1⟩
  · exact ⟨fun _ _ held => held, fun _ _ held => held, fun _ held => held⟩

theorem declares_testCondition {condition : Node} (typed : Typed declared r condition)
    (operand : Node.Tidy [condition] ∧ condition.isStatement = false) (env : Location) :
    Declares declared r (fun _ => True) (testCondition evaluator condition env) :=
  Obeys.bind (declares_operand ih typed operand env) fun _ _ => Triple.onLine Declares.truth

theorem declares_evaluateArguments {arguments : List (String × Node)}
    (typed : ∀ argument ∈ arguments, Typed declared r argument.2)
    (operands : ∀ argument ∈ arguments, Node.Tidy [argument.2] ∧ argument.2.isStatement = false)
    (env : Location) :
    Declares declared r
      (fun values => List.Forall₂
        (fun argument value => argument.1 = value.1 ∧ value.2.Suits declared argument.2.type)
        arguments values)
      (evaluateArguments evaluator env arguments) := by
  refine Triple.evaluateArguments (fun _ heap => heap.Suited declared)
    (fun node value => value.Suits declared node.type) ?_
  intro name node rest there
  have mem : (name, node) ∈ arguments := there.subset List.mem_cons_self
  exact declares_operand ih (typed _ mem) (operands _ mem) env

section Bodies

variable (typed : ∀ node ∈ body, Typed declared r node) (tidy : Node.Tidy body)
  (distinct : (Node.boundNames body).Nodup)

include encapsulating typed tidy distinct

/-- The next node of a body leaves the scope without the variables of the nodes behind it. -/
theorem declares_next {rest : List Node} (there : node :: rest <:+ body) (env : Location) :
    Triple (Store.Awaits declared env (Node.boundNames (node :: rest)))
      (evaluator node env)
      (fun value heap => value.Suits declared node.type ∧
        heap.Awaits declared env (Node.boundNames rest))
      (redeclaringStops declared r) := by
  have mem : node ∈ body := there.subset List.mem_cons_self
  have names := Node.nodup_boundNames_suffix distinct there
  rw [Node.boundNames_cons] at names ⊢
  exact declares_before ih (typed node mem) (tidy.of_mem mem) names encapsulating env

/-- A body in a scope that has none of its variables. -/
theorem declares_sequence (env : Location) :
    Triple (Store.Awaits declared env (Node.boundNames body))
      (sequence evaluator env .unit body)
      (fun value heap => (value.Suits declared .any ∧
        ∀ type, Node.valueType? body = some type → value.Suits declared type) ∧
          heap.Suited declared)
      (redeclaringStops declared r) := by
  refine (expectation_suits.sequence
    (fun rest => Store.Awaits declared env (Node.boundNames rest)) ?_).mono
    fun _ _ held => ⟨held.1, held.2.suited⟩
  intro node rest there
  exact declares_next encapsulating ih typed tidy distinct there env

/-- A body in a scope of its own. -/
theorem declares_inScope (site : CallSite) :
    Declares declared r
      (fun value => value.Suits declared .any ∧
        ∀ type, Node.valueType? body = some type → value.Suits declared type)
      (Eval.inScope env site fun scope => sequence evaluator scope .unit body) :=
  Declares.inScope fun scope => declares_sequence encapsulating ih typed tidy distinct scope

theorem declares_runBody (env : Location) :
    Triple (Store.Awaits declared env (Node.boundNames body))
      (runBody evaluator env body) (fun _ heap => heap.Suited declared)
      (redeclaringStops declared r) := by
  refine (Triple.runBody (fun rest => Store.Awaits declared env (Node.boundNames rest)) ?_).mono
    fun _ _ held => held.suited
  intro node rest there
  have next := declares_next encapsulating ih typed tidy distinct there env
  exact next.mono fun _ _ held => held.2

end Bodies

include unambiguous encapsulating

omit ih encapsulating in
theorem declares_bindArguments {scope : Location} {parameters : Parameters} {arguments : Arguments}
    {names : List String} {stops : Stops}
    (known : ∀ parameter ∈ parameters, declared.vars parameter.1 parameter.2)
    (suiting : SuitParameters declared parameters arguments)
    (distinct : (Parameters.names parameters ++ names).Nodup) :
    Triple (Store.Awaits declared scope (Parameters.names parameters ++ names))
      (bindArguments scope arguments) (fun _ => Store.Awaits declared scope names) stops := by
  rw [← suiting.names] at distinct ⊢
  refine Triple.bindArguments
    (fun rest => Store.Awaits declared scope (rest.map Prod.fst ++ names)) ?_
  rintro name value rest ⟨front, rfl⟩
  obtain ⟨parameter, mem, rfl, suits⟩ := Safe.exists_of_mem_forall₂ suiting
    (List.mem_append_right front List.mem_cons_self)
  rw [List.map_append, List.append_assoc] at distinct
  exact Declares.declare unambiguous (known parameter mem) suits
    (List.nodup_append.mp distinct).2.1

/-- What an invocation does in its scope. -/
theorem declares_body {type : FnTy} (neat : type.Neat declared body) {arguments : Arguments}
    (suiting : SuitParameters declared type.parameters arguments) {function : String} {line : Line}
    (scope : Location) :
    Triple (Store.Awaits declared scope (Parameters.names type.parameters ++ Node.boundNames body))
      (do
        bindArguments scope arguments
        catchReturn function line scope (runBody evaluator scope body))
      (fun value heap => value.Suits declared type.result ∧ heap.Suited declared)
      (redeclaringStops declared r) := by
  -- the scope is a new one, so the parameters are all that the variables of the body could meet
  refine Triple.bind (declares_bindArguments unambiguous neat.sound.parameters suiting
    neat.distinct) fun _ => ?_
  have own := (List.nodup_append.mp neat.distinct).2.1
  exact Declares.catchReturn (declares_runBody encapsulating ih neat.sound.body neat.tidy own scope)

include hosts

theorem declares_invokeWith {callable : Callable} {type : FnTy} (neat : callable.Neat declared)
    (answers : callable.Answers type) {arguments : Arguments}
    (suiting : SuitParameters declared type.parameters arguments) (site : Node) (env : Location) :
    Declares declared r (·.Suits declared type.result)
      (interpreter.invokeWith evaluator callable site arguments env) := by
  cases callable with
  | function header body =>
    obtain rfl := answers
    exact Declares.inScope fun scope =>
      declares_body unambiguous encapsulating ih neat suiting scope
  | closure header body captured =>
    obtain rfl := answers
    exact Declares.inScope fun scope =>
      declares_body unambiguous encapsulating ih neat suiting scope
  | native header =>
    have called (scope : Location) : Declares declared (some type.result) (fun _ => True)
        (callNative interpreter.natives header.hostName site arguments scope) :=
      Obeys.callNative hosts (fun _ _ => trivial) (fun _ => nofun) site arguments scope
    exact Declares.inAnyScope fun scope =>
      Declares.catchReturn (Triple.mono (called scope) fun _ _ held => held.2)
  | constructor header =>
    refine Declares.inAnyScope fun scope => Declares.catchReturn ?_
    refine Triple.returned fun heap suited => ⟨fun _ _ => ?_, suited⟩
    rw [construct]
    split <;> exact trivial

omit unambiguous hosts encapsulating in
theorem declares_evaluateCallee {callee : Node} (typed : Typed declared r callee)
    (operand : Node.Tidy [callee] ∧ callee.isStatement = false) (env : Location) :
    Declares declared r (·.Suits declared callee.type) (evaluateCallee evaluator callee env) := by
  rw [evaluateCallee.eq_def]
  split
  · cases typed with
    | readFunction known =>
      refine Obeys.bind (Declares.lookupFunction known) fun callable held => Obeys.pure ?_
      exact ⟨held.1, fun fn same => Ty.fn.inj same ▸ held.2⟩
  · cases typed with
    | readVariable known => exact Declares.lookup (.inr known)
  · exact declares_operand ih typed operand env

theorem declares_evaluateCall {callee : Node} {arguments : List (String × Node)} {type : FnTy}
    (calleeTyped : Typed declared r callee) (isFunction : callee.type = .fn type)
    (argumentsTyped : ∀ argument ∈ arguments, Typed declared r argument.2)
    (keyed : arguments.map Prod.fst = Parameters.names type.parameters)
    (accepted : List.Forall₂ (fun parameter argument =>
      parameter.2.accepts argument.2.type = true) type.parameters arguments)
    (called : Node.Tidy [callee] ∧ callee.isStatement = false)
    (given : ∀ argument ∈ arguments, Node.Tidy [argument.2] ∧ argument.2.isStatement = false)
    (site : Node) (env : Location) :
    Declares declared r (·.Suits declared type.result)
      (interpreter.evaluateCall evaluator site callee arguments env) := by
  refine Obeys.bind (declares_evaluateCallee ih calleeTyped called env) fun target suits => ?_
  refine Triple.holding (Obeys.bind (declares_evaluateArguments ih argumentsTyped given env)
    fun values evaluated => ?_)
  cases target with
  | callable callable =>
    -- the callee is of the very type that the keys of the call are the parameters of
    have answers : callable.Answers type := suits.2 type isFunction
    have suiting := expectation_suits.parameters keyed accepted evaluated
    exact Triple.holding
      (declares_invokeWith unambiguous hosts encapsulating ih suits.1 answers suiting site env)
  | _ => exact Obeys.fault (fun _ => nofun)

omit hosts in
/-- The value of a variable declares nothing, so the variable is still to be declared behind it. -/
theorem declares_bind {value : Node} {type : Ty} {mutability : Mutability} {name : String}
    (valueTyped : Typed declared r value) (known : declared.vars name type)
    (accepted : type.accepts value.type = true)
    (operand : Node.Tidy [value] ∧ value.isStatement = false) :
    Triple (Store.Awaits declared env [name])
      (do
        let bound ← evaluator value env
        Eval.declare env name bound mutability
        return bound)
      (fun bound heap => bound.Suits declared type ∧ heap.Suited declared)
      (redeclaringStops declared r) := by
  have single : (Node.boundNames [value] ++ [name]).Nodup := by
    rw [Node.boundNames_of_expression operand.2]
    exact List.pairwise_singleton _ name
  have before := declares_before ih valueTyped operand.1 single encapsulating env
  rw [Node.boundNames_of_expression operand.2] at before
  refine before.bind fun bound => ?_
  refine Triple.weaken (Triple.of_fact fun (suits : bound.Suits declared value.type) => ?_)
    fun _ held => held
  have declares : Triple (Store.Awaits declared env [name])
      (Eval.declare env name bound mutability)
      (fun _ => Store.Awaits declared env [])
      (redeclaringStops declared r) :=
    Declares.declare unambiguous known (suits.of_accepts accepted) (List.pairwise_singleton _ name)
  exact declares.bind fun _ => Triple.pure fun _ held => ⟨suits.of_accepts accepted, held.suited⟩

theorem declares_other (rounds : Nat) {node : Node} (typed : Typed declared r node)
    (tidy : Node.Tidy [node]) (env : Location)
    (other : ∀ tag mutability name value, node ≠ .bind tag mutability name value) :
    Declares declared r (·.Suits declared node.type)
      (interpreter.step rounds evaluator node env) := by
  have operand {operand : Node} (typed : Typed declared r operand) (mem : operand ∈ node.operands) :
      Declares declared r (·.Suits declared operand.type) (evaluator operand env) :=
    declares_operand ih typed (tidy.operand mem) env
  have first {operand : Node} {rest : List Node} : operand ∈ operand :: rest := List.mem_cons_self
  have second {before operand : Node} {rest : List Node} : operand ∈ before :: operand :: rest :=
    List.mem_cons_of_mem _ List.mem_cons_self
  have unary {op : UnaryOp} {value : Value} {type : Ty} : Declares declared r
      (·.Suits declared type) (Eval.ask fun _ => Value.unary op value) := by
    refine Obeys.check (fun _ computed =>
      Value.suits_of_asCallable? (Value.asCallable?_unary computed)) fun fault failed => ?_
    obtain ⟨_, rfl⟩ := Value.unary_eq_error failed
    exact fun _ => nofun
  have binary {op : BinaryOp} {left right : Value} {type : Ty} : Declares declared r
      (·.Suits declared type) (Eval.ask fun _ => Value.binary op left right) := by
    refine Obeys.check (fun _ computed =>
      Value.suits_of_asCallable? (Value.asCallable?_binary computed)) fun fault failed => ?_
    obtain rfl := Value.binary_eq_error failed
    exact fun _ => nofun
  cases typed with
  | literal => exact Obeys.pure (Value.suits_of_asCallable? (Value.asCallable?_ofLiteral _))
  | this known => exact Declares.lookup known
  | readVariable known => exact Declares.lookup (.inr known)
  | readFunction known =>
    refine Obeys.bind (Declares.lookupFunction known) fun callable held => Obeys.pure ?_
    exact ⟨held.1, fun fn same => Ty.fn.inj same ▸ held.2⟩
  | get | set | record => exact Obeys.fault (fun _ => nofun)
  | call calleeTyped isFunction argumentsTyped keyed _ accepted =>
    refine declares_evaluateCall unambiguous hosts encapsulating ih calleeTyped isFunction
      argumentsTyped keyed accepted (tidy.operand first) ?_ _ env
    exact fun argument mem => tidy.operand (List.mem_cons_of_mem _ (List.mem_map_of_mem mem))
  | negation rightTyped | complement rightTyped =>
    exact Obeys.bind (operand rightTyped first) fun _ _ => unary
  | arithmetic leftTyped rightTyped | concatenation leftTyped rightTyped
  | comparison leftTyped rightTyped | equality leftTyped rightTyped =>
    refine Obeys.bind (operand leftTyped first) fun left _ => ?_
    exact Obeys.bind (Triple.holding (operand rightTyped second)) fun right _ => binary
  | logical leftTyped rightTyped =>
    refine Obeys.bind (operand leftTyped first) fun left _ => ?_
    refine Obeys.bind Declares.truth fun decided _ => ?_
    split
    · exact Obeys.pure trivial
    · refine Obeys.bind (operand rightTyped second) fun right _ => ?_
      exact Obeys.bind Declares.truth fun result _ => Obeys.pure trivial
  | bind => exact absurd rfl (other _ _ _ _)
  | assign valueTyped known accepted =>
    refine Obeys.bind (operand valueTyped first) fun value suits => ?_
    exact Obeys.bind (Declares.assign unambiguous known (suits.of_accepts accepted)) fun _ _ =>
      Obeys.pure (suits.of_accepts accepted)
  | returns valueTyped accepted =>
    refine Obeys.bind (operand valueTyped first) fun value suits => Obeys.returned ?_
    exact fun type same => suits.of_accepts (accepted type same)
  | block bodyTyped =>
    have distinct := tidy.own _ List.mem_cons_self
    exact Obeys.mono (declares_inScope encapsulating ih bodyTyped tidy.parts distinct _)
      fun _ held => held.1.of_fn nofun
  | @loop _ _ condition body conditionTyped _ bodyTyped =>
    have parts : Node.Tidy ([condition] ++ body) := tidy.parts
    refine Triple.runLoop (·.Suited declared) (·.Suited declared) rounds ?_ ?_
      fun _ suited => suited
    · have test := declares_testCondition ih conditionTyped (tidy.operand first) env
      refine Triple.mono test fun chosen heap held => ?_
      cases chosen with
      | true => exact held.2
      | false => exact ⟨trivial, held.2⟩
    · intro heap suited
      have round := declares_sequence encapsulating ih bodyTyped (Node.tidy_append.mp parts).2
        (tidy.own _ List.mem_cons_self) heap.next
      refine (round.mono fun _ _ held => held.2).weaken ?_
      rintro _ rfl
      exact suited.enter
  | @branch _ _ condition whenTrue whenFalse conditionTyped _ trueTyped falseTyped value =>
    have parts : Node.Tidy ([condition] ++ (whenTrue ++ whenFalse)) := tidy.parts
    obtain ⟨tidyTrue, tidyFalse⟩ := Node.tidy_append.mp (Node.tidy_append.mp parts).2
    have distinctTrue := tidy.own _ List.mem_cons_self
    have distinctFalse := tidy.own _ (List.mem_cons_of_mem _ List.mem_cons_self)
    refine Obeys.bind (declares_testCondition ih conditionTyped (tidy.operand first) env)
      fun chosen _ => ?_
    cases chosen with
    | true =>
      exact Obeys.mono (declares_inScope encapsulating ih trueTyped tidyTrue distinctTrue _)
        fun _ held => expectation_suits.branch value held.1 (.inl held.2)
    | false =>
      exact Obeys.mono (declares_inScope encapsulating ih falseTyped tidyFalse distinctFalse _)
        fun _ held => expectation_suits.branch value held.1 (.inr held.2)
  | function named known parameters bodyTyped _ =>
    have neat : Callable.Neat declared (.function _ _) :=
      ⟨⟨parameters, bodyTyped⟩, tidy.parts, tidy.own _ List.mem_cons_self⟩
    exact Obeys.bind (Declares.declareFunction unambiguous neat known) fun _ _ =>
      Obeys.pure ⟨neat, fun fn same => Ty.fn.inj same⟩
  | anonymous parameters bodyTyped _ =>
    refine Obeys.pure ⟨⟨⟨parameters, bodyTyped⟩, tidy.parts, tidy.own _ List.mem_cons_self⟩, ?_⟩
    exact fun fn same => Ty.fn.inj same
  | native named known host =>
    exact Obeys.bind (Declares.declareFunction unambiguous trivial known) fun _ _ =>
      Obeys.pure ⟨trivial, fun _ _ => trivial⟩
  | openModule => exact Obeys.bind Declares.openModule fun _ _ => Obeys.pure trivial
  | useModule =>
    refine Obeys.bind Declares.openedModule fun module _ => ?_
    exact Obeys.bind Declares.expand fun _ _ => Obeys.pure trivial

theorem declares_step (rounds : Nat) (typed : Typed declared r node) (tidy : Node.Tidy [node])
    (env : Location) :
    Triple (Store.Awaits declared env (Node.boundNames [node]))
      (interpreter.step rounds evaluator node env)
      (fun value heap => value.Suits declared node.type ∧ heap.Suited declared)
      (redeclaringStops declared r) := by
  by_cases binds : ∃ tag mutability name value, node = .bind tag mutability name value
  · obtain ⟨tag, mutability, name, value, rfl⟩ := binds
    cases typed with
    | bind valueTyped known accepted =>
      exact declares_bind unambiguous encapsulating ih valueTyped known accepted
        (tidy.operand List.mem_cons_self)
  · have other := declares_other unambiguous hosts encapsulating ih rounds typed tidy env
      fun tag mutability name value same => binds ⟨tag, mutability, name, value, same⟩
    exact Triple.weaken other fun _ held => held.suited

end Step

/-- Evaluation of typed and tidy nodes declares no variable twice. -/
theorem declaring_evaluate (unambiguous : declared.Unambiguous)
    (hosts : interpreter.natives = Native.standard) (fuel : Nat) :
    Declaring declared (interpreter.evaluate fuel) := by
  induction fuel with
  | zero => exact fun _ _ _ _ _ => Triple.exhausted fun _ held => held.suited
  | succ fuel ih =>
    intro node env r typed tidy
    exact Triple.located (declares_step unambiguous hosts (encapsulating_evaluate hosts fuel) ih
      fuel typed tidy env)

/-- A unit that opens no module, in a global scope that has none of its variables. -/
theorem declares_evaluateUnit (unambiguous : declared.Unambiguous)
    (hosts : interpreter.natives = Native.standard) (fuel : Nat) {unit : List Node}
    (typed : ∀ node ∈ unit, Typed declared none node) (tidy : Node.Tidy unit)
    (distinct : (Node.boundNames unit).Nodup) (global : ∀ tag name, .openModule tag name ∉ unit) :
    Triple
      (Store.Awaits declared interpreter.global (Node.boundNames unit))
      (interpreter.evaluateUnit fuel unit) (fun _ heap => heap.Suited declared)
      (redeclaringStops declared none) := by
  refine Triple.consequence (Triple.evaluateFrom
    (fun target rest heap => target = interpreter.global ∧
      heap.Awaits declared interpreter.global (Node.boundNames rest))
    (fun _ _ => True) ?_ ?_ interpreter.global) (fun _ held => ⟨rfl, held⟩)
    (fun _ _ held => held.2.elim fun _ last => last.2.suited)
    ⟨fun _ _ held => held, fun _ _ held => held, fun _ held => held⟩
  · intro target node rest there _
    refine Triple.of_fact ?_
    rintro rfl
    have next := declares_next (encapsulating_evaluate hosts fuel)
      (declaring_evaluate unambiguous hosts fuel) typed tidy distinct there interpreter.global
    refine Triple.uncaught (Triple.consequence next (fun _ held => held)
      (fun _ _ held => ⟨trivial, rfl, held.2⟩)
      ⟨?_, fun _ _ held => held, fun _ held => held⟩)
    exact fun _ _ held => ⟨fun _ => nofun, held.2⟩
  · exact fun _ tag name _ there => absurd (there.subset List.mem_cons_self) (global tag name)

end Interpreter

end ScriptCore
