import ScriptCore.Proofs.Eval.Discipline
import ScriptCore.Proofs.Eval.Fits

/-!
# Type safety of evaluation

In a sound store a typed node gives a value that fits its type, and whatever happens on the way,
it leaves a sound store and no fault of a wrong type (`evaluate_fits`).
-/
namespace ScriptCore

/-- The faults that typing rules out. -/
def Fault.IsTypeFault : Fault → Prop
  | .invalidType _ _ | .invalidOperands _ _ _ | .unsupported _ => True
  | _ => False

namespace Eval

/-- Stops in a sound store: a returned value fits the result type of the function around, and a
fault is no fault of a wrong type. -/
def typeSafe (declared : Declarations) (returned : Option Ty) : Stops :=
  ⟨fun value heap => (value.Sound declared ∧
      ∀ type, returned = some type → value.Fits declared type) ∧ heap.Sound declared,
    fun fault heap => ¬ fault.IsTypeFault ∧ heap.Sound declared,
    fun heap => heap.Sound declared⟩

/-- From a sound store the step gives a result that `fits`, and leaves a sound store. -/
def Safe {α : Type} (declared : Declarations) (returned : Option Ty) (fits : α → Prop)
    (step : Eval α) : Prop :=
  Triple (·.Sound declared) step (fun a heap => fits a ∧ heap.Sound declared)
    (typeSafe declared returned)

/-- Stores stay sound, and no fault is one of a wrong type. -/
def typing (declared : Declarations) : Discipline :=
  ⟨(·.Sound declared), fun fault => ¬ fault.IsTypeFault⟩

/-- What is safe keeps to the discipline of typing. -/
theorem safe_eq {α : Type} {declared : Declarations} {returned : Option Ty} {fits : α → Prop}
    {step : Eval α} :
    Safe declared returned fits step = Obeys (typing declared)
      (fun value => value.Sound declared ∧ ∀ type, returned = some type → value.Fits declared type)
      fits step :=
  rfl

namespace Safe

variable {declared : Declarations} {r : Option Ty} {α β : Type} {fits : α → Prop}

theorem mono {step : Eval α} {narrow : α → Prop} (h : Safe declared r narrow step)
    (weaker : ∀ a, narrow a → fits a) : Safe declared r fits step :=
  Triple.mono h fun a _ held => ⟨weaker a held.1, held.2⟩

theorem pure {a : α} (h : fits a) : Safe declared r fits (Pure.pure a) :=
  Triple.pure fun _ sound => ⟨h, sound⟩

theorem bind {step : Eval β} {next : β → Eval α} {between : β → Prop}
    (first : Safe declared r between step)
    (second : ∀ b, between b → Safe declared r fits (next b)) :
    Safe declared r fits (step >>= next) :=
  Triple.bind first fun b => Triple.of_fact (second b)

theorem check {result : Except Fault α} (h : ∃ a, result = .ok a ∧ fits a) :
    Safe declared r fits (Eval.ask fun _ => result) := by
  obtain ⟨a, rfl, fitting⟩ := h
  refine Triple.check (fun b heap same sound => ?_) nofun
  cases same
  exact ⟨fitting, sound⟩

theorem truth {value : Value} (fitting : value.Fits declared .boolean) :
    Safe declared r (fun _ => True) (Eval.ask fun _ => value.truth) := by
  obtain ⟨b, rfl⟩ := fitting.isBoolean
  exact check ⟨b, rfl, trivial⟩

theorem inScope {env : Location} {site : CallSite} {work : Location → Eval α}
    (h : ∀ scope, Safe declared r fits (work scope)) :
    Safe declared r fits (Eval.inScope env site work) := by
  refine Triple.inScope fun heap sound => (h heap.next).weaken ?_
  rintro _ rfl
  exact sound.add Store.Frame.sound_create

section Store

variable (coherent : declared.Coherent) {env : Location} {name : String}

include coherent

theorem lookup {type : Ty} (known : declared.vars name type) :
    Safe declared r (·.Fits declared type) (Eval.lookup env name) := by
  refine Triple.lookup (fun heap location frame value sound there found => ?_)
    fun heap sound => ⟨nofun, sound⟩
  obtain ⟨other, knownOther, fits⟩ := (sound location frame there).values name value found
  exact ⟨coherent.vars known knownOther ▸ fits, sound⟩

omit coherent in
theorem lookup_any : Safe declared r (·.Fits declared .any) (Eval.lookup env name) := by
  refine Triple.lookup (fun heap location frame value sound there found => ?_)
    fun heap sound => ⟨nofun, sound⟩
  obtain ⟨_, -, fits⟩ := (sound location frame there).values name value found
  exact ⟨fits.sound.fits_any, sound⟩

omit coherent in
theorem lookupFunction {type : FnTy} (known : declared.functions name type) :
    Safe declared r (fun callable => callable.Sound declared ∧ callable.type = type)
      (Eval.lookupFunction env name) := by
  refine Triple.lookupFunction (fun heap location frame callable sound there found => ?_)
    fun heap sound => ⟨nofun, sound⟩
  exact ⟨(sound location frame there).callables name callable found type known, sound⟩

omit coherent in
theorem declare {value : Value} {mutability : Mutability} {type : Ty}
    (known : declared.vars name type) (fitting : value.Fits declared type) :
    Safe declared r (fun _ => True) (Eval.declare env name value mutability) :=
  Triple.declare (fun _ sound _ => ⟨trivial, sound.setVariable known fitting⟩)
    fun _ sound _ => ⟨nofun, sound⟩

omit coherent in
theorem assign {value : Value} {type : Ty} (known : declared.vars name type)
    (fitting : value.Fits declared type) :
    Safe declared r (fun _ => True) (Eval.assign env name value) :=
  Triple.assign (fun _ _ _ sound _ => ⟨trivial, sound.setVariable known fitting⟩)
    (fun _ _ _ sound _ => ⟨nofun, sound⟩) fun _ sound _ => ⟨nofun, sound⟩

theorem declareFunction {callable : Callable} {type : FnTy} (known : declared.functions name type)
    (new : callable.Sound declared) (typed : callable.type = type) :
    Safe declared r (fun _ => True) (Eval.declareFunction env name callable) :=
  Triple.declareFunction fun _ sound => ⟨trivial, sound.declareFunction fun _ other =>
    ⟨new, typed.trans (coherent.functions known other)⟩⟩

end Store

theorem openModule {env : Location} {name : String} :
    Safe declared r (fun _ => True) (Eval.openModule name env) :=
  Triple.openModule (fun _ _ sound _ => ⟨trivial, sound⟩)
    (fun _ sound _ _ => ⟨trivial, sound.add Store.Frame.sound_create⟩) fun _ sound => ⟨nofun, sound⟩

theorem openedModule {name : String} : Safe declared r (fun _ => True) (Eval.openedModule name) :=
  Triple.openedModule (fun _ _ sound _ => ⟨trivial, sound⟩) fun _ sound => ⟨nofun, sound⟩

theorem expand {env module : Location} :
    Safe declared r (fun _ => True) (Eval.expand env module) :=
  Triple.expand fun _ sound => ⟨trivial, sound.expand⟩

/-- What a typed body returns fits the result type of its function. -/
theorem catchReturn {function : String} {line : Line} {scope : Location} {body : Eval Unit}
    {type : Ty} (h : Safe declared (some type) (fun _ => True) body) :
    Safe declared r (·.Fits declared type) (Eval.catchReturn function line scope body) := by
  rw [safe_eq] at h ⊢
  have ran := Triple.mono h fun _ _ held => held.2
  exact Triple.mono (Obeys.catchReturn ran nofun) fun _ _ held => ⟨held.1.2 type rfl, held.2⟩

theorem exists_of_mem_forall₂ {R : α → β → Prop} {as : List α} {bs : List β}
    (related : List.Forall₂ R as bs) {b : β} (mem : b ∈ bs) : ∃ a ∈ as, R a b := by
  induction related with
  | nil => cases mem
  | cons head _ ih =>
    rcases List.mem_cons.mp mem with rfl | rest
    · exact ⟨_, List.mem_cons_self, head⟩
    · obtain ⟨a, there, holds⟩ := ih rest
      exact ⟨a, List.mem_cons_of_mem _ there, holds⟩

/-- Arguments that fit the parameters of a function. -/
def FitParameters (declared : Declarations) : Parameters → Arguments → Prop :=
  List.Forall₂ fun parameter argument =>
    parameter.1 = argument.1 ∧ argument.2.Fits declared parameter.2

theorem bindArguments {scope : Location} {parameters : Parameters} {arguments : Arguments}
    (known : ∀ parameter ∈ parameters, declared.vars parameter.1 parameter.2)
    (fitting : FitParameters declared parameters arguments) :
    Safe declared r (fun _ => True) (Eval.bindArguments scope arguments) := by
  refine (Triple.bindArguments (fun _ heap => heap.Sound declared) ?_).mono
    fun _ _ sound => ⟨trivial, sound⟩
  intro name value rest there
  obtain ⟨parameter, mem, rfl, fits⟩ :=
    exists_of_mem_forall₂ fitting (there.subset List.mem_cons_self)
  exact Triple.mono (declare (known parameter mem) fits) fun _ _ held => held.2

end Safe

end Eval

namespace Interpreter

open Eval

variable {declared : Declarations} {interpreter : Interpreter} {r : Option Ty}

theorem safe_callNative (hosts : interpreter.natives = Native.standard) {type : Ty}
    (open_ : type = .unit ∨ type = .any) (name : String) (site : Node) (arguments : Arguments)
    (scope : Location) :
    Safe declared (some type) (fun _ => True)
      (callNative interpreter.natives name site arguments scope) := by
  have fits : Value.unit.Fits declared type := by
    rcases open_ with rfl | rfl
    · exact ⟨trivial, .inl rfl⟩
    · exact ⟨trivial, .inr rfl⟩
  rw [safe_eq]
  refine Obeys.callNative hosts ⟨trivial, fun _ same => ?_⟩ not_false site arguments scope
  exact Option.some.inj same ▸ fits

theorem expectation_fits : Expectation fun type value => value.Fits declared type where
  widens := Value.Fits.of_accepts
  unit := fun fits => fits.sound.fits_unit
  empty := ⟨trivial, .inr rfl⟩

theorem no_fields (coherent : declared.Coherent) {owner : ClassTy} (known : declared.classes owner)
    {name : String} {type : Ty} : Parameters.get? owner.fields name ≠ some type := by
  have builtin := coherent.classes known
  simp only [ClassTy.builtins, List.mem_cons, List.not_mem_nil, or_false] at builtin
  rcases builtin with rfl | rfl | rfl | rfl | rfl | rfl <;> nofun

/-- The one constructor of a record takes its fields, and no builtin class has such a one. -/
theorem record_not_builtin {name : String} {fields : Parameters} :
    (⟨some name, fields, [fields]⟩ : ClassTy) ∉ ClassTy.builtins := by
  intro builtin
  simp only [ClassTy.builtins, List.mem_cons, List.not_mem_nil, or_false] at builtin
  rcases builtin with h | h | h | h | h | h <;> cases h

section Step

variable {evaluator : Evaluator} (coherent : declared.Coherent)
  (hosts : interpreter.natives = Native.standard)
  (ih : ∀ node env r, Typed declared r node →
    Safe declared r (·.Fits declared node.type) (evaluator node env))

include ih

theorem safe_sequence {body : List Node} (typed : ∀ node ∈ body, Typed declared r node)
    (env : Location) :
    Safe declared r
      (fun value => value.Sound declared ∧
        ∀ type, Node.valueType? body = some type → value.Fits declared type)
      (sequence evaluator env .unit body) := by
  refine (expectation_fits.sequence (fun _ heap => heap.Sound declared) ?_).mono
    fun _ _ held => ⟨⟨held.1.1.sound, held.1.2⟩, held.2⟩
  exact fun node rest there => ih node env r (typed node (there.subset List.mem_cons_self))

theorem safe_testCondition {condition : Node} (typed : Typed declared r condition)
    (boolean : condition.type = .boolean) (env : Location) :
    Safe declared r (fun _ => True) (testCondition evaluator condition env) := by
  refine (ih condition env r typed).bind fun value fits => Triple.onLine ?_
  exact Safe.truth (boolean ▸ fits)

theorem safe_body {type : FnTy} {body : List Node} (sound : type.Sound declared body)
    {arguments : Arguments} (fitting : Safe.FitParameters declared type.parameters arguments)
    {function : String} {line : Line} (scope : Location) :
    Safe declared r (·.Fits declared type.result) (do
      bindArguments scope arguments
      catchReturn function line scope (runBody evaluator scope body)) := by
  -- from here on a return answers to the result of this function, not to that of the caller
  refine (Safe.bindArguments sound.parameters fitting).bind fun _ _ => Safe.catchReturn ?_
  refine (Triple.runBody (fun _ heap => heap.Sound declared) ?_).mono fun _ _ held => ⟨trivial, held⟩
  intro node rest there
  exact Triple.mono (ih node scope _ (sound.body node (there.subset List.mem_cons_self)))
    fun _ _ held => held.2

include coherent hosts

theorem safe_invokeWith {callable : Callable} (sound : callable.Sound declared)
    {arguments : Arguments}
    (fitting : Safe.FitParameters declared callable.type.parameters arguments) (site : Node)
    (env : Location) :
    Safe declared r (·.Fits declared callable.type.result)
      (interpreter.invokeWith evaluator callable site arguments env) := by
  cases callable with
  | function header body => exact Safe.inScope fun scope => safe_body ih sound fitting scope
  | closure header body captured =>
    exact Safe.inScope fun scope => safe_body ih sound fitting scope
  | native header =>
    exact Safe.inScope fun scope =>
      Safe.catchReturn (safe_callNative hosts (coherent.hosts sound) _ site arguments scope)
  | constructor header =>
    obtain ⟨made, result⟩ := sound
    refine Safe.inScope fun scope => Safe.catchReturn (Triple.returned fun _ heapSound => ?_)
    rw [made]
    refine ⟨⟨rfl, fun type same => ?_⟩, heapSound⟩
    rw [← Option.some.inj same]
    exact result ▸ Value.fits_string _

omit hosts in
theorem safe_evaluateCallee {callee : Node} (typed : Typed declared r callee) (env : Location) :
    Safe declared r (·.Fits declared callee.type) (evaluateCallee evaluator callee env) := by
  rw [evaluateCallee.eq_def]
  split
  · cases typed with
    | readFunction known =>
      refine (Safe.lookupFunction known).bind fun callable held => Safe.pure ?_
      exact ⟨held.1, .inr (held.2 ▸ Ty.accepts_refl _)⟩
  · cases typed with
    | readVariable known => exact Safe.lookup coherent known
  · exact ih callee env r typed

omit coherent hosts in
theorem safe_evaluateArguments {arguments : List (String × Node)}
    (typed : ∀ argument ∈ arguments, Typed declared r argument.2) (env : Location) :
    Safe declared r
      (fun values => List.Forall₂
        (fun argument value => argument.1 = value.1 ∧ value.2.Fits declared argument.2.type)
        arguments values)
      (evaluateArguments evaluator env arguments) := by
  refine Triple.evaluateArguments (fun _ heap => heap.Sound declared)
    (fun node value => value.Fits declared node.type) ?_
  intro name node rest there
  exact ih node env r (typed (name, node) (there.subset List.mem_cons_self))

theorem safe_evaluateCall {callee : Node} {arguments : List (String × Node)}
    {type : FnTy} (calleeTyped : Typed declared r callee) (isFunction : callee.type = .fn type)
    (argumentsTyped : ∀ argument ∈ arguments, Typed declared r argument.2)
    (keyed : arguments.map Prod.fst = Parameters.names type.parameters)
    (accepted : List.Forall₂ (fun parameter argument =>
      parameter.2.accepts argument.2.type = true) type.parameters arguments)
    (site : Node) (env : Location) :
    Safe declared r (·.Fits declared type.result)
      (interpreter.evaluateCall evaluator site callee arguments env) := by
  refine (safe_evaluateCallee coherent ih calleeTyped env).bind fun target fits => ?_
  refine Triple.holding ((safe_evaluateArguments ih argumentsTyped env).bind fun values fitting => ?_)
  -- the target has the very type of the callee, so its own parameters have the keys of the call
  rw [isFunction] at fits
  obtain ⟨callable, rfl, sound, rfl⟩ := fits.isCallable
  have bound := expectation_fits.parameters keyed accepted fitting
  exact Triple.holding (safe_invokeWith coherent hosts ih sound bound site env)

theorem safe_step (rounds : Nat) {node : Node} (typed : Typed declared r node) (env : Location) :
    Safe declared r (·.Fits declared node.type) (interpreter.step rounds evaluator node env) := by
  cases typed with
  | literal => exact Safe.pure Value.fits_ofLiteral
  | this known =>
    rcases known with any | known
    · exact Safe.lookup_any.mono fun value fits =>
        ⟨fits.sound, .inr (Ty.accepts_iff.mpr (.inl any))⟩
    · exact Safe.lookup coherent known
  | readVariable known => exact Safe.lookup coherent known
  | readFunction known =>
    refine (Safe.lookupFunction known).bind fun callable held => Safe.pure ?_
    exact ⟨held.1, .inr (held.2 ▸ Ty.accepts_refl _)⟩
  | get _ _ known field => exact absurd field (no_fields coherent known)
  | set _ _ known field => exact absurd field (no_fields coherent known)
  | call calleeTyped isFunction argumentsTyped keyed _ accepted =>
    exact safe_evaluateCall coherent hosts ih calleeTyped isFunction argumentsTyped keyed accepted _
      env
  | negation rightTyped number =>
    exact (ih _ env r rightTyped).bind fun value fits => Safe.check (Value.negation_fits fits number)
  | complement rightTyped boolean =>
    refine (ih _ env r rightTyped).bind fun value fits => Safe.check ?_
    exact Value.complement_fits (boolean ▸ fits)
  | arithmetic leftTyped rightTyped arithmetic leftNumber rightNumber =>
    refine (ih _ env r leftTyped).bind fun first firstFits => ?_
    refine Safe.bind (Triple.holding (ih _ env r rightTyped)) fun second secondFits => ?_
    obtain ⟨x, isX⟩ := firstFits.asNumber leftNumber
    obtain ⟨y, isY⟩ := secondFits.asNumber rightNumber
    exact Safe.check (Value.arithmetic_fits arithmetic isX isY)
  | concatenation leftTyped rightTyped text =>
    refine (ih _ env r leftTyped).bind fun first firstFits => ?_
    refine Safe.bind (Triple.holding (ih _ env r rightTyped)) fun second _ => ?_
    obtain ⟨text, rfl⟩ := (text ▸ firstFits).isString
    exact Safe.check Value.concatenation_fits
  | comparison leftTyped rightTyped comparison leftNumber rightNumber =>
    refine (ih _ env r leftTyped).bind fun first firstFits => ?_
    refine Safe.bind (Triple.holding (ih _ env r rightTyped)) fun second secondFits => ?_
    obtain ⟨x, isX⟩ := firstFits.asNumber leftNumber
    obtain ⟨y, isY⟩ := secondFits.asNumber rightNumber
    exact Safe.check (Value.comparison_fits comparison isX isY)
  | equality leftTyped rightTyped equality comparable =>
    refine (ih _ env r leftTyped).bind fun first _ => ?_
    refine Safe.bind (Triple.holding (ih _ env r rightTyped)) fun second _ => ?_
    exact Safe.check (Value.equality_fits equality)
  | logical leftTyped rightTyped leftBoolean rightBoolean =>
    refine (ih _ env r leftTyped).bind fun first fits => ?_
    refine (Safe.truth (leftBoolean ▸ fits)).bind fun decided _ => ?_
    split
    · exact Safe.pure (Value.fits_boolean _)
    · refine (ih _ env r rightTyped).bind fun second fits => ?_
      exact (Safe.truth (rightBoolean ▸ fits)).bind fun result _ =>
        Safe.pure (Value.fits_boolean _)
  | bind valueTyped known accepted =>
    refine (ih _ env r valueTyped).bind fun value fits => ?_
    exact (Safe.declare known (fits.of_accepts accepted)).bind fun _ _ =>
      Safe.pure (fits.of_accepts accepted)
  | assign valueTyped known accepted =>
    refine (ih _ env r valueTyped).bind fun value fits => ?_
    exact (Safe.assign known (fits.of_accepts accepted)).bind fun _ _ =>
      Safe.pure (fits.of_accepts accepted)
  | returns valueTyped accepted =>
    refine (ih _ env r valueTyped).bind fun value fits => Triple.returned fun _ sound => ?_
    exact ⟨⟨fits.sound, fun type same => fits.of_accepts (accepted type same)⟩, sound⟩
  | block bodyTyped =>
    exact Safe.inScope fun scope => (safe_sequence ih bodyTyped scope).mono
      fun value held => held.1.fits_unit
  | loop conditionTyped boolean bodyTyped =>
    refine Triple.runLoop (·.Sound declared) (·.Sound declared) rounds ?_ ?_ fun _ sound => sound
    · refine Triple.mono (safe_testCondition ih conditionTyped boolean env) fun chosen heap held => ?_
      cases chosen with
      | true => exact held.2
      | false => exact ⟨⟨trivial, .inl rfl⟩, held.2⟩
    · intro heap sound
      refine (Triple.mono (safe_sequence ih bodyTyped heap.next) fun _ _ held => held.2).weaken ?_
      rintro _ rfl
      exact sound.add Store.Frame.sound_create
  | branch conditionTyped boolean trueTyped falseTyped value =>
    refine (safe_testCondition ih conditionTyped boolean env).bind fun chosen _ => ?_
    refine Safe.inScope fun scope => ?_
    cases chosen with
    | true =>
      exact (safe_sequence ih trueTyped scope).mono fun _ held =>
        expectation_fits.branch value held.1.fits_any (.inl held.2)
    | false =>
      exact (safe_sequence ih falseTyped scope).mono fun _ held =>
        expectation_fits.branch value held.1.fits_any (.inr held.2)
  | function named known parameters bodyTyped _ =>
    have sound : Callable.Sound declared (.function _ _) := ⟨parameters, bodyTyped⟩
    exact (Safe.declareFunction coherent known sound rfl).bind fun _ _ =>
      Safe.pure ⟨sound, .inr (Ty.accepts_refl _)⟩
  | anonymous parameters bodyTyped _ =>
    exact Safe.pure ⟨⟨parameters, bodyTyped⟩, .inr (Ty.accepts_refl _)⟩
  | native named known host =>
    have sound : Callable.Sound declared (.native _) := host
    exact (Safe.declareFunction coherent known sound rfl).bind fun _ _ =>
      Safe.pure ⟨sound, .inr (Ty.accepts_refl _)⟩
  | record known => exact absurd (coherent.classes known) record_not_builtin
  | openModule =>
    exact Safe.openModule.bind fun _ _ => Safe.pure ⟨trivial, .inl rfl⟩
  | useModule =>
    exact Safe.openedModule.bind fun module _ => Safe.expand.bind fun _ _ =>
      Safe.pure ⟨trivial, .inl rfl⟩

end Step

theorem evaluate_fits (coherent : declared.Coherent) (hosts : interpreter.natives = Native.standard)
    (fuel : Nat) (node : Node) (env : Location) (r : Option Ty) (typed : Typed declared r node) :
    Safe declared r (·.Fits declared node.type) (interpreter.evaluate fuel node env) := by
  induction fuel generalizing node env r with
  | zero => exact Triple.exhausted fun _ sound => sound
  | succ fuel ih => exact Triple.located (safe_step coherent hosts ih fuel typed env)

/-- Each value of a unit fits the type of its node. -/
theorem evaluateUnit_fits (coherent : declared.Coherent)
    (hosts : interpreter.natives = Native.standard) (fuel : Nat) {unit : List Node}
    (typed : ∀ node ∈ unit, Typed declared none node) :
    Safe declared none
      (List.Forall₂ (fun node value => value.Fits declared node.type) unit)
      (interpreter.evaluateUnit fuel unit) := by
  refine Triple.mono (Triple.evaluateFrom (fun _ _ heap => heap.Sound declared)
    (fun node value => value.Fits declared node.type) ?_ ?_ _)
    fun values heap held => ⟨held.1, held.2.elim fun _ sound => sound⟩
  · intro target node rest there _
    have safe := evaluate_fits coherent hosts fuel node target none
      (typed node (there.subset List.mem_cons_self))
    refine Triple.uncaught (Triple.consequence safe (fun _ sound => sound) (fun _ _ held => held)
      ⟨?_, fun _ _ held => held, fun _ held => held⟩)
    exact fun _ _ held => ⟨nofun, held.2⟩
  · intro target tag name rest there
    refine Triple.mono Safe.openModule fun _ _ held => ⟨?_, held.2⟩
    cases typed _ (there.subset List.mem_cons_self)
    exact ⟨trivial, .inl rfl⟩

end Interpreter

end ScriptCore
