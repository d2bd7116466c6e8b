import ScriptCore.Proofs.Eval.Triple

/-!
# Watched evaluation

Evaluation does not look at the types that lowering has resolved names to. Watched evaluation does:
it evaluates like `evaluate`, but before a node reads a variable it checks that the value is of the
type that the node has for it. So it does what evaluation does, or it ends with a mismatch
(`checks_evaluate`).
-/
namespace ScriptCore

/-- The faults of a value that is not of the type it should have. -/
def Fault.IsMismatch : Fault → Prop
  | .invalidType _ _ | .invalidOperands _ _ _ => True
  | _ => False

/-- The variable that a node itself reads, and the type that the node has for it. A call looks its
callee up by name. -/
def Node.reads? : Node → Option (String × Ty)
  | readVariable tag name | call _ (readVariable tag name) _ => some (name, tag.type)
  | _ => none

/-- Whether a value is of a type, where every value will do for `Unit`. -/
def Value.expect (type : Ty) (value : Value) : Except Fault Unit :=
  if type = .unit || type.accepts value.type then .ok ()
  else .error (.invalidType type.render value.type.render)

namespace Eval

def expectVariable (env : Location) (name : String) (type : Ty) : Eval Unit := do
  let value ← lookup env name
  ask fun _ => value.expect type

/-- Check the variable that a node is about to read. -/
def watch (node : Node) (env : Location) : Eval Unit :=
  match node.reads? with
  | some (name, type) => expectVariable env name type
  | none => return ()

end Eval

namespace Interpreter

/-- The value of a node, with a check of every variable that is read on the way. -/
def evaluateWatched (interpreter : Interpreter) : (fuel : Nat) → Node → Location → Eval Value
  | 0, _, _ => Attempt.fail .exhausted
  | fuel + 1, node, env =>
    Eval.located node.line env do
      Eval.watch node env
      interpreter.step fuel (evaluateWatched interpreter fuel) node env

/-- The nodes of a unit without modules one after the other, over any evaluator. -/
def evaluateEach (evaluator : Eval.Evaluator) (target : Location) : List Node → Eval (List Value)
  | [] => return []
  | node :: rest => do
    let value ← Eval.uncaught node.line (evaluator node target)
    let values ← Eval.holding value.kept (evaluateEach evaluator target rest)
    return value :: values

theorem evaluateFrom_eq {interpreter : Interpreter} {fuel : Nat} {target : Location}
    {unit : List Node} (plain : ∀ node ∈ unit, ∀ tag name, node ≠ .openModule tag name) :
    interpreter.evaluateFrom fuel target unit =
      evaluateEach (interpreter.evaluate fuel) target unit := by
  induction unit with
  | nil => rw [evaluateFrom, evaluateEach]
  | cons node rest ih =>
    obtain ⟨head, tail⟩ := List.forall_mem_cons.mp plain
    rw [evaluateFrom, evaluateEach, ih tail]
    exact head

end Interpreter

namespace Eval

variable {α β : Type} {step step' : Eval α}

/-- The first step does what the second one does, or it ends with a mismatch. -/
def Checks (step step' : Eval α) : Prop :=
  ∀ m, step m = step' m ∨ ∃ e m', step m = (.error (.failed e), m') ∧ e.fault.IsMismatch

namespace Checks

theorem refl (step : Eval α) : Checks step step := fun _ => .inl rfl

theorem trans {step'' : Eval α} (first : Checks step step') (second : Checks step' step'') :
    Checks step step'' := by
  intro m
  rcases first m with same | mismatch
  · rw [same]
    exact second m
  · exact .inr mismatch

theorem bind {next next' : α → Eval β} (first : Checks step step')
    (second : ∀ a, Checks (next a) (next' a)) : Checks (step >>= next) (step' >>= next') := by
  intro m
  rcases first m with same | ⟨e, m', ran, mismatch⟩
  · rw [Attempt.bind_run, Attempt.bind_run, same]
    cases step' m with
    | mk result m' =>
      cases result with
      | ok a => exact second a m'
      | error stop => exact .inl rfl
  · refine .inr ⟨e, m', ?_, mismatch⟩
    rw [Attempt.bind_run, ran]

section Wraps

variable {line : Line} {env : Location}

theorem holding {kept : List Location} (checks : Checks step step') :
    Checks (Eval.holding kept step) (Eval.holding kept step') := by
  intro m
  obtain ⟨⟨frames, modules, held⟩, output, stamp⟩ := m
  rcases checks ⟨⟨frames, modules, kept ++ held⟩, output, stamp⟩ with
    same | ⟨e, m', ran, mismatch⟩
  · exact .inl (by rw [Eval.holding, Eval.holding, same])
  · exact .inr ⟨e, _, by rw [Eval.holding, ran], mismatch⟩

theorem located (checks : Checks step step') :
    Checks (Eval.located line env step) (Eval.located line env step') := by
  intro m
  rcases checks m with same | ⟨e, m', ran, mismatch⟩
  · exact .inl (by rw [Eval.located, Eval.located, same])
  · refine .inr ⟨_, m', by rw [Eval.located, ran], ?_⟩
    rwa [EvalError.fault_located]

theorem uncaught (checks : Checks step step') :
    Checks (Eval.uncaught line step) (Eval.uncaught line step') := by
  intro m
  rcases checks m with same | ⟨e, m', ran, mismatch⟩
  · exact .inl (by rw [Eval.uncaught, Eval.uncaught, same])
  · exact .inr ⟨e.atLine line, m', by rw [Eval.uncaught, ran], mismatch⟩

theorem catchReturn {function : String} {body body' : Eval Unit} (checks : Checks body body') :
    Checks (Eval.catchReturn function line env body)
      (Eval.catchReturn function line env body') := by
  intro m
  rcases checks m with same | ⟨e, m', ran, mismatch⟩
  · exact .inl (by rw [Eval.catchReturn, Eval.catchReturn, same])
  · exact .inr ⟨e, m', by rw [Eval.catchReturn, ran], mismatch⟩

theorem inScope {site : CallSite} {work work' : Location → Eval α}
    (checks : ∀ scope, Checks (work scope) (work' scope)) :
    Checks (Eval.inScope env site work) (Eval.inScope env site work') :=
  (refl _).bind fun scope => (checks scope).holding

end Wraps

section Walks

variable {evaluator evaluator' : Evaluator} {env : Location}
  (checks : ∀ node env, Checks (evaluator node env) (evaluator' node env))

include checks

theorem sequence (body : List Node) (last : Value) :
    Checks (Eval.sequence evaluator env last body) (Eval.sequence evaluator' env last body) := by
  induction body generalizing last with
  | nil => exact refl _
  | cons node rest ih => exact (checks node env).holding.bind fun value => ih value

theorem runBody (body : List Node) :
    Checks (Eval.runBody evaluator env body) (Eval.runBody evaluator' env body) := by
  induction body with
  | nil => exact refl _
  | cons node rest ih => exact (checks node env).bind fun _ => ih

theorem evaluateArguments (arguments : List (String × Node)) :
    Checks (Eval.evaluateArguments evaluator env arguments)
      (Eval.evaluateArguments evaluator' env arguments) := by
  induction arguments with
  | nil => exact refl _
  | cons argument rest ih =>
    exact (checks argument.2 env).bind fun _ => ih.holding.bind fun _ => refl _

theorem testCondition (condition : Node) :
    Checks (Eval.testCondition evaluator condition env)
      (Eval.testCondition evaluator' condition env) :=
  (checks condition env).bind fun _ => refl _

theorem runLoop (line : Line) (condition : Node) (body : List Node) (rounds : Nat) :
    Checks (Eval.runLoop evaluator line condition body env rounds)
      (Eval.runLoop evaluator' line condition body env rounds) := by
  induction rounds with
  | zero => exact refl _
  | succ rounds ih =>
    apply (testCondition checks condition).bind
    intro chosen
    cases chosen with
    | true => exact (inScope fun scope => sequence checks body .unit).bind fun _ => ih
    | false => exact refl _

end Walks

end Checks

end Eval

namespace Interpreter

open Eval

variable {interpreter : Interpreter} {evaluator evaluator' : Evaluator}

section Step

variable (checks : ∀ node env, Checks (evaluator node env) (evaluator' node env))

include checks

theorem checks_invokeWith (callable : Callable) (site : Node) (arguments : Arguments)
    (env : Location) :
    Checks (interpreter.invokeWith evaluator callable site arguments env)
      (interpreter.invokeWith evaluator' callable site arguments env) := by
  cases callable with
  | function header body | closure header body captured =>
    apply Checks.inScope
    intro scope
    apply (Checks.refl _).bind
    intro _
    exact (Checks.runBody checks body).catchReturn
  | native | constructor => exact Checks.refl _

theorem checks_evaluateCall (site callee : Node) (arguments : List (String × Node))
    (env : Location) :
    Checks (interpreter.evaluateCall evaluator site callee arguments env)
      (interpreter.evaluateCall evaluator' site callee arguments env) := by
  have target : Checks (evaluateCallee evaluator callee env)
      (evaluateCallee evaluator' callee env) := by
    rw [evaluateCallee.eq_def, evaluateCallee.eq_def]
    split
    · exact Checks.refl _
    · exact Checks.refl _
    · exact checks callee env
  apply target.bind
  intro value
  apply Checks.holding
  apply (Checks.evaluateArguments checks arguments).bind
  intro values
  split
  · exact (checks_invokeWith checks _ site values env).holding
  · exact Checks.refl _

/-- A step over an evaluator that checks more checks more itself. -/
theorem checks_step (rounds : Nat) (node : Node) (env : Location) :
    Checks (interpreter.step rounds evaluator node env)
      (interpreter.step rounds evaluator' node env) := by
  cases node with
  | call tag callee arguments => exact checks_evaluateCall checks _ callee arguments env
  | unary _ _ value | bind _ _ _ value | assign _ _ value | returns _ value =>
    exact (checks value env).bind fun _ => Checks.refl _
  | binary _ _ left right =>
    apply (checks left env).bind
    intro _
    apply (checks right env).holding.bind
    intro _
    exact Checks.refl _
  | logical _ op left right =>
    apply (checks left env).bind
    intro _
    apply (Checks.refl _).bind
    intro decided
    split
    · exact Checks.refl _
    · exact (checks right env).bind fun _ => Checks.refl _
  | block _ body => exact Checks.inScope fun scope => Checks.sequence checks body .unit
  | loop _ condition body => exact Checks.runLoop checks _ condition body rounds
  | branch _ condition whenTrue whenFalse =>
    apply (Checks.testCondition checks condition).bind
    intro chosen
    exact Checks.inScope fun scope => Checks.sequence checks _ .unit
  | _ => exact Checks.refl _

end Step

/-- A check of a variable makes no difference to a step that reads the variable first. -/
theorem checks_lookup {α : Type} {env : Location} {name : String} {type : Ty}
    (next : Value → Eval α) :
    Checks (do
        Eval.expectVariable env name type
        let value ← Eval.lookup env name
        next value)
      (Eval.lookup env name >>= next) := by
  rw [Eval.expectVariable, bind_assoc]
  intro m
  cases found : m.store.lookup env name with
  | error fault =>
    have ran : Eval.lookup env name m = (.error (.failed (.ofFault fault)), m) := by
      rw [Eval.lookup, Eval.ask, found]
    exact .inl (by rw [Attempt.bind_error ran, Attempt.bind_error ran])
  | ok value =>
    have ran : Eval.lookup env name m = (.ok value, m) := by rw [Eval.lookup, Eval.ask, found]
    rw [Attempt.bind_ok ran, Attempt.bind_ok ran]
    cases expected : value.expect type with
    | ok =>
      have checked : (Eval.ask fun _ => (.ok () : Except Fault Unit)) m = (.ok (), m) := rfl
      exact .inl (by rw [Attempt.bind_ok checked, Attempt.bind_ok ran])
    | error fault =>
      refine .inr ⟨.ofFault fault, m, rfl, ?_⟩
      rw [Value.expect] at expected
      split at expected
      · cases expected
      · cases expected
        trivial

theorem checks_watch (rounds : Nat) (node : Node) (env : Location) :
    Checks (do
        Eval.watch node env
        interpreter.step rounds evaluator node env)
      (interpreter.step rounds evaluator node env) := by
  cases reads : node.reads? with
  | none =>
    rw [Eval.watch, reads]
    exact Checks.refl _
  | some read =>
    rw [Eval.watch, reads]
    unfold Node.reads? at reads
    split at reads
    · cases reads
      rw [step, ← bind_pure (Eval.lookup env _)]
      exact checks_lookup pure
    · cases reads
      exact checks_lookup _
    · cases reads

/-- Watched evaluation does what evaluation does, or it ends with a mismatch. -/
theorem checks_evaluate (fuel : Nat) (node : Node) (env : Location) :
    Checks (interpreter.evaluateWatched fuel node env) (interpreter.evaluate fuel node env) := by
  induction fuel generalizing node env with
  | zero => exact Checks.refl _
  | succ fuel ih =>
    refine Checks.located (Checks.trans ?_ (checks_watch fuel node env))
    exact (Checks.refl _).bind fun _ => checks_step ih fuel node env

theorem checks_evaluateEach (checks : ∀ node env, Checks (evaluator node env) (evaluator' node env))
    (target : Location) (unit : List Node) :
    Checks (evaluateEach evaluator target unit) (evaluateEach evaluator' target unit) := by
  induction unit with
  | nil => exact Checks.refl _
  | cons node rest ih =>
    exact (checks node target).uncaught.bind fun _ => ih.holding.bind fun _ => Checks.refl _

end Interpreter

end ScriptCore
