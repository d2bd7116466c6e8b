import ScriptCore.Proofs.Attempt
import ScriptCore.Proofs.Eval.Return
import ScriptCore.Proofs.Node.Layers
import ScriptCore.Proofs.Store.Rehung

/-!
# Closed functions

A named function runs in a scope inside that of its caller, and could see the variables there. The
body of a closed function uses only variables that it has been given or has declared before, so it
finds each of them on the way outwards to the scope of its invocation. It takes the same course
from every caller (`closed_functions_do_not_see_their_caller`).
-/
namespace ScriptCore

namespace Node

mutual

/-- Whether a node calls and declares no functions, uses no modules and no records, and reads and
assigns only variables that are among `names`, or have been declared before in the bodies around. -/
def isClosed (names : List String) : Node → Bool
  | literal _ _ => true
  | this _ => names.contains "this"
  | readVariable _ name => names.contains name
  | assign _ name value => names.contains name && isClosed names value
  | get _ value _ | unary _ _ value | bind _ _ _ value | returns _ value => isClosed names value
  | set _ left _ right | binary _ _ left right | logical _ _ left right =>
    isClosed names left && isClosed names right
  | block _ body => bodyClosed names body
  | loop _ condition body => isClosed names condition && bodyClosed names body
  | branch _ condition whenTrue whenFalse =>
    isClosed names condition && bodyClosed names whenTrue && bodyClosed names whenFalse
  | readFunction _ _ | call _ _ _ | function _ _ _ | native _ _ | anonymous _ _ _ | record _ _
  | openModule _ _ | useModule _ _ => false

/-- The same of the nodes of a body, each of which may use what those before it declare. -/
def bodyClosed (names : List String) : List Node → Bool
  | [] => true
  | node :: rest =>
    isClosed names node && bodyClosed (Parameters.names (binds node) ++ names) rest

end

end Node

/-- Stops that differ in the call sites of an error at most. -/
def Stop.Alike : Stop → Stop → Prop
  | .returned value, .returned value' => value = value'
  | .failed e, .failed e' => e.fault = e'.fault ∧ e.line = e'.line
  | .exhausted, .exhausted => True
  | _, _ => False

theorem EvalError.line_withBacktrace (e : EvalError) (sites : Backtrace) :
    (e.withBacktrace sites).line = e.line := by
  rw [withBacktrace]
  split <;> rfl

def Machine.rehang (m : Machine) (base outer : Location) : Machine :=
  { m with store := m.store.rehang base outer }

/-- A scope of the store inside of `base`, from which these names are bound there. -/
structure Store.Within (base : Location) (names : List String) (env : Location) (store : Store) :
    Prop where
  inside : base ≤ env
  there : env < store.next
  bound : ∀ name ∈ names, store.BoundWithin base name env

namespace Store.Within

variable {base env : Location} {names fewer : List String} {store new : Store}

theorem continues (within : store.Within base names env) (later : store.Continues base new) :
    new.Within base names env :=
  ⟨within.inside, Nat.lt_of_lt_of_le within.there later.next,
    fun name mem => (within.bound name mem).continues later⟩

theorem mono (within : store.Within base names env) (subset : fewer ⊆ names) :
    store.Within base fewer env :=
  ⟨within.inside, within.there, fun name mem => within.bound name (subset mem)⟩

/-- What is bound on the way to a scope is bound on the way to a new one in it. -/
theorem child (within : store.Within base names env) {site : Option CallSite} :
    (store.add (.create (some env) site)).Within base names store.next := by
  have inside : base ≤ store.next := within.inside.trans within.there.le
  refine ⟨inside, by simp [next_add], fun name mem => ?_⟩
  have outside := (within.bound name mem).continues
    (Continues.add inside (.create (some env) site))
  have around : ((store.add (.create (some env) site)).frame store.next).enclosing = some env := by
    rw [frame_add_next]
    rfl
  exact .outward (Nat.lt_of_le_of_lt within.inside within.there) around within.there outside

theorem declare (within : store.Within base names env) {name : String} {binding : Binding} :
    (store.setVariable env name binding).Within base (name :: names) env := by
  have later : store.Continues base (store.setVariable env name binding) :=
    .setVariable within.inside
  have bound : (store.setVariable env name binding).contains env name = true := by
    rw [contains, frame_setVariable within.there, if_pos rfl]
    simp [Table.contains]
  have others := within.continues later
  refine ⟨others.inside, others.there, fun other mem => ?_⟩
  rcases List.mem_cons.mp mem with rfl | mem
  · exact .here within.inside bound
  · exact others.bound other mem

end Store.Within

namespace Eval

variable {α β : Type} {base outer env : Location} {names between names' : List String}

/-- The ends of a step from a machine and from the one that has `base` inside `outer`: the same
result or an alike stop, and the same machine but for the place of `base`. -/
inductive SameCourse (base outer : Location) (m : Machine) (after : Store → Prop) :
    Except Stop α × Machine → Except Stop α × Machine → Prop
  | ok {a : α} {m' : Machine} (continues : m.store.Continues base m'.store)
      (holds : after m'.store) :
      SameCourse base outer m after (.ok a, m') (.ok a, m'.rehang base outer)
  | error {stop stop' : Stop} {m' : Machine} (continues : m.store.Continues base m'.store)
      (alike : stop.Alike stop') :
      SameCourse base outer m after (.error stop, m') (.error stop', m'.rehang base outer)

/-- From a scope in which these names are bound inside of `base`, a step takes the same course
whatever is around `base`. If it does not stop, more names may be bound then. -/
def Sealed (base outer : Location) (names : List String) (env : Location) (step : Eval α)
    (names' : List String) : Prop :=
  ∀ m : Machine, m.store.Within base names env →
    SameCourse base outer m (Store.Within base names' env) (step m) (step (m.rehang base outer))

namespace SameCourse

variable {m m₁ : Machine} {after after' : Store → Prop} {run run' : Except Stop α × Machine}

/-- What follows a step that has come from `m` to `m₁`. -/
theorem extend (course : SameCourse base outer m₁ after run run')
    (continues : m.store.Continues base m₁.store) : SameCourse base outer m after run run' := by
  cases course with
  | ok later holds => exact .ok (continues.trans later) holds
  | error later alike => exact .error (continues.trans later) alike

theorem mono (course : SameCourse base outer m after run run')
    (weaker : ∀ store, m.store.Continues base store → after store → after' store) :
    SameCourse base outer m after' run run' := by
  cases course with
  | ok later holds => exact .ok later (weaker _ later holds)
  | error later alike => exact .error later alike

end SameCourse

namespace Sealed

variable {step : Eval α}

theorem mono (closed : Sealed base outer names env step between) (subset : names' ⊆ between) :
    Sealed base outer names env step names' :=
  fun m within => (closed m within).mono fun _ _ holds => holds.mono subset

theorem weaken (closed : Sealed base outer names env step names') (subset : names ⊆ between) :
    Sealed base outer between env step names' :=
  fun m within => closed m (within.mono subset)

section Steps

theorem pure (a : α) : Sealed base outer names env (Pure.pure a) names :=
  fun _ within => .ok .refl within

theorem fail {stop : Stop} (alike : stop.Alike stop) :
    Sealed base outer names env (Attempt.fail stop : Eval α) names' :=
  fun _ _ => .error .refl alike

theorem fault (fault : Fault) :
    Sealed base outer names env (Eval.fault fault : Eval α) names' := fail ⟨rfl, rfl⟩

theorem bind {next : α → Eval β} (first : Sealed base outer names env step between)
    (second : ∀ a, Sealed base outer between env (next a) names') :
    Sealed base outer names env (step >>= next) names' := by
  intro m within
  have course := first m within
  rw [Attempt.bind_run, Attempt.bind_run]
  generalize step m = run at course ⊢
  generalize step (m.rehang base outer) = run' at course ⊢
  cases course with
  | ok continues holds => exact (second _ _ holds).extend continues
  | error continues alike => exact .error continues alike

theorem check (result : Except Fault α) :
    Sealed base outer names env (Eval.ask fun _ => result) names := by
  intro m within
  cases result with
  | ok a => exact .ok .refl within
  | error f => exact .error .refl ⟨rfl, rfl⟩

theorem lookup {name : String} (mem : name ∈ names) :
    Sealed base outer names env (Eval.lookup env name) names := by
  intro m within
  obtain ⟨value, found, found'⟩ := (within.bound name mem).lookup_rehang outer
  have ran : Eval.lookup env name m = (.ok value, m) := by rw [Eval.lookup, Eval.ask, found]
  have ran' : Eval.lookup env name (m.rehang base outer) = (.ok value, m.rehang base outer) := by
    rw [Eval.lookup, Eval.ask, Machine.rehang, found']
  rw [ran, ran']
  exact .ok .refl within

theorem declare {name : String} (value : Value) (mutability : Mutability) :
    Sealed base outer names env (Eval.declare env name value mutability) (name :: names) := by
  intro ⟨store, output, stamp⟩ within
  have taken : (store.rehang base outer).contains env name = store.contains env name :=
    Store.contains_rehang
  simp only [Eval.declare, onStore, Store.declare, Machine.rehang, taken]
  by_cases bound : store.contains env name = true
  · rw [if_pos bound, if_pos bound]
    exact .error .refl ⟨rfl, rfl⟩
  · rw [if_neg bound, if_neg bound]
    simp only [← Store.setVariable_rehang]
    refine SameCourse.ok ?_ ?_
    · exact .setVariable within.inside
    · exact within.declare

theorem assign {name : String} (mem : name ∈ names) (value : Value) :
    Sealed base outer names env (Eval.assign env name value) names := by
  intro ⟨store, output, stamp⟩ within
  obtain ⟨holder, ⟨old, mutability⟩, inside, found, found'⟩ := (within.bound name mem).held outer
  simp only [Eval.assign, onStore, Store.assign, Machine.rehang, found, found']
  cases mutability with
  | immutable => exact .error .refl ⟨rfl, rfl⟩
  | mutable =>
    have later : store.Continues base (store.setVariable holder name ⟨value, .mutable⟩) :=
      .setVariable inside
    simp only [← Store.setVariable_rehang]
    refine SameCourse.ok ?_ ?_
    · exact later
    · exact within.continues later

theorem holding (closed : Sealed base outer names env step names') (kept : List Location) :
    Sealed base outer names env (Eval.holding kept step) names' := by
  intro m within
  have same (m : Machine) (held : List Location) :
      m.store.Continues base (m.holdingOnly held).store :=
    ⟨fun _ _ => rfl, fun _ _ => rfl, fun _ _ had => had, le_rfl⟩
  have course := (closed (m.holdingOnly (kept ++ m.store.held))
    (within.continues (same m _))).extend (same m _)
  rw [holding_run, holding_run]
  have rehung : (m.rehang base outer).holdingOnly (kept ++ (m.rehang base outer).store.held) =
      (m.holdingOnly (kept ++ m.store.held)).rehang base outer := rfl
  rw [rehung]
  generalize step (m.holdingOnly (kept ++ m.store.held)) = run at course ⊢
  generalize step ((m.holdingOnly (kept ++ m.store.held)).rehang base outer) = run' at course ⊢
  cases course with
  | @ok a m' continues holds =>
    refine SameCourse.ok ?_ ?_
    · exact continues.trans (same m' _)
    · exact holds.continues (same m' _)
  | @error stop stop' m' continues alike =>
    refine SameCourse.error ?_ alike
    exact continues.trans (same m' _)

/-- Work in a new scope leaves the names bound that were bound before. -/
theorem inScope {site : CallSite} {work : Location → Eval α}
    (closed : ∀ scope, Sealed base outer names scope (work scope) names') :
    Sealed base outer names env (Eval.inScope env site work) names := by
  intro m within
  have inside : base ≤ m.store.next := within.inside.trans within.there.le
  have rehung (frame : Store.Frame) :
      (m.store.add frame).rehang base outer = (m.store.rehang base outer).add frame :=
    Store.add_rehang (Nat.lt_of_le_of_lt within.inside within.there) frame
  have course := (closed m.store.next).holding [m.store.next]
    ⟨m.store.add (.create (some env) (some site)), m.output, m.nextStamp⟩ within.child
  have entered := course.extend (m := m) (Store.Continues.add inside _)
  simp only [Machine.rehang, rehung] at entered
  rw [Eval.inScope, Attempt.bind_run, Attempt.bind_run]
  simp only [Eval.child, Machine.rehang, Store.next_rehang]
  exact entered.mono fun _ later _ => within.continues later

end Steps

section Wraps

variable {line : Line}

theorem onLine (closed : Sealed base outer names env step names') :
    Sealed base outer names env (Eval.onLine line step) names' := by
  intro m within
  have course := closed m within
  rw [Eval.onLine, Eval.onLine]
  generalize step m = run at course ⊢
  generalize step (m.rehang base outer) = run' at course ⊢
  cases course with
  | ok continues holds => exact .ok continues holds
  | @error stop stop' _ continues alike =>
    cases stop <;> cases stop' <;> first | exact alike.elim | skip
    · exact .error continues alike
    · exact .error continues ⟨alike.1, congrArg (· <|> some line) alike.2⟩
    · exact .error continues alike

theorem located (closed : Sealed base outer names env step names') (around : Location) :
    Sealed base outer names env (Eval.located line around step) names' := by
  intro m within
  have course := closed m within
  rw [Eval.located, Eval.located]
  generalize step m = run at course ⊢
  generalize step (m.rehang base outer) = run' at course ⊢
  cases course with
  | ok continues holds => exact .ok continues holds
  | @error stop stop' _ continues alike =>
    cases stop <;> cases stop' <;> first | exact alike.elim | skip
    · exact .error continues alike
    · refine .error continues ⟨?_, ?_⟩
      · rw [EvalError.fault_located, EvalError.fault_located, alike.1]
      · rw [EvalError.line_withBacktrace, EvalError.line_withBacktrace]
        exact congrArg (· <|> some line) alike.2
    · exact .error continues alike

theorem catchReturn {body : Eval Unit} (closed : Sealed base outer names env body names')
    (function : String) (scope : Location) :
    Sealed base outer names env (Eval.catchReturn function line scope body) names := by
  intro m within
  have course := closed m within
  rw [Eval.catchReturn, Eval.catchReturn]
  generalize body m = run at course ⊢
  generalize body (m.rehang base outer) = run' at course ⊢
  cases course with
  | ok continues =>
    refine .error continues ⟨?_, ?_⟩
    · rw [EvalError.fault_located, EvalError.fault_located]
    · rw [EvalError.line_withBacktrace, EvalError.line_withBacktrace]
  | @error stop stop' m' continues alike =>
    cases stop <;> cases stop' <;> first | exact alike.elim | skip
    · obtain rfl := alike
      exact .ok continues (within.continues continues)
    · exact .error continues alike
    · exact .error continues alike

end Wraps

theorem bindArguments (arguments : Arguments) :
    Sealed base outer names env (Eval.bindArguments env arguments)
      (arguments.map Prod.fst ++ names) := by
  induction arguments generalizing names with
  | nil => exact pure ()
  | cons argument rest ih =>
    obtain ⟨name, value⟩ := argument
    refine ((declare value .immutable).bind fun _ => ih).mono ?_
    intro other mem
    simp only [List.map_cons, List.cons_append, List.mem_cons, List.mem_append] at mem ⊢
    tauto

section Walks

variable {evaluator : Evaluator}
  (ih : ∀ names node env, node.isClosed names = true →
    Sealed base outer names env (evaluator node env) (Parameters.names node.binds ++ names))

include ih

theorem operand {node : Node} (closed : node.isClosed names = true) :
    Sealed base outer names env (evaluator node env) names :=
  (ih names node env closed).mono (List.subset_append_right _ _)

theorem sequence {body : List Node} (closed : Node.bodyClosed names body = true) (last : Value) :
    Sealed base outer names env (Eval.sequence evaluator env last body) names := by
  induction body generalizing names last with
  | nil => exact pure last
  | cons node rest tail =>
    rw [Node.bodyClosed, Bool.and_eq_true] at closed
    refine ((ih names node env closed.1).holding last.kept).bind fun value => ?_
    exact (tail closed.2 value).mono (List.subset_append_right _ _)

theorem runBody {body : List Node} (closed : Node.bodyClosed names body = true) :
    Sealed base outer names env (Eval.runBody evaluator env body) names := by
  induction body generalizing names with
  | nil => exact pure ()
  | cons node rest tail =>
    rw [Node.bodyClosed, Bool.and_eq_true] at closed
    refine (ih names node env closed.1).bind fun _ => ?_
    exact (tail closed.2).mono (List.subset_append_right _ _)

theorem testCondition {condition : Node} (closed : condition.isClosed names = true) :
    Sealed base outer names env (Eval.testCondition evaluator condition env) names :=
  (operand ih closed).bind fun value => (check value.truth).onLine

theorem runLoop {line : Line} {condition : Node} {body : List Node}
    (test : condition.isClosed names = true) (bodies : Node.bodyClosed names body = true)
    (rounds : Nat) :
    Sealed base outer names env (Eval.runLoop evaluator line condition body env rounds) names := by
  induction rounds with
  | zero => exact fail trivial
  | succ rounds further =>
    refine (testCondition ih test).bind fun chosen => ?_
    cases chosen with
    | true => exact (inScope fun _ => sequence ih bodies .unit).bind fun _ => further
    | false => exact pure Value.unit

end Walks

end Sealed

end Eval

namespace Interpreter

open Eval

variable {interpreter : Interpreter} {base outer : Location}

/-- One step of a closed node, over closed nodes below it. -/
theorem sealed_step {evaluator : Evaluator}
    (ih : ∀ names node env, node.isClosed names = true →
      Sealed base outer names env (evaluator node env) (Parameters.names node.binds ++ names))
    (rounds : Nat) (names : List String) (node : Node) (env : Location)
    (closed : node.isClosed names = true) :
    Sealed base outer names env (interpreter.step rounds evaluator node env)
      (Parameters.names node.binds ++ names) := by
  cases node <;> simp only [Node.isClosed, Bool.and_eq_true, List.contains_iff_mem] at closed
  case literal => exact .pure _
  case this => exact .lookup closed
  case readVariable => exact .lookup closed
  case get => exact .fault _
  case set => exact .fault _
  case unary => exact (Sealed.operand ih closed).bind fun _ => .check _
  case binary =>
    refine (Sealed.operand ih closed.1).bind fun _ => ?_
    exact ((Sealed.operand ih closed.2).holding _).bind fun _ => .check _
  case logical op left right =>
    refine (Sealed.operand ih closed.1).bind fun value => ?_
    refine (Sealed.check value.truth).bind fun decided => ?_
    split
    · exact .pure _
    · refine (Sealed.operand ih closed.2).bind fun other => ?_
      exact (Sealed.check other.truth).bind fun _ => .pure _
  case bind tag mutability name value =>
    exact (Sealed.operand ih closed).bind fun result =>
      (Sealed.declare result mutability).bind fun _ => .pure result
  case assign =>
    exact (Sealed.operand ih closed.2).bind fun value =>
      (Sealed.assign closed.1 value).bind fun _ => .pure value
  case returns => exact (Sealed.operand ih closed).bind fun _ => .fail rfl
  case block => exact .inScope fun _ => .sequence ih closed _
  case loop => exact Sealed.runLoop ih closed.1 closed.2 rounds
  case branch =>
    refine (Sealed.testCondition ih closed.1.1).bind fun chosen => ?_
    cases chosen with
    | true => exact .inScope fun _ => .sequence ih closed.1.2 _
    | false => exact .inScope fun _ => .sequence ih closed.2 _
  all_goals cases closed

theorem sealed_evaluate (fuel : Nat) (names : List String) (node : Node) (env : Location)
    (closed : node.isClosed names = true) :
    Sealed base outer names env (interpreter.evaluate fuel node env)
      (Parameters.names node.binds ++ names) := by
  induction fuel generalizing names node env with
  | zero => exact .fail trivial
  | succ fuel ih => exact (sealed_step ih fuel names node env closed).located env

/-- The invocation of a closed function from two callers runs on stores that differ in what is
around its scope alone. -/
theorem sameCourse_invoke (interpreter : Interpreter) (fuel : Nat) {header : FunctionHeader}
    {body : List Node} (site : Node) {arguments : Arguments} (m : Machine) (env env' : Location)
    (closed : Node.bodyClosed (Parameters.names header.type.parameters) body = true)
    (given : Parameters.names header.type.parameters ⊆ arguments.map Prod.fst) :
    SameCourse m.store.next env' m (fun _ => True)
      (interpreter.invoke fuel (.function header body) site arguments env m)
      (interpreter.invoke fuel (.function header body) site arguments env' m) := by
  let created (around : Location) : Store.Frame :=
    .create (some around) (some ⟨"call " ++ header.name, site.line⟩)
  let entered (around : Location) : Machine :=
    ⟨m.store.add (created around), m.output, m.nextStamp⟩
  have rehung : (entered env).rehang m.store.next env' = entered env' := by
    simp only [entered, created, Machine.rehang, Store.add_create_rehang]
  have within : (entered env).store.Within m.store.next [] m.store.next :=
    ⟨le_rfl, by simp [entered, Store.next_add], nofun⟩
  have run : Sealed m.store.next env' (arguments.map Prod.fst ++ []) m.store.next
      (runBody (interpreter.evaluate fuel) m.store.next body)
      (Parameters.names header.type.parameters) :=
    (Sealed.runBody (sealed_evaluate fuel) closed).weaken (by simpa using given)
  have work : Sealed m.store.next env' [] m.store.next
      (do
        bindArguments m.store.next arguments
        catchReturn header.name site.line m.store.next
          (runBody (interpreter.evaluate fuel) m.store.next body))
      (arguments.map Prod.fst ++ []) :=
    (Sealed.bindArguments arguments).bind fun _ => run.catchReturn header.name m.store.next
  have course := work.holding [m.store.next] (entered env) within
  rw [rehung] at course
  exact (course.extend (.add le_rfl _)).mono fun _ _ _ => trivial

/-- A return does not leave the invocation of a function. -/
theorem invoke_function_ne_returned (interpreter : Interpreter) (fuel : Nat)
    (header : FunctionHeader) (body : List Node) (site : Node) (arguments : Arguments)
    (env : Location) (m : Machine) (value : Value) :
    (interpreter.invoke fuel (.function header body) site arguments env m).1 ≠
      .error (.returned value) := by
  let stops : Stops := ⟨fun _ _ => False, fun _ _ => True, fun _ => True⟩
  have runs (scope : Location) : Triple (fun _ => True)
      (runBody (interpreter.evaluate fuel) scope body) (fun _ _ => True) .any :=
    Triple.of_runs (fun _ _ _ _ _ => trivial) fun _ stop _ _ _ => by cases stop <;> trivial
  have invoked : Triple (fun _ => True)
      (interpreter.invoke fuel (.function header body) site arguments env) (fun _ _ => True)
      stops := by
    refine Triple.inScope fun heap _ => Triple.weaken ?_ fun _ _ => trivial
    have unreturned : Returns False (bindArguments heap.next arguments) :=
      Returns.bindArguments heap.next arguments
    have bound : Triple (fun _ => True) (bindArguments heap.next arguments) (fun _ _ => True)
        stops :=
      Triple.consequence unreturned (fun _ _ => trivial) (fun _ _ now => now)
        ⟨fun _ _ => id, fun _ _ _ => trivial, fun _ => id⟩
    exact bound.bind fun _ => Triple.catchReturn (runs heap.next)
  intro ended
  exact invoked.of_error trivial ended

end Interpreter

namespace Eval

/-- Two runs that do not finish, or that end in the same value or in the same fault at the same
line. -/
inductive SameEnd : Except Stop Value → Except Stop Value → Prop
  | value (value : Value) : SameEnd (.ok value) (.ok value)
  | fault {e e' : EvalError} (fault : e.fault = e'.fault) (line : e.line = e'.line) :
      SameEnd (.error (.failed e)) (.error (.failed e'))
  | unfinished : SameEnd (.error .exhausted) (.error .exhausted)

end Eval

namespace Interpreter

open Eval

/-- A closed function does not see its caller: with the same arguments, and with any fuel, an
invocation ends in the same way from any two scopes, and it changes none of the scopes that were
there before. -/
theorem closed_functions_do_not_see_their_caller (interpreter : Interpreter) (fuel : Nat)
    {header : FunctionHeader} {body : List Node}
    (closed : Node.bodyClosed (Parameters.names header.type.parameters) body = true) (site : Node)
    {arguments : Arguments}
    (given : Parameters.names header.type.parameters ⊆ arguments.map Prod.fst) (m : Machine)
    (env env' : Location) :
    SameEnd (interpreter.invoke fuel (.function header body) site arguments env m).1
      (interpreter.invoke fuel (.function header body) site arguments env' m).1 ∧
    ∀ caller, ∀ location < m.store.next,
      (interpreter.invoke fuel (.function header body) site arguments caller m).2.store.frame?
        location = m.store.frame? location := by
  constructor
  · have course := interpreter.sameCourse_invoke fuel site m env env' closed given
    have unreturned := interpreter.invoke_function_ne_returned fuel header body
      site arguments env m
    generalize interpreter.invoke fuel (.function header body) site arguments env m = run
      at course unreturned
    generalize interpreter.invoke fuel (.function header body) site arguments env' m = run'
      at course
    cases course with
    | ok => exact .value _
    | @error stop stop' _ _ alike =>
      cases stop <;> cases stop' <;> first | exact alike.elim | skip
      · exact absurd rfl (unreturned _)
      · exact .fault alike.1 alike.2
      · exact .unfinished
  · intro caller location older
    have course := interpreter.sameCourse_invoke fuel site m caller env closed given
    generalize interpreter.invoke fuel (.function header body) site arguments caller m = run
      at course ⊢
    generalize interpreter.invoke fuel (.function header body) site arguments env m = run' at course
    cases course with
    | ok continues => exact continues.older location older
    | error continues => exact continues.older location older

/-- A function of one parameter. -/
def drainHeader : FunctionHeader :=
  ⟨0, "drain-0", "drain", ⟨[("flag", .boolean)], .int, none⟩, ⟨1⟩⟩

def drained : Arguments := [("flag", .boolean true)]

/-- A loop over a variable of the body, and a branch that depends on the parameter. -/
def drain : List Node :=
  let flag : Node := .readVariable ⟨.boolean, ⟨1⟩⟩ "flag"
  let truth (value : Bool) : Node := .literal ⟨.boolean, ⟨2⟩⟩ (.scalar (.boolean value))
  let number (value : Int64) : Node := .literal ⟨.int, ⟨3⟩⟩ (.scalar (.int value))
  [.bind ⟨.boolean, ⟨1⟩⟩ .mutable "go" flag,
   .loop ⟨.unit, ⟨2⟩⟩ (.readVariable ⟨.boolean, ⟨2⟩⟩ "go")
    [.bind ⟨.int, ⟨2⟩⟩ .immutable "x" (number 1), .assign ⟨.boolean, ⟨2⟩⟩ "go" (truth false)],
   .returns ⟨.int, ⟨3⟩⟩ (.branch ⟨.int, ⟨3⟩⟩ flag [number 7] [])]

/-- A global scope and a block, both of which have variables that the function has as well. -/
def callers : Machine where
  store :=
    { frames := #[
        ⟨⟨[("go", ⟨.int 1, .immutable⟩)]⟩, .empty, [], none, none⟩,
        ⟨⟨[("go", ⟨.boolean true, .mutable⟩), ("flag", ⟨.boolean false, .immutable⟩)]⟩, .empty, [],
          some 0, some ⟨"block", ⟨1⟩⟩⟩]
      modules := .empty
      held := [0, 1] }
  output := .silent
  nextStamp := 0

theorem closed_functions_do_not_see_their_caller_drain :
    Node.bodyClosed (Parameters.names drainHeader.type.parameters) drain = true ∧
      Parameters.names drainHeader.type.parameters ⊆ drained.map Prod.fst ∧
      ∀ env : Location,
        (Interpreter.invoke ⟨0, .empty, .empty⟩ 4 (.function drainHeader drain)
          (.readFunction ⟨.int, ⟨4⟩⟩ "drain-0") drained env callers).1.toOption.bind Value.asInt? =
          some 7 := by
  let interpreter : Interpreter := ⟨0, .empty, .empty⟩
  let site : Node := .readFunction ⟨.int, ⟨4⟩⟩ "drain-0"
  have closed : Node.bodyClosed (Parameters.names drainHeader.type.parameters) drain = true := by
    decide +kernel
  have given : Parameters.names drainHeader.type.parameters ⊆ drained.map Prod.fst :=
    List.Subset.refl _
  refine ⟨closed, given, fun env => ?_⟩
  have same := (interpreter.closed_functions_do_not_see_their_caller 4 closed site given
    callers 0 env).1
  have first : (interpreter.invoke 4 (.function drainHeader drain) site drained 0
      callers).1.toOption.bind Value.asInt? = some 7 := by
    decide +kernel
  change (interpreter.invoke 4 (.function drainHeader drain) site drained env
    callers).1.toOption.bind Value.asInt? = some 7
  generalize (interpreter.invoke 4 (.function drainHeader drain) site drained 0 callers).1 = ending
    at same first
  generalize (interpreter.invoke 4 (.function drainHeader drain) site drained env callers).1 =
    ending' at same ⊢
  cases same with
  | value => exact first
  | fault => cases first
  | unfinished => cases first

end Interpreter

end ScriptCore
