import ScriptCore.Proofs.Eval.Evolution
import ScriptCore.Proofs.Session.Requests
import ScriptCore.Proofs.Session.Start

/-!
# Bindings persist

A variable is never given up by the scope that it was declared in, and it never changes between
mutable and immutable. An immutable one keeps its value. So what was once declared immutable reads
the same in every later state of a session, whatever the units do and however they fail.
-/
namespace ScriptCore

namespace Store

/-- The binding of a name in the scope itself. -/
def binding? (store : Store) (env : Location) (name : String) : Option Binding :=
  (store.frame? env).bind (·.bindings.get? name)

/-- What is bound stays bound in its scope, and an immutable variable keeps its value. -/
def KeepsBindings (old new : Store) : Prop :=
  ∀ env name binding, old.binding? env name = some binding →
    ∃ value, new.binding? env name = some ⟨value, binding.mutability⟩ ∧
      (binding.mutability = .immutable → value = binding.value)

variable {env : Location} {name : String} {old middle new store : Store}

theorem KeepsBindings.refl : store.KeepsBindings store :=
  fun _ _ binding bound => ⟨binding.value, bound, fun _ => rfl⟩

theorem KeepsBindings.trans (first : old.KeepsBindings middle)
    (second : middle.KeepsBindings new) : old.KeepsBindings new := by
  intro env name binding bound
  obtain ⟨value, between, kept⟩ := first env name binding bound
  obtain ⟨value', after, kept'⟩ := second env name _ between
  exact ⟨value', after, fun immutable => (kept' immutable).trans (kept immutable)⟩

theorem Evolves.keepsBindings (evolves : Evolves env old new) : old.KeepsBindings new := by
  intro location name binding bound
  obtain ⟨frame, there, own⟩ := Option.bind_eq_some_iff.mp bound
  obtain ⟨frame', there', grows, -⟩ := evolves location frame there
  obtain ⟨value, own', kept⟩ := grows.bindings name binding own
  exact ⟨value, Option.bind_eq_some_iff.mpr ⟨frame', there', own'⟩, kept⟩

/-- A variable that is looked up in the scope that it belongs to has its value there. -/
theorem lookup_of_binding? {binding : Binding} (bound : store.binding? env name = some binding) :
    store.lookup env name = .ok binding.value := by
  obtain ⟨frame, there, own⟩ := Option.bind_eq_some_iff.mp bound
  have found : frame.value? name = some binding.value := by rw [Frame.value?, own]; rfl
  have first : store.find env (Frame.value? name) = some binding.value := by
    simp only [find, findWithin, there, found]
  rw [lookup, first]

theorem binding?_setVariable {binding : Binding} {frame : Frame}
    (there : store.frame? env = some frame) :
    (store.setVariable env name binding).binding? env name = some binding := by
  rw [binding?, setVariable, frame?_update_self there]
  exact Table.get?_insert_self _ _ _

end Store

namespace Interpreter

open Eval

theorem persists_openModule (name : String) (global : Location) (start : Store) :
    Keeps start.KeepsBindings (Eval.openModule name global) := by
  have opens (now : Store) : Keeps (Store.Evolves global now) (Eval.openModule name global) :=
    keeps_openModule name global
  exact Keeps.of_relation opens (fun _ => .refl) fun _ _ before later =>
    before.trans later.keepsBindings

variable {interpreter : Interpreter} (hosts : interpreter.natives = Native.standard)

include hosts

theorem persists_evaluate (fuel : Nat) (node : Node) (env : Location) (start : Store) :
    Keeps start.KeepsBindings (interpreter.evaluate fuel node env) :=
  Keeps.of_relation (evolving_evaluate hosts fuel node env) (fun _ => .refl)
    fun _ _ before later => before.trans later.keepsBindings

theorem persists_evaluateUnit (fuel : Nat) (unit : List Node) (start : Store) :
    Keeps start.KeepsBindings (interpreter.evaluateUnit fuel unit) := by
  refine Triple.mono (Triple.evaluateFrom (fun _ _ => start.KeepsBindings) (fun _ _ => True) ?_ ?_
    interpreter.global) ?_
  · intro target node rest _ _
    have evaluated := persists_evaluate hosts fuel node target start
    exact Triple.uncaught (Triple.mono evaluated fun _ _ now => ⟨trivial, now⟩)
  · intro target tag name rest _
    exact Triple.mono (persists_openModule name _ start) fun _ _ now => ⟨trivial, now⟩
  · rintro _ _ ⟨-, _, kept⟩
    exact kept

/-- A declaration that succeeds binds the value in the scope that it stands in. -/
theorem binds_evaluate {tag : Tag} {mutability : Mutability} {name : String} {node : Node}
    {env : Location} (fuel : Nat) :
    Triple (fun heap => ∃ frame, heap.frame? env = some frame)
      (interpreter.evaluate fuel (.bind tag mutability name node) env)
      (fun value heap => heap.binding? env name = some ⟨value, mutability⟩)
      ⟨fun _ _ => True, fun _ _ => True, fun _ => True⟩ := by
  cases fuel with
  | zero => exact Triple.exhausted fun _ _ => trivial
  | succ fuel =>
    refine Triple.located ?_
    have evaluated : Keeps (fun heap => ∃ frame, heap.frame? env = some frame)
        (interpreter.evaluate fuel node env) := by
      refine Keeps.of_relation (evolving_evaluate hosts fuel node env) (fun _ => .refl) ?_
      rintro now later ⟨frame, there⟩ evolves
      obtain ⟨frame', there', -⟩ := evolves env frame there
      exact ⟨frame', there'⟩
    refine Triple.bind (evaluated.consequence (fun _ there => there) (fun _ _ now => now)
      ⟨fun _ _ _ => trivial, fun _ _ _ => trivial, fun _ _ => trivial⟩) fun value => ?_
    have declared : Triple (fun heap => ∃ frame, heap.frame? env = some frame)
        (Eval.declare env name value mutability)
        (fun _ heap => heap.binding? env name = some ⟨value, mutability⟩)
        ⟨fun _ _ => True, fun _ _ => True, fun _ => True⟩ :=
      Triple.declare (fun heap ⟨frame, there⟩ _ => Store.binding?_setVariable there)
        fun _ _ _ => trivial
    exact declared.bind fun _ => Triple.pure fun _ bound => bound

end Interpreter

namespace Session

theorem interpreter_serve (session : Session) (request : Request) :
    (request.serve session).2.interpreter = session.interpreter := by
  rcases session.serve_cases request with ⟨-, error, served⟩ | ⟨-, nodes, lowering, served⟩
  · rw [served]
  · rw [served]
    rcases request.session_fulfil nodes { session with lowering := lowering } with same | ⟨_, same⟩
    all_goals rw [same]

theorem interpreter_served (session : Session) (requests : List Request) :
    (session.served requests).interpreter = session.interpreter :=
  serving.kept (P := fun later => later.interpreter = session.interpreter) rfl
    (fun later request same => (later.interpreter_serve request).trans same) requests

variable {session : Session}

/-- What holds of the nodes so far and of the session, and is carried on by every request to a
session with this interpreter, holds in the end. -/
theorem carried_served {P : List Node → Session → Prop} (now : P [] session)
    (carry : ∀ nodes later (request : Request), later.interpreter = session.interpreter →
      P nodes later → P (nodes ++ later.nodesOf request.unit) (request.serve later).2)
    (requests : List Request) :
    P (session.loweredNodes requests) (session.served requests) := by
  refine (serving.carried (P := fun nodes later => later.interpreter = session.interpreter ∧
    P nodes later) ⟨rfl, now⟩ ?_ requests).2
  rintro nodes later request ⟨same, holds⟩
  exact ⟨(later.interpreter_serve request).trans same, carry nodes later request same holds⟩

theorem persists_serve (hosts : session.interpreter.natives = Native.standard)
    (request : Request) :
    session.machine.store.KeepsBindings (request.serve session).2.machine.store := by
  rcases session.serve_cases request with ⟨-, error, served⟩ | ⟨-, nodes, lowering, served⟩
  · rw [served]
    exact .refl
  · rw [served]
    rcases request.session_fulfil nodes { session with lowering := lowering } with
      same | ⟨fuel, same⟩
    · rw [same]
      exact .refl
    · rw [same]
      exact (Interpreter.persists_evaluateUnit hosts fuel nodes session.machine.heap).ends .refl

theorem persists_served (hosts : session.interpreter.natives = Native.standard)
    (requests : List Request) :
    session.machine.store.KeepsBindings (session.served requests).machine.store := by
  refine carried_served (P := fun _ later => session.machine.store.KeepsBindings
    later.machine.store) .refl ?_ requests
  intro _ later request same kept
  exact kept.trans (persists_serve (same ▸ hosts) request)

/-- However an evaluation ends, what was bound before is bound as before, an immutable variable to
the same value, and a declaration that succeeds binds a variable in this sense. In every history of
a fresh session an immutable variable therefore reads the same from then on. -/
theorem bindings_persist :
    (∀ interpreter : Interpreter, interpreter.natives = Native.standard → ∀ fuel m,
      (∀ node env, m.store.KeepsBindings (interpreter.evaluate fuel node env m).2.store) ∧
      ∀ tag mutability name node env value, env < m.store.next →
        (interpreter.evaluate fuel (.bind tag mutability name node) env m).1 = .ok value →
        (interpreter.evaluate fuel (.bind tag mutability name node) env m).2.store.binding? env
          name = some ⟨value, mutability⟩) ∧
    ∀ output session, start output = .ok session → ∀ earlier later env name value,
      (session.served earlier).machine.store.binding? env name = some ⟨value, .immutable⟩ →
      (session.served (earlier ++ later)).machine.store.binding? env name =
          some ⟨value, .immutable⟩ ∧
        (session.served (earlier ++ later)).machine.store.lookup env name = .ok value := by
  constructor
  · intro interpreter hosts fuel m
    constructor
    · intro node env
      exact (Interpreter.persists_evaluate hosts fuel node env m.heap).ends .refl
    · intro tag mutability name node env value inside ended
      have there := Store.exists_of_lt_next inside
      exact (Interpreter.binds_evaluate hosts fuel).of_ok there ended
  · intro output session started earlier later env name value bound
    have hosts : (session.served earlier).interpreter.natives = Native.standard := by
      rw [interpreter_served, hosts_start started]
    obtain ⟨value', kept, same⟩ := persists_served hosts later env name _ bound
    obtain rfl : value' = value := same rfl
    rw [served_append]
    exact ⟨kept, Store.lookup_of_binding? kept⟩

/-- A variable that keeps the value one. -/
def keptOne : Request :=
  .run 9 [.bind ⟨1⟩ .immutable "x" none (.literal ⟨1⟩ (.scalar (.int 1)))]

/-- An assignment to it, which lowers and then fails. -/
def assignedTwo : Request :=
  .run 9 [.expr (.assign ⟨2⟩ "x" (.literal ⟨2⟩ (.scalar (.int 2))))]

theorem bound_keptOne :
    (start .silent).toOption.map (fun session =>
      ((session.exchanges [keptOne, assignedTwo]).map fun exchange =>
          (exchange.lowered, exchange.answer.isOk),
        ((session.served [keptOne]).machine.store.binding? session.interpreter.global "x").map
          fun binding => (binding.value.display, binding.mutability))) =
      some ([(true, true), (true, false)], some ("1", .immutable)) := by
  decide +kernel

theorem bindings_persist_assignedTwo :
    ∃ session value, start .silent = .ok session ∧
      (session.exchanges [keptOne, assignedTwo]).map (fun exchange =>
        (exchange.lowered, exchange.answer.isOk)) = [(true, true), (true, false)] ∧
      (session.served [keptOne]).machine.store.binding? session.interpreter.global "x" =
        some ⟨value, .immutable⟩ ∧ value.display = "1" ∧
      (session.served ([keptOne] ++ [assignedTwo])).machine.store.lookup session.interpreter.global
        "x" = .ok value := by
  obtain ⟨session, started, computed⟩ := exists_start_of_computed bound_keptOne
  obtain ⟨flags, binding⟩ := Prod.mk.inj computed
  obtain ⟨⟨value, mutability⟩, bound, shown⟩ := Option.map_eq_some_iff.mp binding
  obtain ⟨display, rfl⟩ := Prod.mk.inj shown
  have reads := (bindings_persist.2 .silent session started [keptOne] [assignedTwo] _ "x" value
    bound).2
  exact ⟨session, value, started, flags, bound, display, reads⟩

end Session

end ScriptCore
