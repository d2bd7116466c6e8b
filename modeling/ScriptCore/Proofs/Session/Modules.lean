import ScriptCore.Proofs.Eval.Course
import ScriptCore.Proofs.Eval.Refusing
import ScriptCore.Proofs.Session.Persistence

/-!
# Modules stay where they are

A session starts on a linked store without modules. Whatever it is asked to do, the store stays
linked and no opened module is ever given another scope. Module statements below the top level of a
unit are refused.
-/
namespace ScriptCore

open Eval

namespace Store

variable {store : Store} {env module : Location}

/-- The first scope of a store without any. -/
theorem linked_newGlobal (frames : ∀ location, store.frame? location = none)
    (modules : store.modules = .empty) : (store.add (.create none none)).Linked store.next := by
  have only : ∀ {location frame}, (store.add (.create none none)).frame? location = some frame →
      location = store.next ∧ frame = .create none none := by
    intro location frame there
    rw [frame?_add] at there
    split at there
    · rename_i same
      exact ⟨same, (Option.some.inj there).symm⟩
    · rw [frames location] at there
      cases there
  have none : ∀ name, (store.add (.create none none)).modules.get? name = none := by
    intro name
    rw [show (store.add (.create Option.none Option.none)).modules = .empty from modules]
    rfl
  refine ⟨⟨_, frame?_add_next, rfl⟩, fun env frame there _ => (only there).1, ?_, ?_, ?_⟩
  · intro name module opened
    rw [none name] at opened
    cases opened
  · intro name other module opened
    rw [none name] at opened
    cases opened
  · intro env frame there
    obtain ⟨-, rfl⟩ := only there
    exact ⟨.nil, List.not_mem_nil, nofun⟩

theorem expand_of_mem (linked : module ∈ (store.frame env).expanded) :
    store.expand env module = store := by
  rw [expand, if_pos]
  simp [linked]

/-- A module that is in use is not taken into use again. -/
theorem expand_expand (inside : env < store.next) :
    (store.expand env module).expand env module = store.expand env module := by
  by_cases known : (env = module || (store.frame env).expanded.contains module) = true
  · have same : store.expand env module = store := by rw [expand, if_pos known]
    rw [same, same]
  · apply expand_of_mem
    obtain ⟨frame, there⟩ := exists_of_lt_next inside
    rw [expand, if_neg known, frame_of_frame? (frame?_update_self there)]
    exact List.mem_append_right _ List.mem_cons_self

end Store

namespace Interpreter

variable {interpreter : Interpreter} {m : Machine} {env module : Location} {name : String}

theorem evaluate_useModule (fuel : Nat) (tag : Tag)
    (opened : m.store.modules.get? name = some module) :
    interpreter.evaluate (fuel + 1) (.useModule tag name) env m =
      (.ok .unit, { m with store := m.store.expand env module }) := by
  have found : Eval.openedModule name m = (.ok module, m) := by
    rw [Eval.openedModule, Eval.ask, Store.openedModule, opened]
  rw [evaluate, Eval.located, step, Attempt.bind_ok found]
  rfl

/-- What is taken into use a second time is in use already. -/
theorem evaluate_useModule_again {fuel : Nat} {tag : Tag} {value : Value} {m' : Machine}
    (inside : env < m.store.next)
    (used : interpreter.evaluate fuel (.useModule tag name) env m = (.ok value, m')) :
    interpreter.evaluate fuel (.useModule tag name) env m' = (.ok .unit, m') := by
  cases fuel with
  | zero => cases used
  | succ fuel =>
    cases opened : m.store.modules.get? name with
    | none =>
      have unknown : Eval.openedModule name m =
          (.error (.failed (.ofFault (.undefinedModule name))), m) := by
        rw [Eval.openedModule, Eval.ask, Store.openedModule, opened]
      rw [evaluate, Eval.located, step, Attempt.bind_error unknown] at used
      cases used
    | some module =>
      rw [evaluate_useModule fuel tag opened] at used
      cases used
      rw [evaluate_useModule fuel tag (by rw [Store.modules_expand]; exact opened),
        Store.expand_expand inside]

/-- In an inner scope a module statement fails where it stands and changes nothing. -/
theorem evaluate_openModule_inner (fuel : Nat) (tag : Tag)
    (linked : m.store.Linked interpreter.global) (inside : env < m.store.next)
    (inner : env ≠ interpreter.global) :
    interpreter.evaluate (fuel + 1) (.openModule tag name) env m =
      (.error (.failed (((EvalError.ofFault (.moduleOutsideGlobal name)).atLine tag.line).withBacktrace
        (m.store.backtrace env))), m) := by
  have now : interpreter.LinkedAt .empty env m.heap :=
    ⟨Store.linked_heap.mpr linked, nofun, inside⟩
  rw [evaluate, Eval.located, step, Attempt.bind_error (openModule_inner now inner)]
  rfl

variable {start : Store} {fuel : Nat} {unit : List Node}

/-- Wherever the evaluation of a unit comes, the machine is linked. -/
theorem Reaches.linked (hosts : interpreter.natives = Native.standard) {target target' : Location}
    {rest : List Node} {m' : Machine}
    (reaches : interpreter.Reaches fuel target unit m target' rest m')
    (now : interpreter.LinkedAt start target m.heap) :
    interpreter.LinkedAt start target' m'.heap := by
  refine reaches.holds (fun target _ => interpreter.LinkedAt start target)
    (fun target node _ _ _ => (linking_evaluate hosts fuel node start target).any) ?_ now
  intro target tag name rest _
  exact (Triple.consequence (linked_openModule name) (fun _ now => now.global)
    (fun _ _ now => now.1.module now.2) ⟨fun _ _ => id, fun _ _ => id, fun _ => id⟩).any

end Interpreter

namespace Session

theorem linked_start {output : Output} {session : Session}
    (started : start output = .ok session) :
    session.machine.heap.Linked session.interpreter.global := by
  have opened : Triple (fun heap => (∀ location, heap.frame? location = none) ∧
        heap.modules = .empty) Eval.newGlobal (fun global heap => heap.Linked global) .any :=
    Triple.newGlobal fun heap empty => Store.linked_newGlobal empty.1 empty.2
  have objects (global : Location) : Triple (fun heap : Store => heap.Linked global)
      (Builtin.materializeAll global Builtin.classes) (fun _ heap => heap.Linked global) .any :=
    Builtin.keeps_materializeAll fun _ _ _ _ _ _ _ linked => linked.declareFunction
  have unit (global : Location) : Triple (fun heap : Store => heap.Linked global)
      (Eval.declare global "Unit" .unit .immutable) (fun _ heap => heap.Linked global) .any :=
    Triple.declare (fun _ linked _ => linked.setVariable) fun _ _ _ => trivial
  have created : Triple (fun heap => (∀ location, heap.frame? location = none) ∧
        heap.modules = .empty) (Interpreter.create [])
      (fun interpreter heap => heap.Linked interpreter.global) .any := by
    refine opened.bind fun global => ?_
    rw [Builtin.bootstrap, bind_assoc]
    refine (objects global).bind fun _ => ?_
    rw [bind_assoc]
    exact (unit global).bind fun _ => Triple.pure fun _ linked => linked
  exact start_ends created ⟨fun _ => rfl, rfl⟩ started

variable {session : Session}

theorem linkedAt_serve (hosts : session.interpreter.natives = Native.standard)
    (linked : session.machine.heap.Linked session.interpreter.global) (request : Request) :
    session.interpreter.LinkedAt session.machine.heap session.interpreter.global
      (request.serve session).2.machine.heap := by
  have now : session.interpreter.LinkedAt session.machine.heap session.interpreter.global
      session.machine.heap := ⟨linked, .refl, linked.lt_next⟩
  rcases session.serve_cases request with ⟨-, error, served⟩ | ⟨-, nodes, lowering, served⟩
  · rw [served]
    exact now
  · rw [served]
    rcases request.session_fulfil nodes { session with lowering := lowering } with
      same | ⟨fuel, same⟩
    · rw [same]
      exact now
    · rw [same]
      exact (Interpreter.linked_evaluateFrom hosts fuel nodes _).ends now

theorem linkedAt_served (hosts : session.interpreter.natives = Native.standard)
    (linked : session.machine.heap.Linked session.interpreter.global) (requests : List Request) :
    session.interpreter.LinkedAt session.machine.heap session.interpreter.global
      (session.served requests).machine.heap := by
  refine carried_served (P := fun _ later => session.interpreter.LinkedAt session.machine.heap
    session.interpreter.global later.machine.heap) ⟨linked, .refl, linked.lt_next⟩ ?_ requests
  intro _ later request same now
  have next := linkedAt_serve (same ▸ hosts) (same ▸ now.linked) request
  rw [same] at next
  exact ⟨next.linked, now.modules.trans next.modules, next.inside⟩

/-- In every history of a fresh session an opened module keeps its scope. The scopes of modules lie
right inside the global scope, without a call site, and are different for different names. Every
scope there is uses opened modules only, which are live, each of them once and none from within
itself, so that a module that is in use is not taken into use again. A module statement in an inner
scope fails and changes nothing; and as no node below the top level of a unit is evaluated in the
global scope, each of them does what it would do if module statements failed in every scope. -/
theorem modules_are_stable {output : Output} {session : Session}
    (started : start output = .ok session) (requests : List Request) :
    (∀ later name module, (session.served requests).module? name = some module →
      (session.served (requests ++ later)).module? name = some module) ∧
    (∀ name module, (session.served requests).module? name = some module →
      ∃ frame, (session.served requests).machine.store.frame? module = some frame ∧
        frame.enclosing = some session.interpreter.global ∧ frame.callSite = none) ∧
    (∀ name other module, (session.served requests).module? name = some module →
      (session.served requests).module? other = some module → name = other) ∧
    (∀ env frame, (session.served requests).machine.store.frame? env = some frame →
      frame.expanded.Nodup ∧ env ∉ frame.expanded ∧ ∀ module ∈ frame.expanded,
        (∃ name, (session.served requests).module? name = some module) ∧
          (session.served requests).machine.store.isLive module = true) ∧
    (∀ env, env < (session.served requests).machine.store.next → ∀ fuel tag name value m,
      session.interpreter.evaluate fuel (.useModule tag name) env
          (session.served requests).machine = (.ok value, m) →
      session.interpreter.evaluate fuel (.useModule tag name) env m = (.ok .unit, m)) ∧
    (∀ env, env < (session.served requests).machine.store.next → env ≠ session.interpreter.global →
      ∀ fuel tag name,
        session.interpreter.evaluate (fuel + 1) (.openModule tag name) env
            (session.served requests).machine =
          (.error (.failed (((EvalError.ofFault (.moduleOutsideGlobal name)).atLine
            tag.line).withBacktrace ((session.served requests).machine.store.backtrace env))),
            (session.served requests).machine)) ∧
    ∀ unit nodes lowering,
      Lowering.lowerUnit unit (session.served requests).lowering = (.ok nodes, lowering) →
      ∀ fuel target node rest m,
        session.interpreter.Reaches fuel session.interpreter.global nodes
          (session.served requests).machine target (node :: rest) m →
        (∀ tag name, node ≠ .openModule tag name) →
        session.interpreter.evaluate fuel node target m =
          session.interpreter.evaluateRefusing fuel node target m := by
  have hosts := hosts_start started
  have now := linkedAt_served hosts (linked_start started) requests
  have linked := Store.linked_heap.mp now.linked
  refine ⟨fun later name module opened => ?_, linked.modules, linked.distinct,
    fun env frame there => ?_, fun env inside fuel tag name value m used => ?_,
    fun env inside inner fuel tag name => ?_, fun unit nodes lowering lowered => ?_⟩
  · have same := session.interpreter_served requests
    rw [served_append]
    exact (linkedAt_served (same.symm ▸ hosts) (same.symm ▸ now.linked) later).modules name module
      opened
  · have uses := linked.uses env frame there
    exact ⟨uses.nodup, uses.other, fun module mem => ⟨uses.opened module mem,
      linked.isLive there mem⟩⟩
  · exact Interpreter.evaluate_useModule_again inside used
  · exact Interpreter.evaluate_openModule_inner fuel tag linked inside inner
  · intro fuel target node rest m reaches other
    have plain : Node.Plain nodes := Lowering.plain_lowerUnit lowered
    have here := reaches.linked hosts now
    have own : Node.Plain [node] := plain.of_mem (reaches.subset List.mem_cons_self)
    exact ((Interpreter.alike_evaluate hosts fuel).alike node _ target fun _ => ⟨own, other⟩).eq here

/-- A module with a variable is opened, taken into use twice and opened again, and a block tries to
open another one. -/
def usedTwice : List Request :=
  [.run 9 [.openModule ⟨1⟩ "M", .bind ⟨2⟩ .immutable "x" none (.literal ⟨2⟩ (.scalar (.int 1)))],
    .run 9 [.useModule ⟨3⟩ "M", .useModule ⟨4⟩ "M", .openModule ⟨5⟩ "M"],
    .run 9 [.block ⟨6⟩ [.openModule ⟨7⟩ "N"]]]

theorem served_usedTwice :
    (start .silent).toOption.map (fun session =>
      ((session.served usedTwice).module? "M",
        ((session.served usedTwice).machine.store.frame? session.interpreter.global).map
          (·.expanded),
        ((session.exchanges usedTwice).map fun exchange => exchange.answer.map fun _ => ()))) =
      some (some 1, some [1], [.ok (), .ok (), .error (.runtime
        ⟨.moduleOutsideGlobal "N", some ⟨7⟩, some [⟨"block", ⟨6⟩⟩]⟩)]) := by
  decide +kernel

theorem modules_are_stable_usedTwice :
    ∃ session frame, start .silent = .ok session ∧
      (session.exchanges usedTwice).map (fun exchange => exchange.answer.map fun _ => ()) =
        [.ok (), .ok (), .error (.runtime
          ⟨.moduleOutsideGlobal "N", some ⟨7⟩, some [⟨"block", ⟨6⟩⟩]⟩)] ∧
      (session.served usedTwice).machine.store.frame? session.interpreter.global = some frame ∧
      frame.expanded = [1] ∧ (session.served usedTwice).machine.store.isLive 1 = true ∧
      (session.served (usedTwice ++ usedTwice)).module? "M" = some 1 := by
  obtain ⟨session, started, computed⟩ := exists_start_of_computed served_usedTwice
  obtain ⟨opened, rest⟩ := Prod.mk.inj computed
  obtain ⟨uses, answers⟩ := Prod.mk.inj rest
  obtain ⟨frame, there, expanded⟩ := Option.map_eq_some_iff.mp uses
  obtain ⟨stays, -, -, links, -⟩ := modules_are_stable started usedTwice
  obtain ⟨-, -, live⟩ := links _ frame there
  refine ⟨session, frame, started, answers, there, expanded, ?_, stays usedTwice "M" 1 opened⟩
  exact (live 1 (expanded ▸ List.mem_cons_self)).2

end Session

end ScriptCore
