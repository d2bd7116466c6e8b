import ScriptCore.Proofs.Eval.Relined
import ScriptCore.Proofs.Lowering.Relined
import ScriptCore.Proofs.Session.Programs

/-!
# Sessions on other lines

Lines are there to be reported and for nothing else. Moving the units of a session or of programs to
other lines changes the lines of nodes, of errors and of call sites, and nothing else: units lower
or fail as before, with the same declarations, the same values and the same output, and the scopes
that are left behind have the same names bound to the same values.
-/
namespace ScriptCore

open Lowering (lowerUnit)

namespace Relining

/-- Whatever line is reported is mapped. -/
def exact (f : Line → Line) : Relining := ⟨f, fun line line' => line' = f line, fun _ => rfl⟩

/-- A line that is reported is mapped, or it is the synthetic one and stays so. -/
def sparing (f : Line → Line) : Relining where
  map := f
  Reports line line' := line' = f line ∨ line = .synthetic ∧ line' = .synthetic
  reports_map _ := .inl rfl

end Relining

variable {r : Relining}

/-- The same error on another line. -/
inductive SessionError.Relined (r : Relining) : SessionError → SessionError → Prop
  | compile {e : CompileError} : Relined r (.compile e) (.compile (e.mapLine r.map))
  | runtime {e e' : EvalError} (same : EvalError.Relined r e e') :
      Relined r (.runtime e) (.runtime e')
  | mainNotFound : Relined r .mainNotFound .mainNotFound
  | mainNotInt {found : String} : Relined r (.mainNotInt found) (.mainNotInt found)
  | exhausted : Relined r .exhausted .exhausted

namespace SessionError

variable {e e' : SessionError}

theorem Relined.kind_eq (relined : Relined r e e') : e'.kind = e.kind := by
  cases relined with
  | runtime same => exact congrArg Fault.kind same.fault
  | _ => rfl

theorem Relined.message_eq (relined : Relined r e e') : e'.message = e.message := by
  cases relined with
  | runtime same => exact congrArg Fault.message same.fault
  | _ => rfl

theorem relined_ofStop {stop stop' : Stop} (relined : Stop.Relined r stop stop') :
    Relined r (ofStop stop) (ofStop stop') := by
  cases relined with
  | returned => exact .runtime (EvalError.relined_ofFault _)
  | failed same => exact .runtime same
  | exhausted => exact .exhausted

end SessionError

namespace Session

section Requests

def Request.mapLines (f : Line → Line) : Request → Request
  | run fuel unit => .run fuel (Stmt.mapLinesAll f unit)
  | eval fuel unit => .eval fuel (Stmt.mapLinesAll f unit)
  | compile unit => .compile (Stmt.mapLinesAll f unit)

theorem Request.unit_mapLines (f : Line → Line) (request : Request) :
    (request.mapLines f).unit = Stmt.mapLinesAll f request.unit := by
  cases request <;> rfl

/-- Answers with the same values, or with the same nodes on other lines. -/
inductive Answer.Relined (f : Line → Line) : Answer → Answer → Prop
  | values {values values' : List Value} (same : List.Forall₂ (Value.Relined f) values values') :
      Relined f (.values values) (.values values')
  | last {value value' : Value} (same : Value.Relined f value value') :
      Relined f (.last value) (.last value')
  | nodes {nodes nodes' : List Node} (same : List.Forall₂ (Node.Relined f) nodes nodes') :
      Relined f (.nodes nodes) (.nodes nodes')

/-- The same request on other lines, with what comes of it. -/
structure Exchange.Relined (r : Relining) (exchange exchange' : Exchange) : Prop where
  request : exchange'.request = exchange.request.mapLines r.map
  lowered : exchange'.lowered = exchange.lowered
  answer : Outcome (SessionError.Relined r) (Answer.Relined r.map) exchange.answer exchange'.answer

/-- What kind of error a request is answered with, and its message. -/
def Exchange.failure? (exchange : Exchange) : Option (String × String) :=
  (errorOf? exchange.answer).map fun error => (error.kind, error.message)

theorem Exchange.Relined.failure?_eq {exchange exchange' : Exchange}
    (relined : Relined r exchange exchange') : exchange'.failure? = exchange.failure? := by
  rw [failure?, failure?]
  rcases relined.answer.ends with ⟨_, _, ended, ended', -⟩ | ⟨_, _, failed, failed', same⟩
  · rw [ended, ended']
    rfl
  · rw [failed, failed']
    exact congrArg some (Prod.ext same.kind_eq same.message_eq)

theorem failures_eq {exchanges exchanges' : List Exchange}
    (relined : List.Forall₂ (Exchange.Relined r) exchanges exchanges') :
    exchanges'.map Exchange.failure? = exchanges.map Exchange.failure? := by
  induction relined with
  | nil => rfl
  | cons first _ ih => rw [List.map_cons, List.map_cons, first.failure?_eq, ih]

end Requests

/-- Sessions with the same declarations and the same output, whose stores differ in lines alone. The
host has no functions that could tell. -/
structure Relined (r : Relining) (session session' : Session) : Prop where
  lowering : session'.lowering = session.lowering
  interpreter : session'.interpreter = session.interpreter
  machine : Machine.Relined r session.machine session'.machine
  hosts : ∀ name native, session.interpreter.natives.get? name = some native →
    Interpreter.HeedsNoLines r native

section Steps

variable {α α' : Type} {results : α → α' → Prop}

abbrev Parallel (r : Relining) (results : α → α' → Prop) : SessionStep α → SessionStep α' → Prop :=
  Attempt.Matches (Relined r) (SessionError.Relined r) results

theorem parallel_compile (unit : List Stmt) :
    Parallel r (List.Forall₂ (Node.Relined r.map)) (compile unit)
      (compile (Stmt.mapLinesAll r.map unit)) := by
  intro session session' now
  rw [compile, compile, now.lowering, lowerUnit, lowerUnit]
  rcases (Lowering.lowerStmts_relined r.map none unit).run (rfl : session.lowering = _) with
    ⟨_, _, lowering, _, ran, ran', nodes, rfl⟩ | ⟨_, _, _, _, ran, ran', same, -⟩
  · rw [ran, ran']
    exact ⟨.ok nodes, rfl, now.interpreter, now.machine, now.hosts⟩
  · rw [ran, ran', same]
    exact ⟨.error .compile, now⟩

theorem parallel_evaluate {work : Interpreter → Eval α} {work' : Interpreter → Eval α'}
    (works : ∀ interpreter : Interpreter, (∀ name native,
      interpreter.natives.get? name = some native → Interpreter.HeedsNoLines r native) →
      Eval.Parallel r results (work interpreter) (work' interpreter)) :
    Parallel r results (evaluate work) (evaluate work') := by
  intro session session' now
  have after (machine machine' : Machine) (later : Machine.Relined r machine machine') :
      Relined r { session with machine := machine } { session' with machine := machine' } :=
    ⟨now.lowering, now.interpreter, later, now.hosts⟩
  rw [evaluate, evaluate, now.interpreter]
  rw [now.interpreter] at after
  rcases (works session.interpreter now.hosts).run now.machine with
    ⟨_, _, _, _, ran, ran', same, later⟩ | ⟨_, _, _, _, ran, ran', same, later⟩
  · rw [ran, ran']
    exact ⟨.ok same, after _ _ later⟩
  · rw [ran, ran']
    exact ⟨.error (SessionError.relined_ofStop same), after _ _ later⟩

theorem parallel_run (fuel : Nat) (unit : List Stmt) :
    Parallel r (List.Forall₂ (Value.Relined r.map)) (run fuel unit)
      (run fuel (Stmt.mapLinesAll r.map unit)) :=
  (parallel_compile unit).bind fun _ _ nodes => parallel_evaluate fun interpreter hosts =>
    Interpreter.parallel_evaluateFrom hosts fuel interpreter.global nodes

theorem parallel_serve (request : Request) :
    Parallel r (Answer.Relined r.map) request.serve (request.mapLines r.map).serve := by
  cases request with
  | run fuel unit =>
    exact (parallel_run fuel unit).bind fun _ _ same => .pure (.values same)
  | eval fuel unit =>
    have last : Parallel r (Value.Relined r.map) (eval fuel unit)
        (eval fuel (Stmt.mapLinesAll r.map unit)) :=
      (parallel_run fuel unit).bind fun _ _ same => .pure (rel_getD (rel_getLast? same) (.same rfl))
    exact last.bind fun _ _ same => .pure (.last same)
  | compile unit =>
    exact (parallel_compile unit).bind fun _ _ same => .pure (.nodes same)

end Steps

section Histories

variable {session session' : Session}

theorem Relined.lowers_eq (relined : Relined r session session') (unit : List Stmt) :
    session'.lowers (Stmt.mapLinesAll r.map unit) = session.lowers unit := by
  rw [lowers, lowers, relined.lowering, lowerUnit, lowerUnit]
  rcases (Lowering.lowerStmts_relined r.map none unit).run (rfl : session.lowering = _) with
    ⟨_, _, _, _, ran, ran', -, -⟩ | ⟨_, _, _, _, ran, ran', -, -⟩
  all_goals rw [ran, ran']; rfl

theorem Relined.exchanges (relined : Relined r session session') (requests : List Request) :
    List.Forall₂ (Exchange.Relined r) (session.exchanges requests)
        (session'.exchanges (requests.map (·.mapLines r.map))) ∧
      Relined r (session.served requests)
        (session'.served (requests.map (·.mapLines r.map))) := by
  induction requests generalizing session session' with
  | nil => exact ⟨.nil, relined⟩
  | cons request rest ih =>
    obtain ⟨answer, later⟩ := parallel_serve request session session' relined
    obtain ⟨others, last⟩ := ih later
    refine ⟨.cons ⟨rfl, ?_, answer⟩ others, last⟩
    rw [request.unit_mapLines]
    exact relined.lowers_eq request.unit

/-- A fresh session has nothing in it that is on a line. -/
theorem relined_start {output : Output} (started : start output = .ok session) :
    Relined r session session where
  lowering := rfl
  interpreter := rfl
  hosts := by
    rw [hosts_start started]
    intro name native supplied
    cases Native.eq_println_of_standard supplied
    exact Interpreter.heedsNoLines_println
  machine := by
    have opened : Eval.Triple (fun heap => Store.Relined r heap heap) Eval.newGlobal
        (fun _ heap => Store.Relined r heap heap) .any :=
      Eval.Triple.newGlobal fun heap now => now.add (Store.Frame.relined_create none .none)
    have prepared (global : Location) : Eval.Triple (fun heap => Store.Relined r heap heap)
        (Builtin.bootstrap global) (fun _ heap => Store.Relined r heap heap) .any := by
      refine Eval.Triple.bind (Builtin.keeps_materializeAll fun made _ type _ stamp index heap =>
        fun now => now.declareFunction global _ .constructor) fun objects => ?_
      have declared : Eval.Triple (fun heap => Store.Relined r heap heap)
          (Eval.declare global "Unit" .unit .immutable) (fun _ heap => Store.Relined r heap heap)
          .any :=
        Eval.Triple.declare (fun heap now _ => now.setVariable global _ ⟨.same rfl, rfl⟩)
          fun _ _ _ => trivial
      exact declared.bind fun _ => Eval.Triple.pure fun _ now => now
    have created : Eval.Triple (fun heap => Store.Relined r heap heap) (Interpreter.create [])
        (fun _ heap => Store.Relined r heap heap) .any :=
      opened.bind fun global => (prepared global).bind fun _ => Eval.Triple.pure fun _ now => now
    have heap := start_ends created Store.relined_empty started
    exact ⟨heap.holdingOnly session.machine.store.held, rfl, rfl⟩

theorem Relined.inspect_eq (relined : Relined r session session') :
    session'.inspect = session.inspect := by
  rw [inspect, inspect, relined.interpreter]
  exact relined.machine.store.inspect_eq session.interpreter.global

end Histories

end Session

namespace Program

open Session (Relined Parallel)

/-- The same units with the same fuel on other lines. -/
def mapLines (f : Line → Line) (programs : Session.History) : Session.History :=
  programs.map fun (fuel, unit) => (fuel, Stmt.mapLinesAll f unit)

/-- What comes of programs that are run one after the other. -/
def statuses (session : Session) : Session.History → List (Except SessionError Int64)
  | [] => []
  | (fuel, unit) :: rest => (run fuel unit session).1 :: statuses (run fuel unit session).2 rest

section Runs

variable (synthetic : r.Reports .synthetic .synthetic)

include synthetic

/-- The entry is called from no line. -/
theorem parallel_run (fuel : Nat) (unit : List Stmt) :
    Parallel r Eq (run fuel unit) (run fuel (Stmt.mapLinesAll r.map unit)) := by
  refine (Session.parallel_run fuel unit).bind fun _ _ _ => ?_
  have entries : Parallel r Eq findEntry findEntry := by
    intro session session' now
    rw [findEntry, findEntry, Session.scope, Session.scope, now.lowering]
    split
    · exact ⟨.ok rfl, now⟩
    · exact ⟨.error .mainNotFound, now⟩
  refine entries.bind ?_
  rintro entry _ rfl
  have called : Parallel r (Value.Relined r.map)
      (Session.evaluate (·.callFunction fuel entry.name []))
      (Session.evaluate (·.callFunction fuel entry.name [])) :=
    Session.parallel_evaluate fun interpreter hosts =>
      Interpreter.parallel_callFunction hosts synthetic fuel entry.name
  refine called.bind fun value value' same => .ofExcept ?_
  rw [status, status, Value.asInt?, Value.asInt?, same.scalar?_eq, same.type_eq]
  split
  · exact .ok rfl
  · exact .error .mainNotInt

theorem relined_statuses {session session' : Session} (relined : Relined r session session')
    (programs : Session.History) :
    List.Forall₂ (Outcome (SessionError.Relined r) Eq) (statuses session programs)
        (statuses session' (mapLines r.map programs)) ∧
      Relined r (after session programs) (after session' (mapLines r.map programs)) := by
  induction programs generalizing session session' with
  | nil => exact ⟨.nil, relined⟩
  | cons program rest ih =>
    obtain ⟨fuel, unit⟩ := program
    obtain ⟨ended, later⟩ := parallel_run synthetic fuel unit session session' relined
    obtain ⟨others, last⟩ := ih later
    exact ⟨.cons ended others, last⟩

end Runs

end Program

namespace Session

/-- Replace all lines of all units by any function. A unit lowers to the same nodes on the other
lines, with the same declarations, or fails with the same error on the other line; only the return
that an extension function without one gets stays on the synthetic line. So every request to a
session has an answer with the same values, or the same error with its lines replaced, and leaves
the same output, the same declarations, and scopes that differ in lines alone. It is the same with
programs, where just the call of an entry has no line in the source and stays on the synthetic
one. -/
theorem lines_never_influence_meaning (f : Line → Line) {output : Output} {session : Session}
    (started : start output = .ok session) :
    (∀ unit state, Lowering.Moves f (List.Forall₂ (Node.Relined f)) (lowerUnit unit state).1
        (lowerUnit (Stmt.mapLinesAll f unit) state).1 ∧
      (lowerUnit (Stmt.mapLinesAll f unit) state).2 = (lowerUnit unit state).2) ∧
    (∀ r state state' line receiver name signature body node,
      Lowering.lowerExpr r (.function line (some receiver) name signature body) state =
        (.ok node, state') →
      Stmt.anyHasReturn false body = false →
      ∃ tag header nodes nodes', List.Forall₂ (Node.Relined f) nodes nodes' ∧
        node = .function tag header (nodes ++ [Lowering.syntheticReturn]) ∧
        Lowering.lowerExpr r
            (.function (f line) (some receiver) name signature (Stmt.mapLinesAll f body)) state =
          (.ok (.function (tag.mapLine f) (header.mapLine f)
            (nodes' ++ [Lowering.syntheticReturn])), state')) ∧
    (∀ requests : List Request,
      let moved := requests.map (·.mapLines f)
      List.Forall₂ (Exchange.Relined (.exact f)) (session.exchanges requests)
          (session.exchanges moved) ∧
        (session.exchanges moved).map Exchange.failure? =
          (session.exchanges requests).map Exchange.failure? ∧
        Relined (.exact f) (session.served requests) (session.served moved) ∧
        (session.served moved).inspect = (session.served requests).inspect) ∧
    ∀ programs : History,
      let moved := Program.mapLines f programs
      List.Forall₂ (Outcome (SessionError.Relined (.sparing f)) Eq)
          (Program.statuses session programs) (Program.statuses session moved) ∧
        Relined (.sparing f) (Program.after session programs) (Program.after session moved) ∧
        (Program.after session moved).inspect = (Program.after session programs).inspect := by
  refine ⟨fun unit state => ?_, ?_, fun requests => ?_, fun programs => ?_⟩
  · obtain ⟨ended, later⟩ := Lowering.lowerStmts_relined f none unit state state rfl
    exact ⟨ended, later.symm⟩
  · intro r state state' line receiver name signature body node lowered none
    exact Lowering.added_return_stays f lowered none
  · obtain ⟨answers, last⟩ := (relined_start started).exchanges (r := .exact f) requests
    exact ⟨answers, failures_eq answers, last, last.inspect_eq⟩
  · obtain ⟨ends, last⟩ := Program.relined_statuses (r := .sparing f) (.inr ⟨rfl, rfl⟩)
      (relined_start started) programs
    exact ⟨ends, last, last.inspect_eq⟩

/-- Ten lines further down. -/
def down (line : Line) : Line := ⟨line.number + 10⟩

/-- A unit that declares a variable twice. -/
def declaringAgain : List Request :=
  [.run 9 [.bind ⟨2⟩ .immutable "x" none (.literal ⟨2⟩ (.scalar (.int 1))),
    .bind ⟨5⟩ .immutable "x" none (.literal ⟨5⟩ (.scalar (.int 2)))]]

theorem errors_declaringAgain :
    (start .silent).toOption.map (fun session =>
      ((session.exchanges declaringAgain).map fun exchange => errorOf? exchange.answer,
        (session.exchanges (declaringAgain.map (·.mapLines down))).map fun exchange =>
          errorOf? exchange.answer)) =
      some ([some (.runtime ⟨.alreadyDeclared "x", some ⟨5⟩, none⟩)],
        [some (.runtime ⟨.alreadyDeclared "x", some ⟨15⟩, none⟩)]) := by
  decide +kernel

/-- The unit fails as before, ten lines further down. -/
theorem lines_never_influence_meaning_declaringAgain :
    ∃ session, start .silent = .ok session ∧
      List.Forall₂ (Exchange.Relined (.exact down)) (session.exchanges declaringAgain)
        (session.exchanges (declaringAgain.map (·.mapLines down))) ∧
      ((session.exchanges declaringAgain).map fun exchange => errorOf? exchange.answer) =
        [some (.runtime ⟨.alreadyDeclared "x", some ⟨5⟩, none⟩)] ∧
      ((session.exchanges (declaringAgain.map (·.mapLines down))).map fun exchange =>
        errorOf? exchange.answer) =
        [some (.runtime ⟨.alreadyDeclared "x", some ⟨15⟩, none⟩)] := by
  obtain ⟨session, started, computed⟩ := exists_start_of_computed errors_declaringAgain
  obtain ⟨before, after⟩ := Prod.mk.inj computed
  obtain ⟨-, -, requests, -⟩ := lines_never_influence_meaning down started
  exact ⟨session, started, (requests declaringAgain).1, before, after⟩

end Session

end ScriptCore
