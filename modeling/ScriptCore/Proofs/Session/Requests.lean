import ScriptCore.Proofs.Lowering.WellTyped
import ScriptCore.Proofs.Session.History
import ScriptCore.Proofs.Session.Start

/-!
# Requests to a session

A session is asked to run a unit, to run it for its last value alone, or only to lower it. A request
whose unit does not lower is answered with an error and leaves the session as it was, so a history
without these requests goes on as it did with them.
-/
namespace ScriptCore.Session

inductive Request
  | run (fuel : Nat) (unit : List Stmt)
  | eval (fuel : Nat) (unit : List Stmt)
  | compile (unit : List Stmt)

/-- What a session gives back for a request. -/
inductive Answer
  | values (values : List Value)
  | last (value : Value)
  | nodes (nodes : List Node)

namespace Request

def unit : Request → List Stmt
  | run _ unit | eval _ unit | compile unit => unit

/-- Do what is asked. -/
def serve : Request → SessionStep Answer
  | run fuel unit => do
    let values ← Session.run fuel unit
    return .values values
  | eval fuel unit => do
    let value ← Session.eval fuel unit
    return .last value
  | compile unit => do
    let nodes ← Session.compile unit
    return .nodes nodes

/-- What is left to do of a request when its unit has been lowered. -/
def fulfil (nodes : List Node) : Request → SessionStep Answer
  | run fuel _ => do
    let values ← Session.evaluate (·.evaluateUnit fuel nodes)
    return .values values
  | eval fuel _ => do
    let values ← Session.evaluate (·.evaluateUnit fuel nodes)
    return .last (values.getLast?.getD .unit)
  | compile _ => return .nodes nodes

theorem serve_eq (request : Request) :
    request.serve = Session.compile request.unit >>= fun nodes => request.fulfil nodes := by
  cases request with
  | run fuel unit => simp only [serve, fulfil, Request.unit, Session.run, bind_assoc]
  | eval fuel unit =>
    simp only [serve, fulfil, Request.unit, Session.eval, Session.run, bind_assoc, pure_bind]
  | compile unit => rfl

end Request

/-- Whether a unit lowers in the scope of the session. -/
def lowers (session : Session) (unit : List Stmt) : Bool :=
  (Lowering.lowerUnit unit session.lowering).1.isOk

/-- A request, and what came of it. -/
structure Exchange where
  request : Request
  /-- Whether the unit of the request lowered. -/
  lowered : Bool
  answer : Except SessionError Answer

/-- Requests are served. -/
def serving : Feed Request where
  unit := Request.unit
  step request session := (request.serve session).2

/-- The session after requests have been served one after the other. -/
def served (session : Session) (requests : List Request) : Session :=
  serving.after session requests

/-- The nodes of the units of a history that lower. -/
def loweredNodes (session : Session) (requests : List Request) : List Node :=
  serving.lowered session requests

/-- What comes of requests that are served one after the other. -/
def exchanges (session : Session) : List Request → List Exchange
  | [] => []
  | request :: rest =>
    ⟨request, session.lowers request.unit, (request.serve session).1⟩ ::
      (request.serve session).2.exchanges rest

/-- The requests of a history whose units lower. -/
def lowerable (session : Session) (requests : List Request) : List Request :=
  ((session.exchanges requests).filter (·.lowered)).map (·.request)

theorem served_cons (session : Session) (request : Request) (rest : List Request) :
    session.served (request :: rest) = (request.serve session).2.served rest := rfl

theorem loweredNodes_cons (session : Session) (request : Request) (rest : List Request) :
    session.loweredNodes (request :: rest) =
      session.nodesOf request.unit ++ (request.serve session).2.loweredNodes rest := rfl

theorem served_append (session : Session) (earlier later : List Request) :
    session.served (earlier ++ later) = (session.served earlier).served later :=
  serving.after_append session earlier later

/-- A unit that does not lower is refused and changes nothing; one that lowers is gone on with. -/
theorem serve_cases (session : Session) (request : Request) :
    (session.lowers request.unit = false ∧
      ∃ error, request.serve session = (.error (.compile error), session)) ∨
    (session.lowers request.unit = true ∧
      ∃ nodes lowering, request.serve session =
        request.fulfil nodes { session with lowering := lowering }) := by
  rw [lowers, Request.serve_eq, Attempt.bind_run, compile]
  rcases Lowering.lowerUnit request.unit session.lowering with ⟨error | nodes, lowering⟩
  · exact .inl ⟨rfl, error, rfl⟩
  · exact .inr ⟨rfl, nodes, lowering, rfl⟩

/-- The work of the interpreter changes the machine alone. -/
theorem session_evaluate {α : Type} (work : Interpreter → Eval α) (session : Session) :
    (evaluate work session).2 =
      { session with machine := (work session.interpreter session.machine).2 } := by
  rw [evaluate]
  rcases work session.interpreter session.machine with ⟨_ | _, _⟩ <;> rfl

/-- A unit that has been lowered is evaluated, or nothing more is done with it. -/
theorem Request.session_fulfil (request : Request) (nodes : List Node) (session : Session) :
    (request.fulfil nodes session).2 = session ∨
      ∃ fuel, (request.fulfil nodes session).2 =
        { session with
          machine := (session.interpreter.evaluateUnit fuel nodes session.machine).2 } := by
  cases request with
  | compile unit => exact .inl rfl
  | run fuel unit | eval fuel unit =>
    refine .inr ⟨fuel, ?_⟩
    rw [← session_evaluate (·.evaluateUnit fuel nodes), fulfil, Attempt.bind_run]
    rcases evaluate (·.evaluateUnit fuel nodes) session with ⟨_ | _, _⟩ <;> rfl

/-- What fails of a unit that has been lowered is its evaluation. -/
theorem Request.fulfil_eq_error {request : Request} {nodes : List Node} {session : Session}
    {error : SessionError} (failed : (request.fulfil nodes session).1 = .error error) :
    ∃ fuel stop, (session.interpreter.evaluateUnit fuel nodes session.machine).1 = .error stop ∧
      error = .ofStop stop := by
  cases request with
  | compile unit => cases failed
  | run fuel unit | eval fuel unit =>
    refine ⟨fuel, ?_⟩
    rw [fulfil, Attempt.bind_run, evaluate] at failed
    cases ran : session.interpreter.evaluateUnit fuel nodes session.machine with
    | mk result machine =>
      rw [ran] at failed
      cases result with
      | error stop => exact ⟨stop, rfl, (Except.error.inj failed).symm⟩
      | ok values => cases failed

theorem Request.fulfil_ne_compile (request : Request) (nodes : List Node) (session : Session)
    (error : CompileError) : (request.fulfil nodes session).1 ≠ .error (.compile error) := by
  intro failed
  obtain ⟨fuel, stop, -, same⟩ := Request.fulfil_eq_error failed
  cases stop <;> cases same

/-- The requests that are answered with an error of lowering are those whose units do not lower. -/
theorem lowers_eq_false_iff {session : Session} {request : Request} :
    session.lowers request.unit = false ↔
      ∃ error, (request.serve session).1 = .error (.compile error) := by
  rcases session.serve_cases request with ⟨fails, error, served⟩ | ⟨lowers, nodes, lowering, served⟩
  · rw [served]
    exact ⟨fun _ => ⟨error, rfl⟩, fun _ => fails⟩
  · rw [served, lowers]
    refine ⟨nofun, ?_⟩
    rintro ⟨error, failed⟩
    exact absurd failed (request.fulfil_ne_compile nodes _ error)

theorem lowerable_cons_of_lowers {session : Session} {request : Request} {rest : List Request}
    (lowers : session.lowers request.unit = true) :
    session.lowerable (request :: rest) = request :: (request.serve session).2.lowerable rest := by
  simp [lowerable, exchanges, lowers]

theorem lowerable_cons_of_fails {session : Session} {request : Request} {rest : List Request}
    (fails : session.lowers request.unit = false) :
    session.lowerable (request :: rest) = (request.serve session).2.lowerable rest := by
  simp [lowerable, exchanges, fails]

theorem served_lowerable (session : Session) (requests : List Request) :
    session.served (session.lowerable requests) = session.served requests := by
  induction requests generalizing session with
  | nil => rfl
  | cons request rest ih =>
    rcases session.serve_cases request with ⟨fails, error, refused⟩ | ⟨lowers, -⟩
    · rw [lowerable_cons_of_fails fails, served_cons, refused]
      exact ih session
    · rw [lowerable_cons_of_lowers lowers, served_cons, served_cons, ih]

theorem exchanges_lowerable (session : Session) (requests : List Request) :
    session.exchanges (session.lowerable requests) =
      (session.exchanges requests).filter (·.lowered) := by
  induction requests generalizing session with
  | nil => rfl
  | cons request rest ih =>
    rcases session.serve_cases request with ⟨fails, error, refused⟩ | ⟨lowers, -⟩
    · have dropped : (session.exchanges (request :: rest)).filter (·.lowered) =
          (session.exchanges rest).filter (·.lowered) := by
        simp [exchanges, fails, refused]
      rw [lowerable_cons_of_fails fails, refused, dropped]
      exact ih session
    · have kept : (session.exchanges (request :: rest)).filter (·.lowered) =
          ⟨request, true, (request.serve session).1⟩ ::
            ((request.serve session).2.exchanges rest).filter (·.lowered) := by
        simp [exchanges, lowers]
      rw [lowerable_cons_of_lowers lowers, kept, exchanges, lowers, ih]

/-- Without the requests whose units do not lower, which are those that are answered with an error
of lowering, a session gives the same answers to the others, and it is the same session in the end:
its scope, the global scope and those of modules, and its output. -/
theorem refused_units_leave_no_trace (session : Session) (requests : List Request) :
    (∀ exchange ∈ session.exchanges requests,
      exchange.lowered = false ↔ ∃ error, exchange.answer = .error (.compile error)) ∧
    session.exchanges (session.lowerable requests) =
      (session.exchanges requests).filter (·.lowered) ∧
    session.served (session.lowerable requests) = session.served requests := by
  refine ⟨?_, session.exchanges_lowerable requests, session.served_lowerable requests⟩
  induction requests generalizing session with
  | nil => exact List.forall_mem_nil _
  | cons request rest ih =>
    exact List.forall_mem_cons.mpr ⟨lowers_eq_false_iff, ih (request.serve session).2⟩

/-- A function that lowers, behind it one with an unknown name in a block of its body. -/
def halfLowered : List Stmt :=
  Lowering.doubling ++
    [.expr (.function ⟨4⟩ none "lost" ⟨[], none⟩ [.block ⟨5⟩ [.expr (.name ⟨6⟩ "missing")]])]

def halfLoweredRequests : List Request :=
  [.run 9 halfLowered, .eval 9 Lowering.doubling, .compile Lowering.doubling]

theorem lowered_halfLoweredRequests :
    (start .silent).toOption.map (fun session =>
      (session.exchanges halfLoweredRequests).map (·.lowered)) = some [false, true, true] := by
  decide +kernel

theorem refused_units_leave_no_trace_halfLowered :
    ((Lowering.lowerUnit halfLowered freshLowering).2.scope.overloads "double").length = 1 ∧
      ∃ session, start .silent = .ok session ∧
        (∃ exchange ∈ session.exchanges halfLoweredRequests, exchange.lowered = false ∧
          ∃ error, exchange.answer = .error (.compile error)) ∧
        session.lowerable halfLoweredRequests =
          [.eval 9 Lowering.doubling, .compile Lowering.doubling] ∧
        session.served (session.lowerable halfLoweredRequests) =
          session.served halfLoweredRequests := by
  refine ⟨by decide +kernel, ?_⟩
  obtain ⟨session, started, flags⟩ := exists_start_of_computed lowered_halfLoweredRequests
  simp only [exchanges, halfLoweredRequests, List.map, List.cons.injEq] at flags
  obtain ⟨fails, second, third, -⟩ := flags
  obtain ⟨answers, -, same⟩ := session.refused_units_leave_no_trace halfLoweredRequests
  have refused := (answers _ List.mem_cons_self).mp fails
  refine ⟨session, started, ⟨_, List.mem_cons_self, fails, refused⟩, ?_, same⟩
  simp [lowerable, exchanges, halfLoweredRequests, fails, second, third]

end ScriptCore.Session
