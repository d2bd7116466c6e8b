import ScriptCore.Proofs.Eval.Triple
import ScriptCore.Proofs.Node.Parts
import ScriptCore.Session

/-!
# Histories of a session

A session is given one unit after the other. Whatever it does with a unit, a history leaves behind
the last session, and the nodes of those units that lowered, each in the session that it met
(`Feed`). What holds at the start and is carried on by each step holds of the two in the end
(`Feed.carried`). A history in the narrow sense is the units that are run, each with its fuel.
-/
namespace ScriptCore.Session

theorem eq_ok_of_toOption {ε α : Type} {result : Except ε α} {value : α}
    (shown : result.toOption = some value) : result = .ok value := by
  cases result with
  | error error => cases shown
  | ok other => exact congrArg Except.ok (Option.some.inj shown)

theorem isOk_iff {ε α : Type} {result : Except ε α} :
    result.isOk = true ↔ ∃ value, result = .ok value := by
  cases result with
  | error error => exact ⟨nofun, nofun⟩
  | ok value => exact ⟨fun _ => ⟨value, rfl⟩, fun _ => rfl⟩

def errorOf? {α : Type} : Except SessionError α → Option SessionError
  | .ok _ => none
  | .error error => some error

theorem eq_error_of_errorOf? {α : Type} {result : Except SessionError α} {error : SessionError}
    (failed : errorOf? result = some error) : result = .error error := by
  cases result with
  | ok value => cases failed
  | error other => exact congrArg Except.error (Option.some.inj failed)

/-- The nodes of a unit, if it lowers. -/
def nodesOf (session : Session) (unit : List Stmt) : List Node :=
  (compile unit session).1.toOption.getD []

theorem nodesOf_eq (session : Session) (unit : List Stmt) :
    session.nodesOf unit = (Lowering.lowerUnit unit session.lowering).1.toOption.getD [] := by
  rw [nodesOf, compile]
  rcases Lowering.lowerUnit unit session.lowering with ⟨_ | _, _⟩ <;> rfl

theorem nodesOf_eq_of_ok {session : Session} {unit : List Stmt} {nodes : List Node}
    (compiled : (compile unit session).1 = .ok nodes) : session.nodesOf unit = nodes := by
  rw [nodesOf, compiled]
  rfl

/-- A way of giving units to a session: the unit in each thing that is given, and the session that
it leaves behind. -/
structure Feed (α : Type) where
  unit : α → List Stmt
  step : α → Session → Session

namespace Feed

variable {α : Type}

/-- The session after all that it has been given. -/
def after (feed : Feed α) (session : Session) (given : List α) : Session :=
  given.foldl (fun session one => feed.step one session) session

/-- The nodes of the units that lower, each in the session that it meets. -/
def lowered (feed : Feed α) (session : Session) : List α → List Node
  | [] => []
  | one :: rest => session.nodesOf (feed.unit one) ++ feed.lowered (feed.step one session) rest

variable (feed : Feed α) (session : Session) (one : α) (rest earlier later : List α)

theorem after_cons : feed.after session (one :: rest) = feed.after (feed.step one session) rest :=
  rfl

theorem after_append :
    feed.after session (earlier ++ later) = feed.after (feed.after session earlier) later :=
  List.foldl_append

theorem lowered_append :
    feed.lowered session (earlier ++ later) =
      feed.lowered session earlier ++ feed.lowered (feed.after session earlier) later := by
  induction earlier generalizing session with
  | nil => rfl
  | cons one rest ih => rw [List.cons_append, lowered, lowered, ih, after_cons, List.append_assoc]

variable {session}

/-- What holds of the nodes so far and of the session, and is carried on by every step, holds of all
the nodes and of the last session. -/
theorem carried {P : List Node → Session → Prop} (now : P [] session)
    (carry : ∀ nodes session one, P nodes session →
      P (nodes ++ session.nodesOf (feed.unit one)) (feed.step one session)) (given : List α) :
    P (feed.lowered session given) (feed.after session given) := by
  -- for any nodes so far, since the induction goes on behind the nodes of the first step
  have behind : ∀ given nodes session, P nodes session →
      P (nodes ++ feed.lowered session given) (feed.after session given) := by
    intro given
    induction given with
    | nil =>
      intro nodes session holds
      rwa [lowered, List.append_nil]
    | cons one rest ih =>
      intro nodes session holds
      rw [lowered, ← List.append_assoc]
      exact ih _ _ (carry nodes session one holds)
  exact behind given [] session now

/-- What every step keeps of the session holds of the last one. -/
theorem kept {P : Session → Prop} (now : P session)
    (keep : ∀ session one, P session → P (feed.step one session)) (given : List α) :
    P (feed.after session given) :=
  feed.carried (P := fun _ => P) now (fun _ => keep) given

end Feed

abbrev History := List (Nat × List Stmt)

/-- Units are run. -/
def running : Feed (Nat × List Stmt) where
  unit := Prod.snd
  step submitted session := (run submitted.1 submitted.2 session).2

/-- The session after a history. -/
def after (session : Session) (history : History) : Session := running.after session history

/-- The nodes of all units of a history that lower. -/
def lowered (session : Session) (history : History) : List Node := running.lowered session history

theorem lowered_append (session : Session) (earlier later : History) :
    session.lowered (earlier ++ later) =
      session.lowered earlier ++ (session.after earlier).lowered later :=
  running.lowered_append session earlier later

/-- A unit that does not lower changes nothing; one that lowers is evaluated with the declarations
that it added. -/
theorem run_cases (session : Session) (fuel : Nat) (unit : List Stmt) :
    (∃ error, (compile unit session).1 = .error (.compile error) ∧
      run fuel unit session = (.error (.compile error), session)) ∨
    ∃ nodes lowering, Lowering.lowerUnit unit session.lowering = (.ok nodes, lowering) ∧
      (compile unit session).1 = .ok nodes ∧
      run fuel unit session =
        evaluate (·.evaluateUnit fuel nodes) { session with lowering := lowering } := by
  simp only [run, compile, Attempt.bind_run]
  rcases Lowering.lowerUnit unit session.lowering with ⟨error | nodes, lowering⟩
  · exact .inl ⟨error, rfl, rfl⟩
  · exact .inr ⟨nodes, lowering, rfl, rfl, rfl⟩

theorem lowers_of_compile {session : Session} {unit : List Stmt} {nodes : List Node}
    (compiled : (compile unit session).1 = .ok nodes) (fuel : Nat) :
    ∃ lowering, Lowering.lowerUnit unit session.lowering = (.ok nodes, lowering) ∧
      run fuel unit session =
        evaluate (·.evaluateUnit fuel nodes) { session with lowering := lowering } := by
  rcases run_cases session fuel unit with ⟨error, failed, -⟩ | ⟨_, lowering, lowers, lowered, ran⟩
  · rw [failed] at compiled
    cases compiled
  · obtain rfl := Except.ok.inj (lowered.symm.trans compiled)
    exact ⟨lowering, lowers, ran⟩

/-- Whatever a triple says of the work of the interpreter holds of the machine that is left behind;
the rest of the session is as before. -/
theorem evaluate_cases {α : Type} (work : Interpreter → Eval α) (session : Session)
    {before : Store → Prop} {after : α → Store → Prop} {stops : Stops}
    (triple : Eval.Triple before (work session.interpreter) after stops)
    (held : before session.machine.heap) :
    ∃ machine, (evaluate work session).2 = { session with machine := machine } ∧
      ((∃ a, (evaluate work session).1 = .ok a ∧ after a machine.heap) ∨
        ∃ stop, (evaluate work session).1 = .error (.ofStop stop) ∧
          stops.holds stop machine.heap) := by
  rw [evaluate]
  rcases done : work session.interpreter session.machine with ⟨stop | a, machine⟩
  · have stopped := triple.of_error held (congrArg Prod.fst done)
    rw [done] at stopped
    exact ⟨machine, rfl, .inr ⟨stop, rfl, stopped⟩⟩
  · have ended := triple.of_ok held (congrArg Prod.fst done)
    rw [done] at ended
    exact ⟨machine, rfl, .inl ⟨a, rfl, ended⟩⟩

theorem ok_of_evaluate {α : Type} {work : Interpreter → Eval α} {session : Session} {a : α}
    (done : (evaluate work session).1 = .ok a) :
    (work session.interpreter session.machine).1 = .ok a := by
  rw [evaluate] at done
  revert done
  rcases work session.interpreter session.machine with ⟨_ | _, _⟩ <;> intro done <;> cases done
  rfl

theorem lowering_evaluate {α : Type} {work : Interpreter → Eval α} {session : Session} :
    (evaluate work session).2.lowering = session.lowering := by
  rw [evaluate]
  split <;> rfl

end ScriptCore.Session
