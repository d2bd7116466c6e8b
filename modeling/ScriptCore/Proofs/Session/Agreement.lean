import ScriptCore.Proofs.Eval.Straight
import ScriptCore.Proofs.Session.Overloads
import ScriptCore.Proofs.Session.Persistence
import ScriptCore.Proofs.Session.TypeSafety

/-!
# Scope and environment agree

A unit enters the scope as a whole when it has lowered, and the environment statement by statement
as it runs. A unit that stops midway leaves names in the scope that are not bound, and these do no
harm. What does is a name that is bound already and is declared anew with a type that does not
accept the old one: the scope takes the new type, and the environment refuses the new value. As long
as no unit does so, the type in the scope accepts the value of every bound variable
(`scope_agrees_with_environment`).
-/
namespace ScriptCore

namespace Scope

/-- The frame of the declarations outside of all blocks and functions. -/
def root (scope : Scope) : Frame := scope.frames.getLast (List.cons_ne_nil _ _)

end Scope

namespace Builtin

theorem reserved_builtin : Reserved .builtin := by
  rintro made known index type ⟨⟨other, same⟩, rfl⟩
  have render := (overloadName_inj same).1
  simp only [Builtin.classes, List.mem_cons, List.not_mem_nil, or_false] at known
  rcases known with rfl | rfl | rfl | rfl | rfl
  · exact ⟨rfl, rfl⟩
  all_goals exact absurd render (by decide)

end Builtin

namespace Session

/-- The types that the scope has for the variables that are bound in the global scope. -/
def known (session : Session) : Known := fun name =>
  if session.machine.store.contains session.interpreter.global name then
    (session.scope.lookup name).toOption
  else none

/-- Whether no request has a unit that lowers and declares a name with a type that does not accept
the one it is bound with when the unit begins, or has been declared with before in the unit. -/
def keepsTypes (session : Session) : List Request → Bool
  | [] => true
  | request :: rest =>
    session.known.keepsTypes (session.nodesOf request.unit) &&
      (request.serve session).2.keepsTypes rest

/-- A scope with the types of all that is bound. -/
structure Agrees (session : Session) : Prop where
  offers : Lowering.OffersBuiltins session.scope
  store : session.machine.heap.Agrees session.interpreter.global session.known

theorem hasTypes_known (session : Session) : Lowering.HasTypes session.scope session.known := by
  intro name type there
  rw [known] at there
  split at there
  · cases found : session.scope.lookup name with
    | ok other =>
      rw [found] at there
      exact congrArg Except.ok (Option.some.inj there)
    | error e =>
      rw [found] at there
      cases there
  · cases there

/-- What is known of the one frame is what the scope has for the names that are bound there. -/
theorem Agrees.of_known {session : Session} {known : Known}
    (offers : Lowering.OffersBuiltins session.scope) (has : Lowering.HasTypes session.scope known)
    (agrees : session.machine.heap.Agrees session.interpreter.global known) : session.Agrees := by
  refine ⟨offers, agrees.sound, agrees.only, fun location frame there name value found => ?_⟩
  obtain ⟨type, isKnown, accepted⟩ := agrees.values location frame there name value found
  refine ⟨type, ?_, accepted⟩
  obtain rfl := agrees.only location frame there
  have bound : session.machine.store.contains session.interpreter.global name = true := by
    obtain ⟨binding, here, -⟩ := Option.map_eq_some_iff.mp found
    have own : session.machine.store.frame session.interpreter.global = frame :=
      Store.frame_of_frame? there
    rw [Store.contains, own, Table.contains, here]
    rfl
  rw [Session.known, if_pos bound, has name type isKnown]
  rfl

theorem Agrees.serve {session : Session} (agrees : session.Agrees) {request : Request}
    (straight : ∀ stmt ∈ request.unit, stmt.isStraight = true)
    (kept : session.known.keepsTypes (session.nodesOf request.unit) = true) :
    (request.serve session).2.Agrees := by
  rw [Request.serve_eq, Attempt.bind_run, compile]
  rw [nodesOf_eq] at kept
  cases lowers : Lowering.lowerUnit request.unit session.lowering with
  | mk result lowering =>
    cases result with
    | error error => exact agrees
    | ok nodes =>
      rw [lowers] at kept
      have derived := Lowering.lowers_of_lowerStmts lowers
      obtain ⟨offers, has⟩ := derived.straight_scope straight agrees.offers session.hasTypes_known
      rcases request.session_fulfil nodes { session with lowering := lowering } with
        same | ⟨fuel, same⟩
      · simp only [same]
        exact .of_known offers has (agrees.store.mono (Known.within_behind kept))
      · simp only [same]
        refine .of_known offers has ?_
        exact Eval.Triple.ends (derived.agrees_unit straight agrees.offers session.hasTypes_known
          kept fuel) agrees.store

theorem Agrees.served {session : Session} (agrees : session.Agrees) {requests : List Request}
    (straight : ∀ request ∈ requests, ∀ stmt ∈ request.unit, stmt.isStraight = true)
    (kept : session.keepsTypes requests = true) : (session.served requests).Agrees := by
  induction requests generalizing session with
  | nil => exact agrees
  | cons request rest ih =>
    obtain ⟨first, others⟩ := List.forall_mem_cons.mp straight
    simp only [keepsTypes, Bool.and_eq_true] at kept
    exact ih (agrees.serve first kept.1) others kept.2

end Session

end ScriptCore
