import ScriptCore.Proofs.Lowering.Stack
import ScriptCore.Proofs.Session.Requests

/-!
# Overloads persist

The scope of a session is only added to, by whatever it is asked to do. An overload that is visible
in a session therefore keeps its indexed name and its type.
-/
namespace ScriptCore.Session

/-- Lowering alone changes the scope of a session. -/
theorem lowering_fulfil (request : Request) (nodes : List Node) (session : Session) :
    (request.fulfil nodes session).2.lowering = session.lowering := by
  rcases request.session_fulfil nodes session with same | ⟨fuel, same⟩
  · rw [same]
  · rw [same]

/-- What a request leaves of the scope: the one from before, or that behind its unit. -/
theorem lowering_serve (session : Session) (request : Request) :
    (request.serve session).2.lowering = session.lowering ∨
      ∃ nodes, Lowering.lowerUnit request.unit session.lowering =
        (.ok nodes, (request.serve session).2.lowering) := by
  rw [Request.serve_eq, Attempt.bind_run, compile]
  cases lowered : Lowering.lowerUnit request.unit session.lowering with
  | mk result lowering =>
    cases result with
    | error error => exact .inl rfl
    | ok nodes =>
      refine .inr ⟨nodes, ?_⟩
      simp only
      rw [lowering_fulfil]

theorem extends_serve (session : Session) (request : Request) :
    session.scope.Extends (request.serve session).2.scope := by
  rcases session.lowering_serve request with same | ⟨nodes, lowered⟩
  · rw [scope, scope, same]
    exact .refl _
  · have extended := Lowering.extends_lowerStmts none request.unit session.lowering
    rw [← Lowering.lowerUnit, lowered] at extended
    exact extended

theorem extends_served (session : Session) (requests : List Request) :
    session.scope.Extends (session.served requests).scope :=
  serving.kept (P := fun later => session.scope.Extends later.scope) (.refl _)
    (fun later request extended => extended.trans (later.extends_serve request)) requests

/-- However lowering ends, the scope has as many frames as before, those around the innermost one
are unchanged, and the innermost one has only been added to; behind a block and behind a body with
a frame of its own the scope is the one from before. So what is visible in a session of an overload,
its indexed name and its type, is visible after every request to it. -/
theorem lowering_keeps_frames :
    (∀ (r : Option Ty) (piece : Lowering.Piece) (s : Lowering.State),
      (piece.leaves r s).scope.depth = s.scope.depth ∧
        s.scope.Extends (piece.leaves r s).scope) ∧
    (∀ (r : Option Ty) (line : Line) (body : List Stmt) (s : Lowering.State),
      (Lowering.lowerStmt r (.block line body) s).2.scope = s.scope ∧
        (Lowering.inFrame (Lowering.lowerStmts r body) s).2.scope = s.scope) ∧
    ∀ (session : Session) (requests : List Request) (name : String),
      (session.scope.overloads name).Sublist ((session.served requests).scope.overloads name) ∧
        ∀ receiver, (session.scope.extensions receiver name).Sublist
          ((session.served requests).scope.extensions receiver name) := by
  refine ⟨fun r piece s => ?_, fun r line body s => ?_, fun session requests name => ?_⟩
  · have extended := piece.extends_leaves r s
    exact ⟨extended.depth_eq, extended⟩
  · exact ⟨Lowering.scope_lowerBlock r line body s,
      Lowering.scope_inFrame (Lowering.extends_lowerStmts r body) s⟩
  · have extended := session.extends_served requests
    refine ⟨extended.overloads_sublist name, fun receiver => ?_⟩
    exact extended.extensions_sublist receiver name

end ScriptCore.Session
