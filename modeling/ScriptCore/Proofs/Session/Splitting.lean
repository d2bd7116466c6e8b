import ScriptCore.Proofs.Session.History
import ScriptCore.Proofs.Session.Modules

/-!
# Splitting a unit

A unit can be given to a session in two parts. The scope of lowering and the ids of declarations go
on from the first part to the second, and what evaluation holds on to on behalf of the first part
makes no difference to the second. Only the scope that evaluation has come to does not carry over:
if the first part has opened a module, the second one has to open it again.
-/
namespace ScriptCore

open Eval

/-- What a step that cannot fail adds to a result. -/
theorem Attempt.bind_pure_run {σ ε α β : Type} (x : Attempt σ ε α) (f : α → β) (s : σ) :
    (x >>= fun a => pure (f a)) s = ((x s).1.map f, (x s).2) := by
  rw [bind_run]
  rcases x s with ⟨_ | _, _⟩ <;> rfl

/-- The module that statements open last. -/
def Stmt.lastModule? (unit : List Stmt) : Option String := (unit.filterMap Stmt.opens?).getLast?

/-- The module that nodes open last. -/
def Node.lastModule? (unit : List Node) : Option String := (unit.filterMap Node.opens?).getLast?

namespace Node

theorem lastModule?_cons (node : Node) (rest : List Node) :
    lastModule? (node :: rest) = (lastModule? rest).or node.opens? := by
  rw [lastModule?, lastModule?, List.filterMap_cons]
  cases opened : node.opens? with
  | none => exact (Option.or_none).symm
  | some name =>
    rw [List.getLast?_cons]
    cases (rest.filterMap opens?).getLast? <;> rfl

theorem lastModule?_singleton {node : Node} (other : ∀ tag name, node ≠ .openModule tag name) :
    lastModule? [node] = none := by
  cases node with
  | openModule tag name => exact absurd rfl (other tag name)
  | _ => rfl

end Node

namespace Lowering

/-- Statements lower as their two parts do, one behind the other. -/
theorem lowerStmts_append (r : Option Ty) (first second : List Stmt) :
    lowerStmts r (first ++ second) = (do
      let nodes ← lowerStmts r first
      let others ← lowerStmts r second
      return nodes ++ others) := by
  induction first with
  | nil =>
    rw [List.nil_append, lowerStmts, pure_bind]
    exact (bind_pure _).symm
  | cons stmt rest ih =>
    rw [List.cons_append, lowerStmts, lowerStmts, ih]
    simp only [bind_assoc, pure_bind, List.cons_append]

theorem lowerUnit_append {first second : List Stmt} {s s' : State} {nodes : List Node}
    (lowered : lowerUnit (first ++ second) s = (.ok nodes, s')) :
    ∃ before behind s₁, lowerUnit first s = (.ok before, s₁) ∧
      lowerUnit second s₁ = (.ok behind, s') ∧ before ++ behind = nodes := by
  rw [lowerUnit, lowerStmts_append, Attempt.bind_eq_ok] at lowered
  obtain ⟨before, s₁, first, lowered⟩ := lowered
  obtain ⟨behind, s₂, second, lowered⟩ := Attempt.bind_eq_ok.mp lowered
  obtain ⟨rfl, rfl⟩ := Attempt.pure_eq_ok.mp lowered
  exact ⟨before, behind, s₁, first, second, rfl⟩

theorem lowerUnit_openModule {unit : List Stmt} {s s' : State} {nodes : List Node} {line : Line}
    {name : String} (lowered : lowerUnit unit s = (.ok nodes, s')) :
    lowerUnit (.openModule line name :: unit) s =
      (.ok (.openModule ⟨.unit, line⟩ name :: nodes), s') := by
  rw [lowerUnit, lowerStmts, lowerStmt, pure_bind]
  exact Attempt.bind_ok lowered

theorem lastModule?_lowerUnit {unit : List Stmt} {s s' : State} {nodes : List Node}
    (lowered : lowerUnit unit s = (.ok nodes, s')) :
    Node.lastModule? nodes = Stmt.lastModule? unit := by
  rw [Node.lastModule?, Stmt.lastModule?, (lowers_of_lowerStmts lowered).opens]

end Lowering

namespace Interpreter

/-- Where a unit that starts in `target` has come to when it ends: to the module that it has opened
last, if it has opened any. -/
def Lands (unit : List Node) (target : Location) (store : Store) (target' : Location) : Prop :=
  match Node.lastModule? unit with
  | none => target' = target
  | some name => store.modules.get? name = some target'

variable {interpreter : Interpreter} {start : Store} {fuel : Nat} {target location : Location}
  {node : Node} {first second rest : List Node} {m m₁ : Machine} {tag : Tag} {name : String}

/-- A unit comes to where the nodes behind its first one come to. -/
theorem Lands.cons {store store' : Store} {target₁ target' : Location}
    (first : Lands [node] target store target₁) (keeps : store.KeepsModules store')
    (others : Lands rest target₁ store' target') : Lands (node :: rest) target store' target' := by
  rw [Lands, Node.lastModule?_cons] at first ⊢
  rw [Lands] at others
  cases last : Node.lastModule? rest with
  | some name =>
    rw [last] at others
    exact others
  | none =>
    rw [last] at others
    obtain rfl := others
    rw [Option.none_or]
    cases opened : node.opens? with
    | none =>
      rw [opened] at first
      exact first
    | some name =>
      rw [opened] at first
      exact keeps name _ first

theorem LinkedAt.here {heap : Store} (now : interpreter.LinkedAt start target heap) :
    interpreter.LinkedAt heap target heap :=
  ⟨now.linked, .refl, now.inside⟩

theorem evaluateFrom_module
    (opened : Eval.onLine tag.line (Eval.openModule name interpreter.global) m =
      (.ok location, m₁)) :
    interpreter.evaluateFrom fuel target (.openModule tag name :: rest) m =
      ((interpreter.evaluateFrom fuel location rest m₁).1.map (.unit :: ·),
        (interpreter.evaluateFrom fuel location rest m₁).2) := by
  rw [evaluateFrom, Attempt.bind_ok opened]
  exact Attempt.bind_pure_run _ _ _

/-- The rest of a unit of a linked machine goes on as if nothing were held. -/
theorem evaluateFrom_node (hosts : interpreter.natives = Native.standard)
    (plain : Node.Plain rest) (other : ∀ tag name, node ≠ .openModule tag name)
    (now : interpreter.LinkedAt start target m₁.heap) {value : Value}
    (ran : Eval.uncaught node.line (interpreter.evaluate fuel node target) m = (.ok value, m₁)) :
    interpreter.evaluateFrom fuel target (node :: rest) m =
      ((interpreter.evaluateFrom fuel target rest m₁).1.map (value :: ·),
        (interpreter.evaluateFrom fuel target rest m₁).2) := by
  have held := (alike_evaluateFrom hosts fuel plain target).holding_eq now value.kept
  rw [evaluateFrom_cons other, Attempt.bind_ok ran, Attempt.bind_pure_run, held]

/-- What the machine is like behind a node of a unit. -/
theorem linked_uncaught (hosts : interpreter.natives = Native.standard)
    (now : interpreter.LinkedAt start target m.heap) {value : Value}
    (ran : Eval.uncaught node.line (interpreter.evaluate fuel node target) m = (.ok value, m₁)) :
    interpreter.LinkedAt start target m₁.heap := by
  have keeps : Keeps (interpreter.LinkedAt start target)
      (Eval.uncaught node.line (interpreter.evaluate fuel node target)) :=
    Triple.uncaught (linking_evaluate hosts fuel node start target)
  have after := keeps.ends now
  rwa [ran] at after

theorem linked_opened (now : interpreter.LinkedAt start target m.heap)
    (opened : Eval.onLine tag.line (Eval.openModule name interpreter.global) m =
      (.ok location, m₁)) :
    interpreter.LinkedAt start location m₁.heap ∧ m₁.store.modules.get? name = some location := by
  have after := (Triple.onLine (Triple.any (linked_openModule name))).of_ok now.global
    (congrArg Prod.fst opened)
  rw [opened] at after
  exact ⟨after.1.module after.2, after.2⟩

/-- What the first node of a unit of a linked machine does: it stops the unit, whatever is behind
it, or the unit goes on behind it. -/
theorem evaluateFrom_first (hosts : interpreter.natives = Native.standard) (fuel : Nat)
    (node : Node) (now : interpreter.LinkedAt start target m.heap) :
    (∃ stop m', ∀ rest, interpreter.evaluateFrom fuel target (node :: rest) m =
      (.error stop, m')) ∨
    ∃ value target₁ m₁, interpreter.LinkedAt start target₁ m₁.heap ∧
      Lands [node] target m₁.store target₁ ∧ ∀ rest, Node.Plain rest →
        interpreter.evaluateFrom fuel target (node :: rest) m =
          ((interpreter.evaluateFrom fuel target₁ rest m₁).1.map (value :: ·),
            (interpreter.evaluateFrom fuel target₁ rest m₁).2) := by
  by_cases opens : ∃ tag name, node = .openModule tag name
  · obtain ⟨tag, name, rfl⟩ := opens
    rcases opened : Eval.onLine tag.line (Eval.openModule name interpreter.global) m with
      ⟨stop | location, m₁⟩
    · refine .inl ⟨stop, m₁, fun rest => ?_⟩
      rw [evaluateFrom]
      exact Attempt.bind_error opened
    · have after := linked_opened now opened
      exact .inr ⟨.unit, location, m₁, after.1, after.2, fun _ _ => evaluateFrom_module opened⟩
  · have other : ∀ tag name, node ≠ .openModule tag name :=
      fun tag name same => opens ⟨tag, name, same⟩
    rcases ran : Eval.uncaught node.line (interpreter.evaluate fuel node target) m with
      ⟨stop | value, m₁⟩
    · refine .inl ⟨stop, m₁, fun rest => ?_⟩
      rw [evaluateFrom_cons other]
      exact Attempt.bind_error ran
    · have after := linked_uncaught hosts now ran
      refine .inr ⟨value, target, m₁, after, ?_, fun rest plain =>
        evaluateFrom_node hosts plain other after ran⟩
      rw [Lands, Node.lastModule?_singleton other]

/-- A unit that stops does so also with more nodes behind it. -/
theorem evaluateFrom_append_of_error (hosts : interpreter.natives = Native.standard)
    (plain : Node.Plain (first ++ second)) (now : interpreter.LinkedAt start target m.heap)
    {stop : Stop} {m' : Machine}
    (ran : interpreter.evaluateFrom fuel target first m = (.error stop, m')) :
    interpreter.evaluateFrom fuel target (first ++ second) m = (.error stop, m') := by
  induction first generalizing target m with
  | nil =>
    rw [evaluateFrom] at ran
    cases ran
  | cons node rest ih =>
    obtain ⟨-, tail : Node.Plain (rest ++ second)⟩ := Node.plain_cons.mp plain
    rw [List.cons_append]
    obtain ⟨other, m₁, stops⟩ | ⟨value, target₁, m₁, now₁, -, onwards⟩ :=
      evaluateFrom_first hosts fuel node now
    · rw [stops] at ran ⊢
      exact ran
    · rw [onwards _ (Node.plain_append.mp tail).1] at ran
      rw [onwards _ tail]
      rcases left : interpreter.evaluateFrom fuel target₁ rest m₁ with ⟨other | values, m₂⟩
      · rw [left] at ran
        obtain ⟨stopped, rfl⟩ := Prod.mk.inj ran
        cases stopped
        rw [ih tail now₁ left]
        rfl
      · rw [left] at ran
        cases ran

/-- Behind a unit that ends others go on where it has come to. -/
theorem evaluateFrom_append_of_ok (hosts : interpreter.natives = Native.standard)
    (plain : Node.Plain first) (now : interpreter.LinkedAt m.heap target m.heap)
    {values : List Value} {m' : Machine}
    (ran : interpreter.evaluateFrom fuel target first m = (.ok values, m')) :
    ∃ target', interpreter.LinkedAt m.heap target' m'.heap ∧ Lands first target m'.store target' ∧
      ∀ second, Node.Plain second → interpreter.evaluateFrom fuel target (first ++ second) m =
        ((interpreter.evaluateFrom fuel target' second m').1.map (values ++ ·),
          (interpreter.evaluateFrom fuel target' second m').2) := by
  induction first generalizing target m values with
  | nil =>
    rw [evaluateFrom] at ran
    obtain ⟨rfl, rfl⟩ := Attempt.pure_eq_ok.mp ran
    refine ⟨target, now, rfl, fun second _ => ?_⟩
    rw [List.nil_append]
    rcases interpreter.evaluateFrom fuel target second m with ⟨_ | _, _⟩ <;> rfl
  | cons node rest ih =>
    obtain ⟨-, tail⟩ := Node.plain_cons.mp plain
    obtain ⟨other, m₁, stops⟩ | ⟨value, target₁, m₁, now₁, lands₁, onwards⟩ :=
      evaluateFrom_first hosts fuel node now
    · rw [stops] at ran
      cases ran
    · rw [onwards _ tail] at ran
      rcases left : interpreter.evaluateFrom fuel target₁ rest m₁ with ⟨_ | others, m₂⟩
      · rw [left] at ran
        cases ran
      · rw [left] at ran
        obtain ⟨ended, rfl⟩ := Prod.mk.inj ran
        cases ended
        obtain ⟨target', now', lands, equal⟩ := ih tail now₁.here left
        refine ⟨target', ⟨now'.linked, now₁.modules.trans now'.modules, now'.inside⟩,
          lands₁.cons now'.modules lands, fun second behind => ?_⟩
        rw [List.cons_append, onwards _ (Node.plain_append.mpr ⟨tail, behind⟩), equal second behind]
        rcases interpreter.evaluateFrom fuel target' second m₂ with ⟨_ | _, _⟩ <;> rfl

/-- A module that is there is opened again without any change. -/
theorem openModule_again (now : interpreter.LinkedAt start target m.heap)
    (known : m.store.modules.get? name = some location) :
    Eval.openModule name interpreter.global m = (.ok location, m) := by
  have linked := Store.linked_heap.mp now.linked
  have isGlobal : (m.store.frame interpreter.global).isGlobal = true :=
    (linked.isGlobal_iff linked.lt_next).mpr rfl
  have ran : Store.openModule name interpreter.global m.store = (.ok location, m.store) := by
    rw [Store.openModule, if_pos isGlobal, known]
  obtain ⟨store, output, stamp⟩ := m
  rw [Eval.openModule, Eval.onStore, ran]

end Interpreter

namespace Session

/-- A unit that lowers is evaluated on the machine of the session. -/
theorem run_eq {session : Session} {unit : List Stmt} {nodes : List Node}
    {lowering : Lowering.State}
    (lowered : Lowering.lowerUnit unit session.lowering = (.ok nodes, lowering)) (fuel : Nat) :
    run fuel unit session =
      ((session.interpreter.evaluateUnit fuel nodes session.machine).1.mapError .ofStop,
        ⟨lowering, session.interpreter,
          (session.interpreter.evaluateUnit fuel nodes session.machine).2⟩) := by
  have compiled : compile unit session = (.ok nodes, { session with lowering := lowering }) := by
    rw [compile, lowered]
  rw [run, Attempt.bind_ok compiled, evaluate]
  rcases session.interpreter.evaluateUnit fuel nodes session.machine with ⟨_ | _, _⟩ <;> rfl

variable {session middle : Session} {first second : List Stmt} {fuel : Nat}

/-- The two parts of a unit that lowers lower one after the other. -/
theorem exists_of_lowers (lowers : session.lowers (first ++ second) = true) :
    ∃ before behind lowering lowering',
      Lowering.lowerUnit first session.lowering = (.ok before, lowering) ∧
      Lowering.lowerUnit second lowering = (.ok behind, lowering') ∧
      Lowering.lowerUnit (first ++ second) session.lowering =
        (.ok (before ++ behind), lowering') := by
  rcases lowered : Lowering.lowerUnit (first ++ second) session.lowering with
    ⟨error | nodes, lowering'⟩
  · rw [Session.lowers, lowered] at lowers
    cases lowers
  · obtain ⟨before, behind, lowering, first, second, rfl⟩ := Lowering.lowerUnit_append lowered
    exact ⟨before, behind, lowering, lowering', first, second, rfl⟩

section Parts

variable (hosts : session.interpreter.natives = Native.standard)
  (linked : session.machine.heap.Linked session.interpreter.global)
  (lowers : session.lowers (first ++ second) = true)

include hosts linked lowers

theorem run_append_of_error {error : SessionError}
    (ran : run fuel first session = (.error error, middle)) :
    (run fuel (first ++ second) session).1 = .error error ∧
      (run fuel (first ++ second) session).2.machine = middle.machine := by
  obtain ⟨before, behind, lowering, lowering', lowered, -, together⟩ := exists_of_lowers lowers
  have plain := Lowering.plain_lowerUnit together
  have now : session.interpreter.LinkedAt session.machine.heap session.interpreter.global
      session.machine.heap := ⟨linked, .refl, linked.lt_next⟩
  rw [run_eq lowered] at ran
  rcases left : session.interpreter.evaluateUnit fuel before session.machine with
    ⟨stop | values, m⟩
  · rw [left] at ran
    obtain ⟨stopped, rfl⟩ := Prod.mk.inj ran
    have stops := Interpreter.evaluateFrom_append_of_error hosts plain now left
    rw [run_eq together, Interpreter.evaluateUnit, stops]
    exact ⟨stopped, rfl⟩
  · rw [left] at ran
    cases ran

/-- Behind a first part that ends the second one goes on where that has come to. -/
theorem run_append_of_ok {values : List Value}
    (ran : run fuel first session = (.ok values, middle)) :
    ∃ behind lowering' target, middle.interpreter = session.interpreter ∧
      Lowering.lowerUnit second middle.lowering = (.ok behind, lowering') ∧
      session.interpreter.LinkedAt session.machine.heap target middle.machine.heap ∧
      (match Stmt.lastModule? first with
        | none => target = session.interpreter.global
        | some name => middle.module? name = some target) ∧
      run fuel (first ++ second) session =
        (((session.interpreter.evaluateFrom fuel target behind middle.machine).1.mapError
            SessionError.ofStop).map (values ++ ·),
          ⟨lowering', session.interpreter,
            (session.interpreter.evaluateFrom fuel target behind middle.machine).2⟩) := by
  obtain ⟨before, behind, lowering, lowering', lowered, others, together⟩ :=
    exists_of_lowers lowers
  have plain := Node.plain_append.mp (Lowering.plain_lowerUnit together)
  have now : session.interpreter.LinkedAt session.machine.heap session.interpreter.global
      session.machine.heap := ⟨linked, .refl, linked.lt_next⟩
  rw [run_eq lowered] at ran
  rcases left : session.interpreter.evaluateUnit fuel before session.machine with
    ⟨stop | ended, m⟩
  · rw [left] at ran
    cases ran
  · rw [left] at ran
    cases ran
    obtain ⟨target, now', lands, onwards⟩ :=
      Interpreter.evaluateFrom_append_of_ok hosts plain.1 now left
    rw [Interpreter.Lands, Lowering.lastModule?_lowerUnit lowered] at lands
    refine ⟨behind, lowering', target, rfl, others, now', lands, ?_⟩
    rw [run_eq together, Interpreter.evaluateUnit, onwards behind plain.2]
    rcases session.interpreter.evaluateFrom fuel target behind m with ⟨_ | _, _⟩ <;> rfl

end Parts

/-- In every history of a fresh session a unit that lowers can be given in two parts. If the first
part ends, then the second one, run as a unit of its own, leaves behind the session that the whole
unit leaves behind, and the whole unit has the values of both parts or the error of the second; if
the first part has opened a module, the second one has to open it again. If the first part fails,
the whole unit fails with the same error on the same machine. -/
theorem run_append {output : Output} (started : start output = .ok session)
    (requests : List Request) (fuel : Nat) (first second : List Stmt)
    (lowers : (session.served requests).lowers (first ++ second) = true) :
    (∀ values middle, run fuel first (session.served requests) = (.ok values, middle) →
      (Stmt.lastModule? first = none →
        run fuel (first ++ second) (session.served requests) =
          ((run fuel second middle).1.map (values ++ ·), (run fuel second middle).2)) ∧
      (∀ name, Stmt.lastModule? first = some name → ∀ line,
        ∃ (result : Except SessionError (List Value)) (later : Session),
          run fuel (.openModule line name :: second) middle = (result.map (.unit :: ·), later) ∧
          run fuel (first ++ second) (session.served requests) =
            (result.map (values ++ ·), later))) ∧
    (∀ error middle, run fuel first (session.served requests) = (.error error, middle) →
      (run fuel (first ++ second) (session.served requests)).1 = .error error ∧
      (run fuel (first ++ second) (session.served requests)).2.machine = middle.machine) := by
  have same := session.interpreter_served requests
  have hosts : (session.served requests).interpreter.natives = Native.standard :=
    same.symm ▸ hosts_start started
  have linked : (session.served requests).machine.heap.Linked
      (session.served requests).interpreter.global :=
    same.symm ▸ (linkedAt_served (hosts_start started) (linked_start started) requests).linked
  generalize session.served requests = session at *
  refine ⟨fun values middle ran => ?_, fun error middle ran =>
    run_append_of_error hosts linked lowers ran⟩
  obtain ⟨behind, lowering', target, unchanged, lowered, now, lands, together⟩ :=
    run_append_of_ok hosts linked lowers ran
  rw [together]
  refine ⟨fun none => ?_, fun name last line => ?_⟩
  · rw [none] at lands
    obtain rfl := lands
    rw [run_eq lowered, unchanged, Interpreter.evaluateUnit]
  · rw [last] at lands
    refine ⟨_, _, ?_, rfl⟩
    have opened := Interpreter.openModule_again now lands
    rw [run_eq (Lowering.lowerUnit_openModule lowered), unchanged, Interpreter.evaluateUnit,
      Interpreter.evaluateFrom_module (Interpreter.onLine_of_ok opened)]
    rcases session.interpreter.evaluateFrom fuel target behind middle.machine with
      ⟨_ | _, _⟩ <;> rfl

/-- A module is opened and given a variable. -/
def opening : List Stmt :=
  [.openModule ⟨1⟩ "M", .bind ⟨2⟩ .immutable "x" none (.literal ⟨2⟩ (.scalar (.int 1)))]

/-- The variable is read. -/
def reading : List Stmt := [.expr (.name ⟨3⟩ "x")]

theorem run_opening :
    (start .silent).toOption.map (fun session =>
      (session.lowers (opening ++ reading), (run 9 opening session).1.isOk,
        (run 9 reading (run 9 opening session).2).1.isOk,
        (run 9 (opening ++ reading) session).1.toOption.map (·.map Value.display))) =
      some (true, true, false, some ["Unit", "1", "1"]) := by
  decide +kernel

/-- The second part does not find the variable unless it opens the module again. -/
theorem run_append_opening :
    ∃ (session middle later : Session) (values : List Value)
      (result : Except SessionError (List Value)), start .silent = .ok session ∧
      run 9 opening session = (.ok values, middle) ∧ (run 9 reading middle).1.isOk = false ∧
      run 9 (.openModule ⟨3⟩ "M" :: reading) middle = (result.map (.unit :: ·), later) ∧
      run 9 (opening ++ reading) session = (result.map (values ++ ·), later) ∧
      (result.map (values ++ ·)).toOption.map (·.map Value.display) =
        some ["Unit", "1", "1"] := by
  obtain ⟨session, started, computed⟩ := exists_start_of_computed run_opening
  obtain ⟨lowers, rest⟩ := Prod.mk.inj computed
  obtain ⟨ends, rest⟩ := Prod.mk.inj rest
  obtain ⟨fails, shown⟩ := Prod.mk.inj rest
  rcases ran : run 9 opening session with ⟨error | values, middle⟩
  · rw [ran] at ends
    cases ends
  · rw [ran] at fails
    obtain ⟨-, reopens⟩ := (run_append started [] 9 opening reading lowers).1 values middle ran
    obtain ⟨result, later, second, together⟩ := reopens "M" rfl ⟨3⟩
    have both : run 9 (opening ++ reading) session = (result.map (values ++ ·), later) := together
    rw [both] at shown
    exact ⟨session, middle, later, values, result, started, ran, fails, second, both, shown⟩

end Session

end ScriptCore
