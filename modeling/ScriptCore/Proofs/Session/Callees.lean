import ScriptCore.Proofs.Eval.Answering
import ScriptCore.Proofs.Session.Calls
import ScriptCore.Proofs.Session.Modules

/-!
# Callees of calls

Lowering resolves the callee of a call behind its arguments, and evaluation looks it up before them.
So a function that an argument declares can be what a call lowers to, and the call fails then for
want of it. A function that was visible before the call is found whatever the arguments do
(`callee_is_found_unless_argument_declares_it`).
-/
namespace ScriptCore

namespace Builtin

variable {global : Location} {heap : Store}

theorem Prepared.isTree {bindings : Table Binding} (prepared : Prepared global bindings heap) :
    heap.IsTree := by
  intro env frame outer there around
  obtain rfl := prepared.only env frame there
  obtain ⟨own, here, root, -⟩ := prepared.frame
  obtain rfl : own = frame := Option.some.inj (here.symm.trans there)
  rw [root] at around
  cases around

/-- The bootstrap binds no callable and declares constructors alone. -/
theorem Prepared.safe
    (prepared : Prepared global (Table.empty.insert "Unit" ⟨.unit, .immutable⟩) heap)
    {env : Location} {frame : Store.Frame} (there : heap.frame? env = some frame) (name : String)
    (scopes : Nat) : frame.Safe name scopes := by
  obtain rfl := prepared.only env frame there
  constructor
  · intro variableName value found
    obtain ⟨-, rfl⟩ := prepared.value there found
    trivial
  · intro functionName callable found
    obtain ⟨own, here, -, -, -, constructors⟩ := prepared.frame
    obtain rfl : own = frame := Option.some.inj (here.symm.trans there)
    obtain ⟨header, rfl⟩ := constructors functionName callable found
    trivial

end Builtin

/-- What holds of all overloads that are listed holds of the overloads of every name. -/
theorem Scope.forall_overloads {scope : Scope} {P : Overload → Prop}
    (listed : ∀ frame ∈ scope.frames, ∀ entry ∈ frame.functions.entries,
      ∀ overload ∈ entry.2, P overload) (name : String) :
    ∀ overload ∈ scope.overloads name, P overload := by
  intro overload mem
  obtain ⟨frame, there, own⟩ := List.mem_flatMap.mp mem
  rw [Frame.overloads] at own
  cases known : frame.functions.get? name with
  | none =>
    rw [known] at own
    cases own
  | some overloads =>
    rw [known] at own
    exact listed frame there _ (Table.mem_of_get? known) overload own

namespace Session

section Answers

variable {session : Session} {name : String} {asked : Prop}

/-- A fresh session answers, as long as nothing is asked for. -/
theorem answers_start {output : Output} (started : start output = .ok session) (name : String) :
    session.machine.heap.Answers session.interpreter.global name False
      (session.interpreter.global + 1) := by
  have prepared := prepared_start started
  have linked := linked_start started
  exact ⟨linked, prepared.isTree, fun _ frame there => prepared.safe there name _, False.elim,
    linked.lt_next⟩

theorem answers_serve (hosts : session.interpreter.natives = Native.standard)
    (answers : session.machine.heap.Answers session.interpreter.global name asked
      (session.interpreter.global + 1)) (request : Request)
    (spares : Node.SparesHost name (session.nodesOf request.unit)) :
    (request.serve session).2.machine.heap.Answers session.interpreter.global name asked
      (session.interpreter.global + 1) := by
  rw [Request.serve_eq, Attempt.bind_run, compile]
  rw [nodesOf_eq] at spares
  cases lowers : Lowering.lowerUnit request.unit session.lowering with
  | mk result lowering =>
    cases result with
    | error error => exact answers
    | ok nodes =>
      rw [lowers] at spares
      rcases request.session_fulfil nodes { session with lowering := lowering } with
        same | ⟨fuel, same⟩
      · simp only [same]
        exact answers
      · simp only [same]
        exact (Interpreter.answering_evaluateUnit hosts fuel spares).ends answers

theorem answers_served (hosts : session.interpreter.natives = Native.standard)
    (answers : session.machine.heap.Answers session.interpreter.global name asked
      (session.interpreter.global + 1)) {requests : List Request}
    (spares : Node.SparesHost name (session.loweredNodes requests)) :
    (session.served requests).machine.heap.Answers session.interpreter.global name asked
      (session.interpreter.global + 1) := by
  refine carried_served (P := fun nodes later => Node.SparesHost name nodes →
    later.machine.heap.Answers session.interpreter.global name asked
      (session.interpreter.global + 1)) (fun _ => answers) ?_ requests spares
  intro nodes later request same now spares
  obtain ⟨earlier, own⟩ := Node.forall_all_append.mp spares
  rw [← same] at now ⊢
  exact answers_serve (same ▸ hosts) (now earlier) request own

end Answers

/-- What a call of a bare name lowers to, if it calls a function by its indexed name, is visible
behind the arguments. -/
theorem visible_of_lowers {line calleeLine : Line} {name callee : String} {arguments : List Expr}
    {tag calleeTag : Tag} {values : List (String × Node)} {before after : Lowering.State}
    (lowers : Lowering.lowerUnit [.expr (.call line (.name calleeLine name) arguments)] before =
      (.ok [.call tag (.readFunction calleeTag callee) values], after)) :
    callee ∈ (after.scope.overloads name).map (·.name) := by
  cases Lowering.lowers_of_lowerStmts lowers with
  | moreStmts head tail =>
    cases tail
    cases head with
    | expr call =>
      cases call with
      | callName _ resolved typed =>
        obtain ⟨-, -, same⟩ := Typing.call_eq_ok.mp typed
        rcases Scope.resolveCallee_eq_ok.mp resolved with ⟨overload, first, rfl⟩ | ⟨_, -, -, rfl⟩
        · injection same with _ reads
          injection reads with _ named
          rw [← named]
          exact List.mem_map_of_mem (Overload.firstMatch?_mem first)
        · injection same with _ reads
          cases reads
      | callValue _ notName => exact absurd rfl (notName _ _)

/-- A unit of a single call is evaluated in the global scope. -/
theorem fault_of_missing {interpreter : Interpreter} {m : Machine} {tag calleeTag : Tag}
    {callee : String} {values : List (String × Node)} {fault : Fault}
    (missing : m.store.lookupFunction interpreter.global callee = .error fault) (fuel : Nat) :
    ∃ e, e.fault = .undefinedFunction callee ∧
      (interpreter.evaluateUnit (fuel + 1) [.call tag (.readFunction calleeTag callee) values]
        m).1 = .error (.failed e) := by
  obtain rfl := Store.fault_of_lookupFunction missing
  obtain ⟨e, same, failed⟩ := Interpreter.evaluate_call_of_missing missing
  exact ⟨e.atLine tag.line, same, Interpreter.Reaches.failed .here nofun failed⟩

/-- In a fresh session that has served any requests, let every visible function be found in the
global scope under its indexed name, and let a unit be a call of a bare name that lowers to a call
of a function by its indexed name, which no native function has for its plain one. This function
is visible behind the arguments. If it was visible before them, then the evaluation of the unit
never fails for want of it, not even where an argument calls it. The evaluation fails for want of it
just if the global scope does not find it; then it was not visible before, and it is an argument
that declares it. -/
theorem callee_is_found_unless_argument_declares_it {output : Output} {session : Session}
    (started : start output = .ok session) (requests : List Request) {line calleeLine : Line}
    {name callee : String} {arguments : List Expr} {tag calleeTag : Tag}
    {values : List (String × Node)} {lowering : Lowering.State}
    (finds : ∀ name, ∀ overload ∈ (session.served requests).scope.overloads name,
      ∃ callable, (session.served requests).machine.store.lookupFunction
        session.interpreter.global overload.name = .ok callable)
    (lowers : Lowering.lowerUnit [.expr (.call line (.name calleeLine name) arguments)]
      (session.served requests).lowering =
        (.ok [.call tag (.readFunction calleeTag callee) values], lowering))
    (spares : Node.SparesHost callee (session.loweredNodes requests ++
      [.call tag (.readFunction calleeTag callee) values])) :
    callee ∈ (lowering.scope.overloads name).map (·.name) ∧
    (callee ∈ ((session.served requests).scope.overloads name).map (·.name) →
      ∀ fuel e, (session.interpreter.evaluateUnit fuel
          [.call tag (.readFunction calleeTag callee) values]
          (session.served requests).machine).1 = .error (.failed e) →
        e.fault ≠ .undefinedFunction callee) ∧
    ∀ fuel, (∃ e, e.fault = .undefinedFunction callee ∧
        (session.interpreter.evaluateUnit (fuel + 1)
          [.call tag (.readFunction calleeTag callee) values]
          (session.served requests).machine).1 = .error (.failed e)) ↔
      ∃ fault, (session.served requests).machine.store.lookupFunction session.interpreter.global
        callee = .error fault := by
  have hosts := hosts_start started
  obtain ⟨earlier, own⟩ := Node.forall_all_append.mp spares
  have answers := answers_served hosts (answers_start started callee) earlier
  have found {callable : Callable} (there : (session.served requests).machine.store.lookupFunction
      session.interpreter.global callee = .ok callable) (fuel : Nat) {e : EvalError}
      (failed : (session.interpreter.evaluateUnit fuel
        [.call tag (.readFunction calleeTag callee) values]
        (session.served requests).machine).1 = .error (.failed e)) :
      e.fault ≠ .undefinedFunction callee := by
    have linked := Store.linked_heap.mp answers.linked
    have asks := answers.ask ((Store.lookupFunction_heap linked).trans there)
    exact (Interpreter.answering_evaluateUnit hosts fuel own).fault_ne trivial asks failed
  refine ⟨visible_of_lowers lowers, fun visible fuel e failed => ?_, fun fuel => ⟨?_, ?_⟩⟩
  · obtain ⟨overload, mem, rfl⟩ := List.mem_map.mp visible
    obtain ⟨callable, there⟩ := finds name overload mem
    exact found there fuel failed
  · rintro ⟨e, wants, failed⟩
    cases there : (session.served requests).machine.store.lookupFunction
        session.interpreter.global callee with
    | error fault => exact ⟨fault, rfl⟩
    | ok callable => exact absurd wants (found there (fuel + 1) failed)
  · rintro ⟨fault, missing⟩
    exact fault_of_missing missing fuel

/-- A function that takes anything. -/
def taking : Expr :=
  .function ⟨1⟩ none "f" ⟨[("x", "Any")], none⟩ [.returns ⟨1⟩ (.literal ⟨1⟩ .unit)]

/-- A call of it with a declaration of the same name for its argument. -/
def callingWithDeclaration : List Stmt := [.expr (.call ⟨2⟩ (.name ⟨2⟩ "f") [taking])]

/-- The indexed name that a unit of a single call calls. -/
def callee? : List Node → Option String
  | [.call _ (.readFunction _ name) _] => some name
  | _ => none

theorem of_callee? {nodes : List Node} {name : String} (called : callee? nodes = some name) :
    ∃ tag calleeTag values, nodes = [.call tag (.readFunction calleeTag name) values] := by
  unfold callee? at called
  split at called
  · cases called
    exact ⟨_, _, _, rfl⟩
  · cases called

theorem computed_callingWithDeclaration :
    (start .silent).toOption.map (fun session =>
      let later := session.served [.run 9 [.expr taking]]
      let nodes := later.nodesOf callingWithDeclaration
      (later.scope.frames.all fun frame => frame.functions.entries.all fun entry =>
          entry.2.all fun overload =>
            (later.machine.store.lookupFunction session.interpreter.global overload.name).isOk,
        callee? nodes, ((later.scope.overloads "f").map Overload.name).contains "f-0",
        decide (Node.SparesHost "f-0" (session.loweredNodes [.run 9 [.expr taking]] ++ nodes)))) =
      some (true, some "f-0", true, true) := by
  decide +kernel

/-- The function was declared before, so it is found, though the argument declares another one. -/
theorem callee_is_found_callingWithDeclaration :
    ∃ session tag calleeTag values, start .silent = .ok session ∧
      (session.served [.run 9 [.expr taking]]).nodesOf callingWithDeclaration =
        [.call tag (.readFunction calleeTag "f-0") values] ∧
      ∀ fuel e, (session.interpreter.evaluateUnit fuel
          [.call tag (.readFunction calleeTag "f-0") values]
          (session.served [.run 9 [.expr taking]]).machine).1 = .error (.failed e) →
        e.fault ≠ .undefinedFunction "f-0" := by
  obtain ⟨session, started, computed⟩ := exists_start_of_computed computed_callingWithDeclaration
  obtain ⟨listed, rest⟩ := Prod.mk.inj computed
  obtain ⟨called, rest⟩ := Prod.mk.inj rest
  obtain ⟨visible, spares⟩ := Prod.mk.inj rest
  obtain ⟨tag, calleeTag, values, nodes⟩ := of_callee? called
  have lowers : ∃ lowering, Lowering.lowerUnit callingWithDeclaration
      (session.served [.run 9 [.expr taking]]).lowering =
        (.ok [.call tag (.readFunction calleeTag "f-0") values], lowering) := by
    rw [nodesOf_eq] at nodes
    revert nodes
    rcases Lowering.lowerUnit callingWithDeclaration
      (session.served [.run 9 [.expr taking]]).lowering with ⟨error | lowered, lowering⟩
    · nofun
    · rintro rfl
      exact ⟨lowering, rfl⟩
  obtain ⟨lowering, lowers⟩ := lowers
  have finds : ∀ name, ∀ overload ∈ (session.served [.run 9 [.expr taking]]).scope.overloads name,
      ∃ callable, (session.served [.run 9 [.expr taking]]).machine.store.lookupFunction
        session.interpreter.global overload.name = .ok callable := by
    refine Scope.forall_overloads fun frame there entry mem overload own => ?_
    have found := List.all_eq_true.mp (List.all_eq_true.mp (List.all_eq_true.mp listed frame there)
      entry mem) overload own
    cases looked : (session.served [.run 9 [.expr taking]]).machine.store.lookupFunction
        session.interpreter.global overload.name with
    | error fault =>
      rw [looked] at found
      cases found
    | ok callable => exact ⟨callable, rfl⟩
  rw [nodes] at spares
  obtain ⟨-, found, -⟩ := callee_is_found_unless_argument_declares_it started
    [.run 9 [.expr taking]] finds lowers (of_decide_eq_true spares)
  exact ⟨session, tag, calleeTag, values, started, nodes, found (List.contains_iff_mem.mp visible)⟩

/-- In a fresh session the argument declares the very function that is called. -/
example :
    (start .silent).toOption.map (fun session =>
      errorOf? (run 9 callingWithDeclaration session).1) =
      some (some (.runtime ⟨.undefinedFunction "f-0", some ⟨2⟩, none⟩)) := by
  decide +kernel

end Session

end ScriptCore
