import ScriptCore.Proofs.Eval.Closures
import ScriptCore.Proofs.Lowering.Layers
import ScriptCore.Proofs.Session.Agreement

/-!
# Closures mean what lowering has resolved

A closure keeps the scopes that it was created in, not the variables that lowering has found there
for it, and looks these up by name when it is called. If a captured scope has been given a variable
of that name in the meantime, the closure reads this one. The types of what is read, and with them
the evaluation of a unit, are right as long as no such variable has another type
(`run_reads_resolved`).
-/
namespace ScriptCore

namespace Node

/-- Whether a unit consists of variables, expressions, blocks, loops and anonymous functions, and no
anonymous function uses a variable for which a scope that it captures, inside the scope of the
declaration that the variable is resolved to, later declares another type. -/
def isSteady (unit : List Node) : Bool := bodyUses Layers.steady [("Unit", .unit)] [] unit

def isFunctionName : Node → Bool
  | readFunction _ _ => true
  | _ => false

theorem ne_openModule_of_hasUses {use : Layers → String → Ty → Bool} {node : Node}
    (uses : node.HasUses use) : ∀ tag name, node ≠ .openModule tag name := by
  rintro tag name rfl
  rcases uses with ⟨layers, uses⟩ | ⟨_, _, _, _, _, same, -⟩
  · rw [allUses] at uses
    cases uses
  · cases same

end Node

namespace Session

open Eval Node

/-- The one scope of a fresh session, with a plan for a unit. -/
def planned (session : Session) (unit : List Node) : World :=
  ⟨fun _ => ("Unit", .unit) :: bindsOf unit, session.machine.heap⟩

section Start

variable {output : Output} {session : Session} {unit : List Node}

theorem valid_planned (started : start output = .ok session) : (session.planned unit).Valid := by
  have prepared := prepared_start started
  have sound := sound_start Declarations.hasBuiltins_builtin Builtin.reserved_builtin started
  intro location frame there
  obtain rfl := prepared.only location frame there
  obtain ⟨own, here, -, expanded, -, constructors⟩ := prepared.frame
  obtain rfl : own = frame := Option.some.inj (here.symm.trans there)
  refine ⟨fun name value found => ?_, fun name callable found => ?_, expanded⟩
  · obtain ⟨rfl, rfl⟩ := prepared.value there found
    exact ⟨.unit, rfl, ⟨trivial, .inl rfl⟩, trivial⟩
  · obtain ⟨header, rfl⟩ := constructors name callable found
    exact ⟨trivial, (sound.store _ _ there).callables name _ found⟩

theorem stands_planned (started : start output = .ok session) :
    (session.planned unit).Stands session.interpreter.global
      [⟨[("Unit", .unit)], bindsOf unit, false⟩] := by
  obtain ⟨frame, there, enclosing, -, bound, -⟩ := (prepared_start started).frame
  refine .root there enclosing ⟨rfl, by simp [Parameters.names], fun name mem => ?_, ?_⟩
  · obtain rfl : name = "Unit" := by simpa [Parameters.names] using mem
    rw [bound, Table.contains, Table.get?_insert_self]
    rfl
  · intro _ name known
    rw [bound, Table.contains, Table.get?_insert] at known
    split at known
    · rename_i same
      simp [Parameters.names, same]
    · cases known

end Start

theorem mirrors_builtins : Lowering.Mirrors .builtins [[("Unit", .unit)]] := by
  have vars : Scope.builtins.current.vars = Table.empty.insert "Unit" .unit := rfl
  refine .inr (.cons (fun name => ?_) .nil)
  rw [vars, Table.get?_insert, Parameters.get?_singleton, Table.get?_empty]

/-- A session reports what the interpreter has failed with, unless a return was left over. -/
theorem failed_of_evaluate {α : Type} {work : Interpreter → Eval α} {session : Session}
    {e : EvalError} (failed : (evaluate work session).1 = .error (.runtime e)) :
    e.fault = .uncaughtReturn ∨
      ∃ machine, work session.interpreter session.machine = (.error (.failed e), machine) := by
  rw [evaluate] at failed
  cases ran : work session.interpreter session.machine with
  | mk result machine =>
    rw [ran] at failed
    cases result with
    | ok => cases failed
    | error stop =>
      cases stop with
      | returned value =>
        cases failed
        exact .inl rfl
      | failed =>
        cases failed
        exact .inr ⟨machine, rfl⟩
      | exhausted => cases failed

/-- Run a unit without modules and check every variable that it reads. -/
def runWatched (fuel : Nat) (unit : List Stmt) : SessionStep (List Value) := do
  let nodes ← compile unit
  evaluate fun interpreter =>
    Interpreter.evaluateEach (interpreter.evaluateWatched fuel) interpreter.global nodes

theorem evaluateUnit_eq_evaluateEach {nodes : List Node} (steady : isSteady nodes = true)
    {interpreter : Interpreter} {fuel : Nat} :
    interpreter.evaluateUnit fuel nodes =
      Interpreter.evaluateEach (interpreter.evaluate fuel) interpreter.global nodes := by
  have plain : ∀ node ∈ nodes, ∀ tag name, node ≠ .openModule tag name :=
    fun node mem => ne_openModule_of_hasUses (hasUses_of_mem steady node mem)
  rw [Interpreter.evaluateUnit, Interpreter.evaluateFrom_eq plain]

section Steady

variable {output : Output} {session : Session} {unit : List Stmt} {nodes : List Node}
  {lowering : Lowering.State}

/-- Every variable that is used in what a unit lowers to is found with the type of the use. -/
theorem resolves_lowered (started : start output = .ok session)
    (lowers : Lowering.lowerUnit unit session.lowering = (.ok nodes, lowering))
    (steady : isSteady nodes = true) :
    bodyUses Layers.resolves [("Unit", .unit)] [] nodes = true := by
  have derived := Lowering.lowers_of_lowerStmts lowers
  rw [lowering_start started] at derived
  exact derived.usesResolve [("Unit", .unit)] [] mirrors_builtins steady

/-- Watched evaluation of what a unit lowers to ends with no mismatch, and with values that fit. -/
theorem runs_lowered (started : start output = .ok session)
    (lowers : Lowering.lowerUnit unit session.lowering = (.ok nodes, lowering))
    (steady : isSteady nodes = true) (fuel : Nat) :
    (session.planned nodes).Runs session.interpreter.global none
      (fun _ => List.Forall₂ (fun node value => value.Fits .builtin node.type) nodes)
      (Interpreter.evaluateEach (session.interpreter.evaluateWatched fuel)
        session.interpreter.global nodes) := by
  have derived := Lowering.lowers_of_lowerStmts lowers
  rw [lowering_start started] at derived
  have builtins := Declarations.hasBuiltins_builtin
  have typed : ∀ node ∈ nodes, Typed .builtin none node := fun node mem =>
    ((derived.typed builtins (admitsAll_of_bodyUses steady)
      (Scope.admitted_builtins builtins)).1 node mem).1
  exact Interpreter.runs_evaluateEach (Interpreter.sound_evaluateWatched fuel) typed
    (resolves_lowered started lowers steady) (valid_planned started) (stands_planned started)

theorem evaluateUnit_lowered (started : start output = .ok session)
    (lowers : Lowering.lowerUnit unit session.lowering = (.ok nodes, lowering))
    (steady : isSteady nodes = true) (fuel : Nat) :
    Interpreter.evaluateEach (session.interpreter.evaluateWatched fuel)
        session.interpreter.global nodes session.machine =
      session.interpreter.evaluateUnit fuel nodes session.machine ∧
    ∀ e machine, session.interpreter.evaluateUnit fuel nodes session.machine =
      (.error (.failed e), machine) → ¬ e.fault.IsMismatch := by
  have runs := runs_lowered started lowers steady fuel
  have safe (e : EvalError) (machine : Machine)
      (ran : Interpreter.evaluateEach (session.interpreter.evaluateWatched fuel)
        session.interpreter.global nodes session.machine = (.error (.failed e), machine)) :
      ¬ e.fault.IsMismatch :=
    runs.of_error rfl (congrArg Prod.fst ran)
  rw [evaluateUnit_eq_evaluateEach steady]
  rcases Interpreter.checks_evaluateEach (Interpreter.checks_evaluate fuel)
    session.interpreter.global nodes session.machine with same | ⟨e, machine, ran, mismatch⟩
  · exact ⟨same, same ▸ safe⟩
  · exact absurd mismatch (safe e machine ran)

/-- No unit of a fresh session in which captured scopes are not given variables of other types ends
in a mismatch. Every variable that it reads, in closures as elsewhere, has a value of the type that
lowering has resolved it to: the unit runs the same when all reads are checked. -/
theorem run_reads_resolved (started : start output = .ok session)
    (steady : isSteady (session.nodesOf unit) = true) (fuel : Nat) :
    runWatched fuel unit session = run fuel unit session ∧
      ∀ e, (run fuel unit session).1 = .error (.runtime e) → ¬ e.fault.IsMismatch := by
  rw [nodesOf_eq] at steady
  simp only [run, runWatched, compile, Attempt.bind_run]
  cases lowers : Lowering.lowerUnit unit session.lowering with
  | mk result lowering =>
    cases result with
    | error error =>
      refine ⟨rfl, fun e failed => ?_⟩
      cases failed
    | ok nodes =>
      rw [lowers] at steady
      obtain ⟨same, safe⟩ := evaluateUnit_lowered started lowers steady fuel
      refine ⟨by simp only [evaluate, same], fun e failed => ?_⟩
      rcases failed_of_evaluate failed with leftover | ⟨machine, ran⟩
      · rw [leftover]
        exact id
      · exact safe e machine ran

end Steady

/-- A closure over a global `x` in a block that goes on to declare an `x` of its own. This is the
one that the closure finds when it is called, and its value is negated. -/
def shadowing (value : Literal) : List Stmt :=
  [.bind ⟨1⟩ .immutable "x" none (.literal ⟨1⟩ (.scalar (.int 1))),
   .block ⟨2⟩
    [.bind ⟨3⟩ .immutable "f" none
      (.anonymous ⟨3⟩ ⟨[], some "Int"⟩ [.returns ⟨3⟩ (.name ⟨3⟩ "x")]),
     .bind ⟨4⟩ .immutable "x" none (.literal ⟨4⟩ value),
     .expr (.unary ⟨5⟩ .neg (.call ⟨5⟩ (.name ⟨5⟩ "f") []))]]

theorem computed_shadowing :
    (start .silent).toOption.map (fun session =>
      (isSteady (session.nodesOf (shadowing (.scalar (.int 2)))),
        ((run 9 (shadowing (.scalar (.int 2))) session).1.toOption.getD []).map Value.display)) =
      some (true, ["1", "-2"]) := by
  decide +kernel

theorem run_reads_resolved_shadowing :
    ∃ session, start .silent = .ok session ∧
      isSteady (session.nodesOf (shadowing (.scalar (.int 2)))) = true ∧
      ((run 9 (shadowing (.scalar (.int 2))) session).1.toOption.getD []).map Value.display =
        ["1", "-2"] ∧
      runWatched 9 (shadowing (.scalar (.int 2))) session =
        run 9 (shadowing (.scalar (.int 2))) session := by
  obtain ⟨session, started, computed⟩ := exists_start_of_computed computed_shadowing
  obtain ⟨steady, values⟩ := Prod.mk.inj computed
  exact ⟨session, started, steady, values, (run_reads_resolved started steady 9).1⟩

/-- Where the later variable is a string, the closure reads the string in place of an `Int`. -/
theorem run_misreads_shadowing :
    ∃ session nodes e, start .silent = .ok session ∧
      (compile (shadowing (.scalar (.string "a"))) session).1 = .ok nodes ∧
      bodyUses (fun _ _ _ => true) [] [] nodes = true ∧ (all nodes).any isFunctionName = false ∧
      (run 9 (shadowing (.scalar (.string "a"))) session).1 = .error (.runtime e) ∧
      e.fault.IsMismatch := by
  have computed : (start .silent).toOption.map (fun session =>
      ((compile (shadowing (.scalar (.string "a"))) session).1.toOption.map (fun nodes =>
        (bodyUses (fun _ _ _ => true) [] [] nodes, (all nodes).any isFunctionName)),
      errorOf? (run 9 (shadowing (.scalar (.string "a"))) session).1)) =
      some (some (true, false), some (.runtime
        ⟨.invalidType "Int or Double" "String", some ⟨5⟩, some [⟨"block", ⟨2⟩⟩]⟩)) := by
    decide +kernel
  obtain ⟨session, started, computed⟩ := exists_start_of_computed computed
  obtain ⟨compiled, failed⟩ := Prod.mk.inj computed
  obtain ⟨nodes, lowered, checked⟩ := Option.map_eq_some_iff.mp compiled
  obtain ⟨uses, names⟩ := Prod.mk.inj checked
  exact ⟨session, nodes, _, started, eq_ok_of_toOption lowered, uses, names,
    eq_error_of_errorOf? failed, trivial⟩

-- with checked reads such a unit stops in the closure, and not where its result is used
example : (start .silent).toOption.map (fun session =>
    (runWatched 9 (shadowing (.scalar (.string "a"))) session).1.map fun _ => ()) =
    some (.error (.runtime ⟨.invalidType "Int" "String", some ⟨3⟩,
      some [⟨"call <anonymous>", ⟨5⟩⟩, ⟨"block", ⟨2⟩⟩]⟩)) := by
  decide +kernel

end Session

end ScriptCore
