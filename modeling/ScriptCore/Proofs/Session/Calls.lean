import ScriptCore.Proofs.Eval.Course
import ScriptCore.Proofs.Eval.Roots
import ScriptCore.Proofs.Lowering.Stack
import ScriptCore.Proofs.Session.History
import ScriptCore.Proofs.Session.Overloads
import ScriptCore.Proofs.Session.Persistence

/-!
# Calls at the top level

A call that is a statement of its own is evaluated in the global scope or in a module, and looks its
callee up by an indexed name in what has been declared there. The scope numbers all of it in one
frame, so an indexed name belongs to one declaration. The bootstrap of the interpreter alone
declares functions that the scope does not know of: the constructors of builtin classes that the
scope takes to have none. A call runs the declaration that it was resolved to unless it bears one of
their names (`call_runs_declaration`).
-/
namespace ScriptCore

namespace Builtin

/-- The indexed names of the constructors that the bootstrap declares. -/
def constructorNames : List String := classes.map fun made => overloadName made.render 0

/-- Those of them that the scope has no overload for. -/
def unlisted : List String := constructorNames.filter (· ≠ overloadName "String" 0)

end Builtin

/-- A function that is declared here, or a constructor that the bootstrap declares. -/
def Callable.Allowed (declared : List Callable) (callable : Callable) : Prop :=
  callable ∈ declared ∨
    ∃ header : BuiltinConstructor, callable = .constructor header ∧
      header.name ∈ Builtin.constructorNames

theorem Callable.Allowed.mono {declared wider : List Callable} {callable : Callable}
    (allowed : callable.Allowed declared) (subset : declared ⊆ wider) : callable.Allowed wider :=
  allowed.imp (fun mem => subset mem) id

theorem Scope.overloads_of_outer {scope : Scope} (single : scope.outer = []) (name : String) :
    scope.overloads name = scope.current.overloads name := by
  simp [overloads, frames, single]

namespace Interpreter

open Eval

variable {interpreter : Interpreter} {fuel : Nat} {env : Location} {m : Machine}
  {tag calleeTag : Tag} {name : String} {arguments : List (String × Node)}

/-- A call of which it is known what it invokes. -/
def callWith (interpreter : Interpreter) (fuel : Nat) (callable : Callable) (site : Node)
    (arguments : List (String × Node)) (env : Location) : Eval Value :=
  Eval.located site.line env <| Eval.holding callable.kept do
    let values ← Eval.evaluateArguments (interpreter.evaluate fuel) env arguments
    Eval.holding (Arguments.kept values)
      (interpreter.invokeWith (interpreter.evaluate fuel) callable site values env)

theorem evaluate_call_of_found {callable : Callable}
    (found : m.store.lookupFunction env name = .ok callable) :
    interpreter.evaluate (fuel + 1) (.call tag (.readFunction calleeTag name) arguments) env m =
      interpreter.callWith fuel callable (.call tag (.readFunction calleeTag name) arguments)
        arguments env m := by
  have target : evaluateCallee (interpreter.evaluate fuel) (.readFunction calleeTag name) env m =
      (.ok (.callable callable), m) := by
    rw [evaluateCallee, Attempt.bind_run, Eval.lookupFunction, Eval.ask, found]
    rfl
  rw [evaluate, callWith, Eval.located, Eval.located, step, evaluateCall, Attempt.bind_ok target]
  rfl

theorem evaluate_call_of_missing {fault : Fault}
    (missing : m.store.lookupFunction env name = .error fault) :
    ∃ e, e.fault = fault ∧
      (interpreter.evaluate (fuel + 1) (.call tag (.readFunction calleeTag name) arguments) env
        m).1 = .error (.failed e) := by
  let call : Node := .call tag (.readFunction calleeTag name) arguments
  have failed : (interpreter.step fuel (interpreter.evaluate fuel) call env m).1 =
      .error (.failed (.ofFault fault)) := by
    refine fst_bind_of_error (fst_bind_of_error ?_)
    rw [Eval.lookupFunction, Eval.ask, missing]
  cases ran : interpreter.step fuel (interpreter.evaluate fuel) call env m with
  | mk result m₁ =>
    obtain rfl : result = .error (.failed (.ofFault fault)) := by rw [← failed, ran]
    rw [evaluate, Eval.located, ran]
    exact ⟨_, EvalError.fault_located _ _ _, rfl⟩

end Interpreter

namespace Interpreter

open Eval

/-- Wherever the evaluation of a unit comes, it stands in a root. -/
theorem Reaches.settled {interpreter : Interpreter} {fuel : Nat} {target : Location}
    {nodes rest : List Node} {m m' : Machine} {allowed : Callable → Prop}
    (reaches : interpreter.Reaches fuel interpreter.global nodes m target rest m')
    (hosts : interpreter.natives = Native.standard)
    (allows : ∀ callable ∈ Node.declaredIn nodes, allowed callable)
    (now : interpreter.Settled allowed interpreter.global m.heap) :
    interpreter.Settled allowed target m'.heap := by
  have step : ∀ target node rest, node :: rest <:+ nodes →
      (∀ tag name, node ≠ .openModule tag name) →
      Triple (interpreter.Settled allowed target) (interpreter.evaluate fuel node target)
        (fun _ => interpreter.Settled allowed target) .any := by
    intro target node rest there _
    refine Triple.any (settled_evaluate hosts fuel fun callable mem => ?_)
    exact allows callable (List.mem_flatMap.mpr ⟨node, there.subset List.mem_cons_self, mem⟩)
  exact reaches.holds (fun target _ => interpreter.Settled allowed target) step
    (fun _ _ name _ _ => Triple.any (settled_openModule name)) now

end Interpreter

namespace Builtin

open Eval

/-- Every class that is prepared has one constructor. -/
theorem exists_constructorTypes {made : ClassTy} (known : made ∈ classes) :
    ∃ type, constructorTypes made = [type] := by
  simp only [classes, List.mem_cons, List.not_mem_nil, or_false] at known
  rcases known with rfl | rfl | rfl | rfl | rfl <;> exact ⟨_, rfl⟩

/-- The bootstrap leaves a global scope that is a root, where nothing but its constructors is
declared. -/
theorem created_settled :
    Triple (· = Store.empty) (Interpreter.create [])
      (fun interpreter heap =>
        interpreter.Settled (·.Allowed []) interpreter.global heap) .any := by
  have opened : Triple (· = Store.empty) Eval.newGlobal
      (fun global heap => heap.Rooted (·.Allowed []) ∧ heap.IsRoot global) .any := by
    refine Triple.newGlobal fun heap empty => ?_
    subst empty
    have rooted : Store.empty.Rooted (·.Allowed []) :=
      ⟨fun location frame there => by simp [Store.frame?, Store.empty] at there, nofun⟩
    exact ⟨rooted.add ⟨nofun, nofun, nofun, nofun⟩, _, Store.frame?_add_next, rfl⟩
  refine opened.bind fun global => ?_
  have constructors : Triple (fun heap => heap.Rooted (·.Allowed []) ∧ heap.IsRoot global)
      (materializeAll global classes)
      (fun _ heap => heap.Rooted (·.Allowed []) ∧ heap.IsRoot global) .any := by
    refine keeps_materializeAll_single fun made known => ?_
    obtain ⟨type, single⟩ := exists_constructorTypes known
    refine ⟨type, single, fun stamp heap held => ?_⟩
    let callable : Callable := .constructor ⟨stamp, overloadName made.render 0, type, made⟩
    have allowed : callable.Allowed [] := .inr ⟨_, rfl, List.mem_map_of_mem known⟩
    have takes : heap.Takes (·.Allowed []) global [callable] :=
      held.2.takes (List.forall_mem_singleton.mpr allowed)
    have evolves : Store.Evolves global heap (heap.declareFunction global callable.name callable) :=
      Store.evolves_declareFunction
    exact ⟨held.1.declareFunction takes, held.2.evolves evolves⟩
  have unit : Triple (fun heap => heap.Rooted (·.Allowed []) ∧ heap.IsRoot global)
      (Eval.declare global "Unit" .unit .immutable)
      (fun _ heap => heap.Rooted (·.Allowed []) ∧ heap.IsRoot global) .any := by
    refine Triple.declare (fun heap held free => ?_) fun _ _ _ => trivial
    have evolves : Store.Evolves global heap (heap.setVariable global "Unit" ⟨.unit, .immutable⟩) :=
      Store.evolves_declare free
    exact ⟨held.1.setVariable, held.2.evolves evolves⟩
  rw [bootstrap, bind_assoc]
  refine constructors.bind fun objects => ?_
  rw [bind_assoc]
  exact unit.bind fun _ => Triple.pure fun _ held => ⟨held.1, held.2, held.2⟩

end Builtin

namespace Session

/-- A session whose scope has the overloads of what has been declared at the top level, and whose
roots have nothing else but constructors. -/
structure Placed (declared : List Callable) (session : Session) : Prop where
  hosts : session.interpreter.natives = Native.standard
  outer : session.scope.outer = []
  reachable : session.scope.Reachable
  overloads : ∀ name, (Scope.builtins.overloads name ++ overloadsOf name declared).Sublist
    (session.scope.overloads name)
  settled : session.interpreter.Settled (·.Allowed declared) session.interpreter.global
    session.machine.heap

section Placed

variable {declared : List Callable} {session : Session} {nodes : List Node}
  {lowering : Lowering.State}

theorem placed_start {output : Output} (started : start output = .ok session) :
    session.Placed [] := by
  have lowering : session.lowering = freshLowering := lowering_start started
  have settled := start_ends Builtin.created_settled rfl started
  refine ⟨hosts_start started, ?_, ?_, fun name => ?_, settled⟩
  all_goals rw [scope, lowering]
  · rfl
  · exact .builtins
  · simp [overloadsOf, freshLowering]

/-- Lowering a unit puts what it declares into the scope, and makes it allowed. -/
theorem Placed.lower (placed : session.Placed declared) {unit : List Stmt}
    (lowers : Lowering.lowerUnit unit session.lowering = (.ok nodes, lowering)) :
    Placed (declared ++ Node.declaredIn nodes) { session with lowering := lowering } := by
  have derived := Lowering.lowers_of_lowerStmts lowers
  have extended := Lowering.extends_lowerStmts none unit session.lowering
  rw [← Lowering.lowerUnit, lowers] at extended
  have outer : lowering.scope.outer = [] := extended.outer.trans placed.outer
  refine ⟨placed.hosts, outer, derived.reachable placed.reachable, fun name => ?_, ?_⟩
  · have before := placed.overloads name
    rw [Scope.overloads_of_outer placed.outer] at before
    have after : ({ session with lowering := lowering } : Session).scope.overloads name =
        lowering.scope.current.overloads name := Scope.overloads_of_outer outer name
    rw [overloadsOf_append, ← List.append_assoc, after]
    exact (before.append_right _).trans (derived.adds name)
  · obtain ⟨rooted, roots⟩ := placed.settled
    exact ⟨rooted.mono fun _ allowed => allowed.mono (List.subset_append_left _ _), roots⟩

theorem Placed.serve (placed : session.Placed declared) (request : Request) :
    (request.serve session).2.Placed
      (declared ++ Node.declaredIn (session.nodesOf request.unit)) := by
  rw [Request.serve_eq, Attempt.bind_run, compile, nodesOf_eq]
  cases lowers : Lowering.lowerUnit request.unit session.lowering with
  | mk result lowering =>
    cases result with
    | error error => simpa [Node.declaredIn, Except.toOption] using placed
    | ok nodes =>
      have lowered := placed.lower lowers
      rcases request.session_fulfil nodes { session with lowering := lowering } with
        same | ⟨fuel, same⟩
      · simp only [same]
        exact lowered
      · simp only [same]
        refine ⟨lowered.hosts, lowered.outer, lowered.reachable, lowered.overloads, ?_⟩
        refine Eval.Keeps.ends (Interpreter.settled_evaluateUnit lowered.hosts fuel ?_)
          lowered.settled
        exact fun callable mem => .inl (List.mem_append_right _ mem)

theorem Placed.served (placed : session.Placed declared) (requests : List Request) :
    (session.served requests).Placed
      (declared ++ Node.declaredIn (session.loweredNodes requests)) := by
  refine serving.carried (P := fun nodes later => later.Placed (declared ++ Node.declaredIn nodes))
    (by simpa [Node.declaredIn] using placed) ?_ requests
  intro nodes later request placed
  rw [Node.declaredIn_append, ← List.append_assoc]
  exact placed.serve request

/-- The indexed names of the builtin overloads and the declarations of one name are different. -/
theorem Placed.nodup (placed : session.Placed declared) (name : String) :
    ((Scope.builtins.overloads name).map (·.name) ++
      (declared.filter (·.sourceName = name)).map Callable.name).Nodup := by
  have visible : ((session.scope.overloads name).map (·.name)).Nodup :=
    (placed.reachable.indexed.overloads_perm name).nodup_iff.mpr (Scope.nodup_indexedNames name _)
  have names := visible.sublist ((placed.overloads name).map (·.name))
  simpa [overloadsOf, Function.comp_def] using names

theorem Placed.name_eq (placed : session.Placed declared) {callable : Callable}
    (mem : callable ∈ declared) :
    ∃ index, callable.name = overloadName callable.sourceName index := by
  have own : (⟨callable.name, callable.type⟩ : Overload) ∈
      overloadsOf callable.sourceName declared :=
    List.mem_map.mpr ⟨callable, List.mem_filter.mpr ⟨mem, decide_eq_true rfl⟩, rfl⟩
  have there := (placed.overloads callable.sourceName).subset (List.mem_append_right _ own)
  have indexed := (placed.reachable.indexed.overloads_perm callable.sourceName).subset
    (List.mem_map_of_mem there)
  obtain ⟨index, -, same⟩ := List.mem_map.mp indexed
  exact ⟨index, same.symm⟩

/-- An indexed name belongs to one declaration. -/
theorem Placed.unique (placed : session.Placed declared) {first second : Callable}
    (mem : first ∈ declared) (mem' : second ∈ declared) (same : first.name = second.name) :
    first = second := by
  obtain ⟨index, named⟩ := placed.name_eq mem
  obtain ⟨index', named'⟩ := placed.name_eq mem'
  have source : first.sourceName = second.sourceName :=
    (overloadName_inj (named.symm.trans (same.trans named'))).1
  have distinct := (List.nodup_append'.mp (placed.nodup first.sourceName)).2.1
  refine List.inj_on_of_nodup_map distinct (List.mem_filter.mpr ⟨mem, decide_eq_true rfl⟩)
    (List.mem_filter.mpr ⟨mem', decide_eq_true source.symm⟩) same

/-- The scope knows of the constructor of strings, so no declaration bears its name. -/
theorem Placed.name_ne_string (placed : session.Placed declared) {callable : Callable}
    (mem : callable ∈ declared) : callable.name ≠ overloadName "String" 0 := by
  intro named
  obtain ⟨index, named'⟩ := placed.name_eq mem
  have source : callable.sourceName = "String" := (overloadName_inj (named'.symm.trans named)).1
  have listed : overloadName "String" 0 ∈ (Scope.builtins.overloads "String").map (·.name) := by
    decide +kernel
  have apart := (List.nodup_append'.mp (placed.nodup "String")).2.2
  refine apart listed ?_
  rw [← named]
  exact List.mem_map_of_mem (List.mem_filter.mpr ⟨mem, decide_eq_true source⟩)

/-- What a name is looked up to in a root. -/
theorem Placed.of_lookupFunction (placed : session.Placed declared) {m : Machine} {env : Location}
    (settled : session.interpreter.Settled (·.Allowed declared) env m.heap)
    {declaration callable : Callable} (mem : declaration ∈ declared)
    (found : m.store.lookupFunction env declaration.name = .ok callable) :
    callable = declaration ∨ (declaration.name ∈ Builtin.unlisted ∧
      ∃ header, callable = .constructor header ∧ header.name = declaration.name) := by
  have rooted : m.store.Rooted (·.Allowed declared) := ⟨settled.1.frames, settled.1.modules⟩
  obtain ⟨named, other | ⟨header, rfl, constructor⟩⟩ := rooted.of_lookupFunction settled.2.1 found
  · exact .inl (placed.unique other mem named)
  · refine .inr ⟨List.mem_filter.mpr ⟨named ▸ constructor, ?_⟩, header, rfl, named⟩
    exact decide_eq_true (placed.name_ne_string mem)

end Placed

/-- In a fresh session that has served any requests, evaluate a unit that lowers up to a call that
is a statement of its own and names a function that has been declared at the top level, before or in
the unit. The name belongs to this declaration alone. The unit fails because the function is not
found, or the call invokes the very declaration. Otherwise the name is that of a constructor of
`Int`, `Double`, `Boolean` or `Unit` that the bootstrap declares without the scope knowing of it,
and the call invokes the constructor. -/
theorem call_runs_declaration {output : Output} {session : Session}
    (started : start output = .ok session) (requests : List Request) {unit : List Stmt}
    {nodes : List Node} {lowering : Lowering.State}
    (lowers : Lowering.lowerUnit unit (session.served requests).lowering = (.ok nodes, lowering))
    {fuel : Nat} {target : Location} {m : Machine} {tag calleeTag : Tag} {declaration : Callable}
    {arguments : List (String × Node)} {rest : List Node}
    (reaches : session.interpreter.Reaches (fuel + 1) session.interpreter.global nodes
      (session.served requests).machine target
      (.call tag (.readFunction calleeTag declaration.name) arguments :: rest) m)
    (declared : declaration ∈ Node.declaredIn (session.loweredNodes requests ++ nodes)) :
    (∀ other ∈ Node.declaredIn (session.loweredNodes requests ++ nodes),
      other.name = declaration.name → other = declaration) ∧
    ((∃ e, e.fault = .undefinedFunction declaration.name ∧
        (session.interpreter.evaluateUnit (fuel + 1) nodes (session.served requests).machine).1 =
          .error (.failed e)) ∨
      session.interpreter.evaluate (fuel + 1)
          (.call tag (.readFunction calleeTag declaration.name) arguments) target m =
        session.interpreter.callWith fuel declaration
          (.call tag (.readFunction calleeTag declaration.name) arguments) arguments target m ∨
      (declaration.name ∈ Builtin.unlisted ∧ ∃ header, header.name = declaration.name ∧
        session.interpreter.evaluate (fuel + 1)
            (.call tag (.readFunction calleeTag declaration.name) arguments) target m =
          session.interpreter.callWith fuel (.constructor header)
            (.call tag (.readFunction calleeTag declaration.name) arguments) arguments target
            m)) := by
  have placed := ((placed_start started).served requests).lower lowers
  rw [List.nil_append, ← Node.declaredIn_append, interpreter_served] at placed
  have allows : ∀ callable ∈ Node.declaredIn nodes,
      callable.Allowed (Node.declaredIn (session.loweredNodes requests ++ nodes)) := by
    intro callable mem
    rw [Node.declaredIn_append]
    exact .inl (List.mem_append_right _ mem)
  have settled := reaches.settled placed.hosts allows placed.settled
  refine ⟨fun other mem named => placed.unique mem declared named, ?_⟩
  cases found : m.store.lookupFunction target declaration.name with
  | error fault =>
    obtain rfl := Store.fault_of_lookupFunction found
    obtain ⟨e, same, failed⟩ := Interpreter.evaluate_call_of_missing found
    exact .inl ⟨e.atLine tag.line, same, reaches.failed nofun failed⟩
  | ok callable =>
    refine .inr ?_
    rw [Interpreter.evaluate_call_of_found found]
    rcases placed.of_lookupFunction settled declared found with rfl | ⟨unlisted, header, rfl, named⟩
    · exact .inl rfl
    · exact .inr ⟨unlisted, header, named, rfl⟩

/-- A module with a function of this name, put to use in another unit. -/
def usedModule (name : String) : List Request :=
  [.run 9 [.openModule ⟨1⟩ "M",
    .expr (.function ⟨2⟩ none name ⟨[], some "String"⟩
      [.returns ⟨2⟩ (.literal ⟨2⟩ (.scalar (.string "mine")))])],
   .run 9 [.useModule ⟨3⟩ "M"]]

def calling (name : String) : List Stmt := [.expr (.call ⟨4⟩ (.name ⟨4⟩ name) [])]

/-- The indexed name that a unit calls, if it is nothing but a call without arguments. -/
def calledName? : List Node → Option String
  | [.call _ (.readFunction _ name) []] => some name
  | _ => none

theorem of_calledName? {nodes : List Node} {name : String}
    (called : calledName? nodes = some name) :
    ∃ tag calleeTag, nodes = [.call tag (.readFunction calleeTag name) []] := by
  unfold calledName? at called
  split at called
  · cases called
    exact ⟨_, _, rfl⟩
  · cases called

/-- What is called, what is declared under which names, and what the values of the call are. -/
theorem evaluated_calling :
    (start .silent).toOption.map (fun session =>
      let later := session.served (usedModule "f")
      let nodes := ((Lowering.lowerUnit (calling "f") later.lowering).1.toOption.getD [])
      (calledName? nodes,
        (Node.declaredIn (session.loweredNodes (usedModule "f") ++ nodes)).map Callable.name,
        (session.interpreter.evaluateUnit 9 nodes later.machine).1.toOption.map
          (·.map Value.display))) =
      some (some "f-0", ["f-0"], some ["mine"]) := by
  decide +kernel

theorem call_runs_declaration_calling :
    ∃ session nodes tag calleeTag declaration, start .silent = .ok session ∧
      (Lowering.lowerUnit (calling "f") (session.served (usedModule "f")).lowering).1 = .ok nodes ∧
      nodes = [.call tag (.readFunction calleeTag declaration.name) []] ∧
      declaration ∈ Node.declaredIn (session.loweredNodes (usedModule "f") ++ nodes) ∧
      session.interpreter.evaluate 9 (.call tag (.readFunction calleeTag declaration.name) [])
          session.interpreter.global (session.served (usedModule "f")).machine =
        session.interpreter.callWith 8 declaration
          (.call tag (.readFunction calleeTag declaration.name) []) []
          session.interpreter.global (session.served (usedModule "f")).machine := by
  obtain ⟨session, started, computed⟩ := exists_start_of_computed evaluated_calling
  obtain ⟨called, rest⟩ := Prod.mk.inj computed
  obtain ⟨names, values⟩ := Prod.mk.inj rest
  cases lowers : Lowering.lowerUnit (calling "f") (session.served (usedModule "f")).lowering with
  | mk result lowering =>
    rw [lowers] at called names values
    cases result with
    | error error => cases called
    | ok nodes =>
      have mem : "f-0" ∈ (Node.declaredIn
          (session.loweredNodes (usedModule "f") ++ nodes)).map Callable.name :=
        names ▸ List.mem_singleton.mpr rfl
      obtain ⟨declaration, declared, named⟩ := List.mem_map.mp mem
      rw [← named] at called
      obtain ⟨tag, calleeTag, rfl⟩ := of_calledName? called
      have reached : session.interpreter.Reaches (8 + 1) session.interpreter.global
          [.call tag (.readFunction calleeTag declaration.name) []]
          (session.served (usedModule "f")).machine session.interpreter.global
          [.call tag (.readFunction calleeTag declaration.name) []]
          (session.served (usedModule "f")).machine := .here
      obtain ⟨-, ⟨e, -, failed⟩ | runs | ⟨unlisted, -⟩⟩ :=
        call_runs_declaration started (usedModule "f") lowers reached declared
      · have ran : (session.interpreter.evaluateUnit 9 [.call tag
            (.readFunction calleeTag declaration.name) []]
            (session.served (usedModule "f")).machine).1.toOption.map (·.map Value.display) =
            some ["mine"] := values
        rw [failed] at ran
        cases ran
      · exact ⟨session, _, tag, calleeTag, declaration, started, congrArg Prod.fst lowers, rfl,
          declared, runs⟩
      · rw [named] at unlisted
        exact absurd unlisted (by decide +kernel)

/-- A function that bears the name of such a constructor is passed by. -/
example :
    (start .silent).toOption.map (fun session =>
      (eval 9 (calling "Int") (session.served (usedModule "Int"))).1.toOption.map Value.display) =
      some (some "Int()") := by
  decide +kernel

end Session

end ScriptCore
