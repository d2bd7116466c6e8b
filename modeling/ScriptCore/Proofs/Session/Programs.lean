import ScriptCore.Program
import ScriptCore.Proofs.Lowering.Records
import ScriptCore.Proofs.Lowering.Statements
import ScriptCore.Proofs.Session.Calls

/-!
# The entries of programs

Running a program calls the first `main` of all that its session has seen: the one that was declared
first and has never been taken back. A program whose session has one from an earlier program calls
that one, whatever the program itself declares. It calls its own `main` only where there is no
earlier one (`run_calls_first_entry`).
-/
namespace ScriptCore

namespace Lowering

/-- Of the overloads of a name that pass a test, the innermost frame has those of the functions that
have been declared, behind those that it has had before. -/
def AddsOnly (name : String) (test : Overload → Bool) (s : State) (declared : List Callable)
    (s' : State) : Prop :=
  (s'.scope.current.overloads name).filter test =
    (s.scope.current.overloads name).filter test ++ (overloadsOf name declared).filter test

section AddsOnly

variable {name : String} {test : Overload → Bool} {s s' : State} {declared : List Callable}

theorem addsOnly_of_same (same : s'.scope.current.overloads name = s.scope.current.overloads name) :
    AddsOnly name test s [] s' := by
  simp [AddsOnly, same, overloadsOf]

theorem addsOnly_declare {callable : Callable} {source : String} {type : FnTy}
    (named : callable.sourceName = source)
    (overload : (⟨callable.name, callable.type⟩ : Overload) = s.scope.nextOverload source type) :
    AddsOnly name test s [callable] (s.declare source type) := by
  have own : (s.declare source type).scope.current.overloads name =
      (s.scope.current.addOverload source (s.scope.nextOverload source type)).overloads name := by
    rw [State.declare]
    split <;> rfl
  rw [AddsOnly, own, Scope.Frame.overloads_addOverload, overloadsOf_singleton, named, overload]
  by_cases same : source = name
  · subst same
    simp
  · simp [same]

/-- Besides functions only the constructors of records become overloads. -/
theorem tracks_addsOnly (constructors : ∀ index fields,
    test ⟨overloadName name index, ⟨fields, recordType name fields, none⟩⟩ = false) :
    Tracks (AddsOnly name test) where
  refl := addsOnly_of_same rfl
  trans := by
    intro s s₁ s' first second before behind
    rw [AddsOnly, behind, before, overloadsOf_append, List.filter_append, List.append_assoc]
  leave := by
    intro s outside s₁ declared parameters inside same
    rw [AddsOnly, scope_leave same]
    exact inside
  declare := addsOnly_declare
  define := addsOnly_of_same rfl
  record := by
    intro s source fields
    have own : (s.scope.defineType source (recordType source fields)).current.overloads name =
        (s.scope.current.addOverload source
          (s.scope.nextOverload source ⟨fields, recordType source fields, none⟩)).overloads
            name := rfl
    rw [AddsOnly, own, Scope.Frame.overloads_addOverload]
    by_cases same : source = name
    · subst same
      simp [Scope.nextOverload, constructors, overloadsOf]
    · simp [same, overloadsOf]
  fresh := addsOnly_of_same rfl

end AddsOnly

end Lowering

namespace Store

/-- A scope with a function of this name of its own. -/
def Has (store : Store) (env : Location) (name : String) : Prop :=
  ∃ frame, store.frame? env = some frame ∧ frame.functions.contains name = true

variable {store old new : Store} {env location : Location} {name : String}

/-- A function is never given up by its scope. -/
theorem Has.evolves (has : old.Has location name) (evolves : Evolves env old new) :
    new.Has location name := by
  obtain ⟨frame, there, known⟩ := has
  obtain ⟨frame', there', grows, -⟩ := evolves location frame there
  exact ⟨frame', there', grows.functions name known⟩

theorem has_declareFunction {callable : Callable}
    (inside : ∃ frame, store.frame? env = some frame) :
    (store.declareFunction env name callable).Has env name := by
  obtain ⟨frame, there⟩ := inside
  refine ⟨_, frame?_update_self there, ?_⟩
  rw [Table.contains, Table.get?_insert_self]
  rfl

/-- A function that a scope has of its own is found there. -/
theorem Has.exists_lookupFunction (has : store.Has env name) :
    ∃ callable, store.lookupFunction env name = .ok callable := by
  obtain ⟨frame, there, known⟩ := has
  obtain ⟨callable, own⟩ := Option.isSome_iff_exists.mp known
  have found : store.find env (·.function? name) = some callable := by
    simp only [find, findWithin, there, Frame.function?, own]
  exact ⟨callable, by rw [lookupFunction, found]⟩

end Store

namespace Interpreter

open Eval

variable {interpreter : Interpreter} {env target : Location}

theorem has_openModule (opened name : String) :
    Keeps (fun heap => heap.Has env name) (Eval.openModule opened interpreter.global) := by
  have opens (now : Store) :
      Keeps (Store.Evolves interpreter.global now) (Eval.openModule opened interpreter.global) :=
    keeps_openModule opened interpreter.global
  exact Keeps.of_relation opens (fun _ => .refl) fun _ _ has evolves => has.evolves evolves

theorem declares_function (fuel : Nat) (tag : Tag) (header : FunctionHeader) (body : List Node) :
    Triple (fun heap => ∃ frame, heap.frame? env = some frame)
      (interpreter.evaluate fuel (.function tag header body) env)
      (fun _ heap => heap.Has env header.name) .any := by
  cases fuel with
  | zero => exact Triple.exhausted fun _ _ => trivial
  | succ fuel =>
    have declared : Triple (fun heap => ∃ frame, heap.frame? env = some frame)
        (Eval.declareFunction env header.name (.function header body))
        (fun _ heap => heap.Has env header.name) .any :=
      Triple.declareFunction fun _ inside => Store.has_declareFunction inside
    exact Triple.located (declared.bind fun _ => Triple.pure fun _ has => has)

theorem callFunction_of_found {fuel : Nat} {name : String} {arguments : Arguments}
    {callable : Callable} {m : Machine}
    (found : m.store.lookupFunction interpreter.global name = .ok callable) :
    interpreter.callFunction fuel name arguments m =
      Eval.holding callable.kept (interpreter.invoke fuel callable
        (.readFunction ⟨callable.type.result, .synthetic⟩ name) arguments interpreter.global) m := by
  have looked : Eval.lookupFunction interpreter.global name m = (.ok callable, m) := by
    rw [Eval.lookupFunction, Eval.ask, found]
  rw [callFunction, Attempt.bind_ok looked]

theorem callFunction_of_missing {fuel : Nat} {name : String} {arguments : Arguments}
    {fault : Fault} {m : Machine}
    (missing : m.store.lookupFunction interpreter.global name = .error fault) :
    interpreter.callFunction fuel name arguments m = (.error (.failed (.ofFault fault)), m) := by
  have failed : Eval.lookupFunction interpreter.global name m =
      (.error (.failed (.ofFault fault)), m) := by
    rw [Eval.lookupFunction, Eval.ask, missing]
  rw [callFunction, Attempt.bind_error failed]

variable (hosts : interpreter.natives = Native.standard)

include hosts

theorem has_evaluateFrom (fuel : Nat) (unit : List Node) (name : String) :
    Keeps (fun heap => heap.Has env name) (interpreter.evaluateFrom fuel target unit) := by
  refine Triple.mono (Triple.evaluateFrom (fun _ _ heap => heap.Has env name) (fun _ _ => True) ?_
    ?_ target) ?_
  · intro target node rest _ _
    have evaluated : Keeps (fun heap => heap.Has env name)
        (interpreter.evaluate fuel node target) :=
      Keeps.of_relation (evolving_evaluate hosts fuel node target) (fun _ => .refl)
        fun _ _ has evolves => has.evolves evolves
    exact Triple.uncaught (Triple.mono evaluated fun _ _ has => ⟨trivial, has⟩)
  · intro target tag opened rest _
    exact Triple.mono (has_openModule opened name) fun _ _ has => ⟨trivial, has⟩
  · rintro _ _ ⟨-, _, has⟩
    exact has

/-- A unit without module statements has declared its functions in its scope when it ends. -/
theorem declares_evaluateFrom (fuel : Nat) {unit : List Node} {tag : Tag} {header : FunctionHeader}
    {body : List Node} (none : ∀ node ∈ unit, ∀ tag name, node ≠ .openModule tag name)
    (mem : .function tag header body ∈ unit) :
    Triple (fun heap => ∃ frame, heap.frame? target = some frame)
      (interpreter.evaluateFrom fuel target unit)
      (fun _ heap => heap.Has target header.name) .any := by
  induction unit with
  | nil => cases mem
  | cons node rest ih =>
    obtain ⟨other, others⟩ := List.forall_mem_cons.mp none
    rw [evaluateFrom_cons other]
    rcases List.mem_cons.mp mem with rfl | behind
    · have declared : Triple (fun heap => ∃ frame, heap.frame? target = some frame)
          (interpreter.evaluate fuel (.function tag header body) target)
          (fun _ heap => heap.Has target header.name) .any :=
        declares_function fuel tag header body
      have rest : Keeps (fun heap => heap.Has target header.name)
          (interpreter.evaluateFrom fuel target rest) :=
        has_evaluateFrom hosts fuel rest header.name
      refine Triple.bind (Triple.uncaught declared) fun _ => ?_
      exact Triple.bind (Triple.holding (Triple.any rest)) fun _ => Triple.pure fun _ has => has
    · have inside : Keeps (fun heap => ∃ frame, heap.frame? target = some frame)
          (interpreter.evaluate fuel node target) := by
        refine Keeps.of_relation (evolving_evaluate hosts fuel node target) (fun _ => .refl) ?_
        rintro now later ⟨frame, there⟩ evolves
        obtain ⟨frame', there', -⟩ := evolves target frame there
        exact ⟨frame', there'⟩
      refine Triple.bind (Triple.uncaught (Triple.any inside)) fun _ => ?_
      exact Triple.bind (Triple.holding (ih others behind)) fun _ => Triple.pure fun _ has => has

theorem evolves_callFunction (fuel : Nat) (name : String) (arguments : Arguments) (start : Store) :
    Keeps (Store.Evolves interpreter.global start)
      (interpreter.callFunction fuel name arguments) :=
  (Keeps.lookupFunction _ _).bind fun _ =>
    Triple.holding (keeps_invokeWith hosts (evolving_evaluate hosts fuel) _ _ _)

/-- A call from outside keeps to what is allowed. -/
theorem settled_callFunction {allowed : Callable → Prop} (fuel : Nat) (name : String)
    (arguments : Arguments) :
    Keeps (interpreter.Settled allowed interpreter.global)
      (interpreter.callFunction fuel name arguments) := by
  have takes : Keeps (Takes allowed interpreter.global [])
      (interpreter.callFunction fuel name arguments) :=
    (Keeps.lookupFunction _ _).bind fun _ => Triple.holding
      (takes_invokeWith (rooting_evaluate hosts fuel) (evolving_evaluate hosts fuel) hosts _ _ _ _)
  have stays : Keeps (fun heap => heap.IsRoot interpreter.global)
      (interpreter.callFunction fuel name arguments) :=
    Keeps.of_relation (evolves_callFunction hosts fuel name arguments) (fun _ => .refl)
      fun _ _ root evolves => root.evolves evolves
  have after : ∀ heap, Takes allowed interpreter.global [] heap ∧ heap.IsRoot interpreter.global →
      interpreter.Settled allowed interpreter.global heap :=
    fun _ held => ⟨held.1.1, held.2, held.2⟩
  refine Triple.consequence (takes.and stays) ?_ (fun _ => after)
    ⟨fun _ => after, fun _ => after, after⟩
  exact fun _ held => ⟨⟨held.1, held.2.1.takes nofun⟩, held.2.1⟩

end Interpreter

namespace Program

open Session

/-- The functions that a program could be entered by. -/
def entries (declared : List Callable) : List Callable :=
  declared.filter fun callable =>
    callable.sourceName = "main" && isEntry ⟨callable.name, callable.type⟩

/-- Units are run as programs. -/
def running : Feed (Nat × List Stmt) where
  unit := Prod.snd
  step program session := (run program.1 program.2 session).2

/-- The session after programs have been run in it. -/
def after (session : Session) (history : History) : Session := running.after session history

/-- The nodes of the units that lower. -/
def loweredNodes (session : Session) (history : History) : List Node :=
  running.lowered session history

/-- Call a function that a program is entered by. -/
def callEntry (fuel : Nat) (entry : Callable) : SessionStep Int64 := do
  let site : Node := .readFunction ⟨entry.type.result, .synthetic⟩ entry.name
  let value ← Session.evaluate fun interpreter =>
    Eval.holding entry.kept (interpreter.invoke fuel entry site [] interpreter.global)
  Attempt.ofExcept (status value)

/-- A session whose scope has the entries of what has been declared at the top level, in the order
of their declarations. -/
structure Ready (declared : List Callable) (session : Session) : Prop where
  placed : session.Placed declared
  main : (session.scope.overloads "main").filter isEntry =
    (overloadsOf "main" declared).filter isEntry

theorem filter_overloadsOf (declared : List Callable) :
    (overloadsOf "main" declared).filter isEntry =
      (entries declared).map fun callable => ⟨callable.name, callable.type⟩ := by
  rw [overloadsOf, List.filter_map, List.filter_filter, entries]
  congr 1
  refine List.filter_congr fun callable _ => ?_
  simp [Bool.and_comm]

section Ready

variable {declared : List Callable} {session : Session} {fuel : Nat} {unit : List Stmt}

theorem Ready.main?_eq (ready : Ready declared session) :
    main? session.scope = (entries declared).head?.map fun callable =>
      ⟨callable.name, callable.type⟩ := by
  rw [main?, ← List.head?_filter, ready.main, filter_overloadsOf, List.head?_map]

theorem ready_start {output : Output} (started : start output = .ok session) :
    Ready [] session := by
  refine ⟨placed_start started, ?_⟩
  rw [scope, lowering_start started]
  decide +kernel

/-- The constructor of a record makes no entry. -/
theorem isEntry_constructor (index : Nat) (fields : Parameters) :
    isEntry ⟨overloadName "main" index, ⟨fields, Lowering.recordType "main" fields, none⟩⟩ =
      false := by
  have other : Ty.int ≠ Lowering.recordType "main" fields :=
    (Lowering.recordType_ne_builtin (by decide)).symm
  have notAny : Lowering.recordType "main" fields ≠ .any :=
    Lowering.recordType_ne_builtin (by decide)
  have int : Ty.int ≠ .any := by decide
  simp [isEntry, Ty.accepts, Ty.isAny, other, notAny, int]

section Run

variable {ran : Session} {values : List Value}

theorem run_of_error {error : SessionError}
    (failed : Session.run fuel unit session = (.error error, ran)) :
    run fuel unit session = (.error error, ran) := by
  rw [run, Attempt.bind_error failed]

theorem run_of_no_main (done : Session.run fuel unit session = (.ok values, ran))
    (none : main? ran.scope = none) : run fuel unit session = (.error .mainNotFound, ran) := by
  have failed : findEntry ran = (.error .mainNotFound, ran) := by rw [findEntry, none]
  rw [run, Attempt.bind_ok done, Attempt.bind_error failed]

theorem run_of_main {overload : Overload}
    (done : Session.run fuel unit session = (.ok values, ran))
    (found : main? ran.scope = some overload) :
    run fuel unit session = (do
      let value ← evaluate (·.callFunction fuel overload.name [])
      Attempt.ofExcept (status value)) ran := by
  have entered : findEntry ran = (.ok overload, ran) := by rw [findEntry, found]
  rw [run, Attempt.bind_ok done, Attempt.bind_ok entered]

/-- Behind its unit, a program calls a function or does nothing more. -/
theorem session_run (fuel : Nat) (unit : List Stmt) (session : Session) :
    (run fuel unit session).2 = (Session.run fuel unit session).2 ∨
      ∃ name, (run fuel unit session).2 =
        (evaluate (·.callFunction fuel name []) (Session.run fuel unit session).2).2 := by
  rcases done : Session.run fuel unit session with ⟨error | values, ran⟩
  · rw [run_of_error done]
    exact .inl rfl
  · cases found : main? ran.scope with
    | none =>
      rw [run_of_no_main done found]
      exact .inl rfl
    | some entry =>
      refine .inr ⟨entry.name, ?_⟩
      rw [run_of_main done found, Attempt.bind_run]
      rcases evaluate (·.callFunction fuel entry.name []) ran with ⟨_ | _, _⟩ <;> rfl

end Run

theorem serve_run (fuel : Nat) (unit : List Stmt) (session : Session) :
    ((Request.run fuel unit).serve session).2 = (Session.run fuel unit session).2 := by
  rw [Request.serve, Attempt.bind_run]
  rcases Session.run fuel unit session with ⟨_ | _, _⟩ <;> rfl

theorem Ready.ran (ready : Ready declared session) :
    Ready (declared ++ Node.declaredIn (session.nodesOf unit))
      (Session.run fuel unit session).2 := by
  have placed := ready.placed.serve (.run fuel unit)
  rw [serve_run] at placed
  refine ⟨placed, ?_⟩
  rw [Scope.overloads_of_outer placed.outer]
  rcases session.run_cases fuel unit with
    ⟨error, fails, ran⟩ | ⟨nodes, lowering, lowers, compiled, ran⟩
  · have nothing : session.nodesOf unit = [] := by
      rw [nodesOf, fails]
      rfl
    have before := ready.main
    rw [Scope.overloads_of_outer ready.placed.outer] at before
    simpa [nothing, ran, Node.declaredIn] using before
  · have added : Lowering.AddsOnly "main" isEntry session.lowering (Node.declaredIn nodes)
        lowering :=
      (Lowering.lowers_of_lowerStmts lowers).tracked (Lowering.tracks_addsOnly isEntry_constructor)
    have before := ready.main
    rw [Scope.overloads_of_outer ready.placed.outer] at before
    rw [nodesOf_eq_of_ok compiled, overloadsOf_append, List.filter_append, ← before, ran, scope,
      lowering_evaluate]
    exact added

/-- What a call from outside leaves behind. -/
theorem Ready.called (ready : Ready declared session) (name : String) :
    Ready declared (evaluate (·.callFunction fuel name []) session).2 := by
  rw [session_evaluate]
  obtain ⟨hosts, outer, reachable, overloads, settled⟩ := ready.placed
  have later := (Interpreter.settled_callFunction hosts fuel name []).ends settled
  exact ⟨⟨hosts, outer, reachable, overloads, later⟩, ready.main⟩

theorem Ready.run (ready : Ready declared session) :
    Ready (declared ++ Node.declaredIn (session.nodesOf unit)) (run fuel unit session).2 := by
  rcases session_run fuel unit session with same | ⟨name, same⟩
  · rw [same]
    exact ready.ran
  · rw [same]
    exact ready.ran.called name

theorem Ready.after (ready : Ready declared session) (history : History) :
    Ready (declared ++ Node.declaredIn (loweredNodes session history))
      (Program.after session history) := by
  refine running.carried (P := fun nodes later => Ready (declared ++ Node.declaredIn nodes) later)
    (by simpa [Node.declaredIn] using ready) ?_ history
  intro nodes later program ready
  rw [Node.declaredIn_append, ← List.append_assoc]
  exact ready.run

theorem interpreter_run (fuel : Nat) (unit : List Stmt) (session : Session) :
    (run fuel unit session).2.interpreter = session.interpreter := by
  have ran : (Session.run fuel unit session).2.interpreter = session.interpreter := by
    rw [← serve_run, interpreter_serve]
  rcases session_run fuel unit session with same | ⟨name, same⟩
  · rw [same, ran]
  · rw [same, session_evaluate, ran]

theorem interpreter_after (session : Session) (history : History) :
    (Program.after session history).interpreter = session.interpreter :=
  running.kept (P := fun later => later.interpreter = session.interpreter) rfl
    (fun later program same => (interpreter_run program.1 program.2 later).trans same) history

/-- A session whose global scope has a function of this name. -/
def Has (session : Session) (name : String) : Prop :=
  session.machine.heap.Has session.interpreter.global name

theorem Has.ran {name : String} (has : Has session name)
    (hosts : session.interpreter.natives = Native.standard) :
    Has (Session.run fuel unit session).2 name := by
  rcases session.run_cases fuel unit with ⟨error, -, ran⟩ | ⟨nodes, lowering, -, -, ran⟩
  · rwa [ran]
  · rw [ran, session_evaluate]
    exact (Interpreter.has_evaluateFrom hosts fuel nodes name).ends has

/-- A program that has run its unit does not give up a function with the call behind it. -/
theorem Has.behind {name : String} (has : Has (Session.run fuel unit session).2 name)
    (hosts : session.interpreter.natives = Native.standard) :
    Has (run fuel unit session).2 name := by
  have hosts' : (Session.run fuel unit session).2.interpreter.natives = Native.standard := by
    rw [← serve_run, interpreter_serve, hosts]
  rcases session_run fuel unit session with same | ⟨called, same⟩
  · rwa [same]
  · rw [same, session_evaluate]
    have keeps : Eval.Keeps (fun heap => heap.Has
        (Session.run fuel unit session).2.interpreter.global name)
        ((Session.run fuel unit session).2.interpreter.callFunction fuel called []) :=
      Eval.Keeps.of_relation (Interpreter.evolves_callFunction hosts' fuel called [])
        (fun _ => .refl) fun _ _ has evolves => has.evolves evolves
    exact keeps.ends has

theorem Has.after {name : String} (has : Has session name)
    (hosts : session.interpreter.natives = Native.standard) (history : History) :
    Has (Program.after session history) name := by
  refine (running.kept (P := fun later => Has later name ∧
    later.interpreter.natives = Native.standard) ⟨has, hosts⟩ ?_ history).1
  rintro later program ⟨has, hosts⟩
  refine ⟨(has.ran hosts).behind hosts, ?_⟩
  rw [← hosts]
  exact congrArg Interpreter.natives (interpreter_run program.1 program.2 later)

/-- What the global scope has once a unit has run, it has after the units behind it, the last of
which is yet to call its entry. -/
theorem Has.of_earlier {history earlier later : History} {fuel' : Nat} {unit' : List Stmt}
    {values values' : List Value} {ran ran' : Session} {name : String} (has : Has ran' name)
    (hosts : session.interpreter.natives = Native.standard)
    (split : history ++ [(fuel, unit)] = earlier ++ (fuel', unit') :: later)
    (done' : Session.run fuel' unit' (Program.after session earlier) = (.ok values', ran'))
    (done : Session.run fuel unit (Program.after session history) = (.ok values, ran)) :
    Has ran name := by
  have hosted (history : History) :
      (Program.after session history).interpreter.natives = Native.standard := by
    rw [interpreter_after, hosts]
  rcases List.eq_nil_or_concat later with rfl | ⟨between, last, rfl⟩
  · obtain ⟨rfl, same⟩ := List.append_inj' split rfl
    cases same
    rw [done] at done'
    cases done'
    exact has
  · have split' : history ++ [(fuel, unit)] =
        (earlier ++ (fuel', unit') :: between) ++ [last] := by
      rw [split, List.append_assoc, List.cons_append, List.concat_eq_append]
    obtain ⟨rfl, -⟩ := List.append_inj' split' rfl
    have early : Has (Session.run fuel' unit' (Program.after session earlier)).2 name := by
      rwa [done']
    have hosts' : (run fuel' unit' (Program.after session earlier)).2.interpreter.natives =
        Native.standard := by
      rw [interpreter_run, hosted]
    have late : Has (Program.after session (earlier ++ (fuel', unit') :: between)) name := by
      rw [Program.after, running.after_append]
      exact (early.behind (hosted earlier)).after hosts' between
    have kept : Has (Session.run fuel unit
        (Program.after session (earlier ++ (fuel', unit') :: between))).2 name :=
      late.ran (hosted _)
    rwa [done] at kept

/-- No entry bears the name of a constructor that the scope does not know of. -/
theorem Ready.name_notMem_unlisted (ready : Ready declared session) {entry : Callable}
    (mem : entry ∈ entries declared) : entry.name ∉ Builtin.unlisted := by
  obtain ⟨known, named, -⟩ := by simpa [entries] using mem
  obtain ⟨index, indexed⟩ := ready.placed.name_eq known
  intro unlisted
  obtain ⟨made, builtin, same⟩ := List.mem_map.mp (List.mem_of_mem_filter unlisted)
  have source : made.render = "main" :=
    (overloadName_inj (same.trans indexed)).1.trans named
  have none : ∀ made ∈ Builtin.classes, made.render ≠ "main" := by decide +kernel
  exact none made builtin source

/-- What a call from outside finds under the name of an entry is the entry. -/
theorem Ready.of_lookupFunction (ready : Ready declared session) {entry callable : Callable}
    (mem : entry ∈ entries declared)
    (found : session.machine.store.lookupFunction session.interpreter.global entry.name =
      .ok callable) : callable = entry := by
  have known : entry ∈ declared := List.mem_of_mem_filter mem
  rcases ready.placed.of_lookupFunction ready.placed.settled known found with
    same | ⟨unlisted, -⟩
  · exact same
  · exact absurd unlisted (ready.name_notMem_unlisted mem)

/-- The first entry of a session is called, if it is found. -/
theorem Ready.calls {ran : Session} {values : List Value} {entry : Callable}
    {others : List Callable} (ready : Ready declared ran)
    (done : Session.run fuel unit session = (.ok values, ran))
    (first : entries declared = entry :: others) :
    (Has ran entry.name → Program.run fuel unit session = callEntry fuel entry ran) ∧
      (Program.run fuel unit session = callEntry fuel entry ran ∨
        Program.run fuel unit session =
          (.error (.runtime (.ofFault (.undefinedFunction entry.name))), ran)) := by
  have mem : entry ∈ entries declared := by simp [first]
  have found : main? ran.scope = some ⟨entry.name, entry.type⟩ := by
    rw [ready.main?_eq, first]
    rfl
  rw [run_of_main done found]
  cases looked : ran.machine.store.lookupFunction ran.interpreter.global entry.name with
  | ok callable =>
    obtain rfl := ready.of_lookupFunction mem looked
    have same : (do
        let value ← evaluate (·.callFunction fuel callable.name [])
        Attempt.ofExcept (status value)) ran = callEntry fuel callable ran := by
      rw [callEntry, Attempt.bind_run, Attempt.bind_run, evaluate, evaluate,
        Interpreter.callFunction_of_found looked]
    exact ⟨fun _ => same, .inl same⟩
  | error fault =>
    obtain rfl := Store.fault_of_lookupFunction looked
    have failed : evaluate (·.callFunction fuel entry.name []) ran =
        (.error (.runtime (.ofFault (.undefinedFunction entry.name))), ran) := by
      rw [evaluate, Interpreter.callFunction_of_missing looked]
      rfl
    refine ⟨fun has => ?_, .inr (Attempt.bind_error failed)⟩
    have known : ran.machine.store.Has ran.interpreter.global entry.name := has
    obtain ⟨callable, there⟩ := known.exists_lookupFunction
    rw [looked] at there
    cases there

/-- A unit without module statements that is evaluated has put its functions into the global
scope. -/
theorem Ready.declares (ready : Ready declared session) {ran : Session} {values : List Value}
    (done : Session.run fuel unit session = (.ok values, ran))
    (none : ∀ stmt ∈ unit, stmt.opens? = none) {tag : Tag} {header : FunctionHeader}
    {body : List Node} (mem : .function tag header body ∈ session.nodesOf unit) :
    Has ran header.name := by
  rcases session.run_cases fuel unit with
    ⟨error, -, failed⟩ | ⟨nodes, lowering, lowers, compiled, same⟩
  · rw [done] at failed
    cases failed
  · rw [nodesOf_eq_of_ok compiled] at mem
    have opens : nodes.filterMap Node.opens? = [] := by
      rw [(Lowering.lowers_of_lowerStmts lowers).opens, List.filterMap_eq_nil_iff]
      exact none
    have modules : ∀ node ∈ nodes, ∀ tag name, node ≠ .openModule tag name := by
      rintro _ there tag name rfl
      cases List.filterMap_eq_nil_iff.mp opens _ there
    obtain ⟨frame, there, -⟩ := ready.placed.settled.2.2
    rw [done, evaluate] at same
    cases evaluated : session.interpreter.evaluateUnit fuel nodes session.machine with
    | mk result machine =>
      simp only [evaluated] at same
      cases result with
      | error stop => cases same
      | ok values' =>
        cases same
        have declares := (Interpreter.declares_evaluateFrom ready.placed.hosts fuel modules
          mem).of_ok ⟨frame, there⟩ (congrArg Prod.fst evaluated)
        have after : (session.interpreter.evaluateFrom fuel session.interpreter.global nodes
            session.machine).2 = machine := congrArg Prod.snd evaluated
        rwa [after] at declares

end Ready

/-- In a fresh session where programs have been run, run a program whose unit lowers and is
evaluated without error. Of all entries that the units of the earlier programs and its own have
declared at the top level, if they lowered, the first is called and gives the status. Without an
entry the program fails. The function that is called is found unless its declaration has not been
evaluated in the global scope: if it is a statement of its own in this unit or an earlier one, and
that unit has no module statement and was evaluated without error, the function is found. -/
theorem run_calls_first_entry {output : Output} {session : Session}
    (started : start output = .ok session) (history : History) {fuel : Nat} {unit : List Stmt}
    {values : List Value} {ran : Session}
    (done : Session.run fuel unit (after session history) = (.ok values, ran)) :
    let declared := Node.declaredIn
      (loweredNodes session history ++ (after session history).nodesOf unit)
    (entries declared = [] →
      run fuel unit (after session history) = (.error .mainNotFound, ran)) ∧
    ∀ entry others, entries declared = entry :: others →
      (run fuel unit (after session history) = callEntry fuel entry ran ∨
        run fuel unit (after session history) =
          (.error (.runtime (.ofFault (.undefinedFunction entry.name))), ran)) ∧
      ∀ earlier later fuel' unit' values' ran', history ++ [(fuel, unit)] =
          earlier ++ (fuel', unit') :: later →
        Session.run fuel' unit' (after session earlier) = (.ok values', ran') →
        (∀ stmt ∈ unit', stmt.opens? = none) →
        ∀ tag header body, entry = .function header body →
          .function tag header body ∈ (after session earlier).nodesOf unit' →
          run fuel unit (after session history) = callEntry fuel entry ran := by
  intro declared
  have begun := ready_start started
  have ready : Ready declared ran := by
    have now : Ready _ (Session.run fuel unit (after session history)).2 :=
      (begun.after history).ran
    rwa [List.nil_append, ← Node.declaredIn_append, done] at now
  refine ⟨fun nothing => ?_, fun entry others first => ?_⟩
  · refine run_of_no_main done ?_
    rw [ready.main?_eq, nothing]
    rfl
  · obtain ⟨found, called⟩ := ready.calls done first
    refine ⟨called, ?_⟩
    rintro earlier later fuel' unit' values' ran' split done' none tag header body rfl mem
    have has : Has ran' header.name := (begun.after earlier).declares done' none mem
    exact found (has.of_earlier (hosts_start started) split done' done)

/-- A program whose status is this number. -/
def ending (status : Int64) : List Stmt :=
  [.expr (.function ⟨1⟩ none "main" ⟨[], some "Int"⟩
    [.returns ⟨1⟩ (.literal ⟨1⟩ (.scalar (.int status)))])]

def endingHeader : FunctionHeader := ⟨0, "main-0", "main", ⟨[], .int, none⟩, ⟨1⟩⟩

def endingBody (status : Int64) : List Node :=
  [.returns ⟨.int, ⟨1⟩⟩ (.literal ⟨.int, ⟨1⟩⟩ (.scalar (.int status)))]

theorem computed_ending :
    (start .silent).toOption.map (fun session =>
      let later := after session [(9, ending 1)]
      ((Session.run 9 (ending 1) session).1.isOk, (Session.run 9 (ending 2) later).1.isOk,
        (entries (Node.declaredIn (loweredNodes session [(9, ending 1)] ++
          later.nodesOf (ending 2)))).map Callable.name,
        (run 9 (ending 2) later).1.toOption)) =
      some (true, true, ["main-0", "main-1"], some 1) := by
  decide +kernel

/-- The second program ends with the status of the first. -/
theorem run_calls_first_entry_ending :
    ∃ session ran, start .silent = .ok session ∧
      (Session.run 9 (ending 2) (after session [(9, ending 1)])).2 = ran ∧
      run 9 (ending 2) (after session [(9, ending 1)]) =
        callEntry 9 (.function endingHeader (endingBody 1)) ran ∧
      (run 9 (ending 2) (after session [(9, ending 1)])).1.toOption = some 1 := by
  obtain ⟨session, started, computed⟩ := exists_start_of_computed computed_ending
  obtain ⟨first, rest⟩ := Prod.mk.inj computed
  obtain ⟨second, rest⟩ := Prod.mk.inj rest
  obtain ⟨names, status⟩ := Prod.mk.inj rest
  have nodes : session.nodesOf (ending 1) = [.function ⟨.fn ⟨[], .int, none⟩, ⟨1⟩⟩ endingHeader
      (endingBody 1)] := by
    rw [nodesOf_eq, lowering_start started]
    rfl
  rcases done' : Session.run 9 (ending 1) session with ⟨_ | values', ran'⟩
  · rw [done'] at first
    cases first
  · rcases done : Session.run 9 (ending 2) (after session [(9, ending 1)]) with ⟨_ | values, ran⟩
    · rw [done] at second
      cases second
    · obtain ⟨-, calls⟩ := run_calls_first_entry started [(9, ending 1)] done
      refine ⟨session, ran, started, congrArg Prod.snd done, ?_, status⟩
      have head : ∃ others, entries (Node.declaredIn (loweredNodes session [(9, ending 1)] ++
          (after session [(9, ending 1)]).nodesOf (ending 2))) =
            .function endingHeader (endingBody 1) :: others := by
        rw [loweredNodes, Feed.lowered, running, nodes]
        exact ⟨_, rfl⟩
      obtain ⟨others, entered⟩ := head
      exact (calls _ others entered).2 [] [(9, ending 2)] 9 (ending 1) values' ran' rfl done'
        (by decide) _ endingHeader (endingBody 1) rfl (nodes ▸ List.mem_singleton.mpr rfl)

end Program

end ScriptCore
