import ScriptCore.Proofs.Eval.Declaring
import ScriptCore.Proofs.Lowering.Reserved
import ScriptCore.Proofs.Session.Calls
import ScriptCore.Proofs.Session.TypeSafety

/-!
# Variables that are declared once

A session never fails because a variable is declared already, if in no scope of its units a name is
declared twice and if all of them agree on the types of functions, those that are named and those
that variables are declared to be (`never_redeclares`). This needs to be so of `Unit` as well, which
the bootstrap binds and which a function may assign to: a variable of this name that is declared
with a function type may be given any value by it (`redeclares_shadowedUnit`).
-/
namespace ScriptCore

namespace Node

/-- Nodes without modules and records that declare no variable twice in one scope, and that agree on
the types of functions and of those variables that have a function type anywhere. -/
structure Orderly (nodes : List Node) : Prop where
  records : ∀ node ∈ all nodes, node.isRecord = false
  modules : ∀ node ∈ all nodes, node.opens? = none
  vars : ∀ first ∈ (all nodes).flatMap ownVariables, ∀ second ∈ (all nodes).flatMap ownVariables,
    first.1 = second.1 → first.2.asFunction?.isSome → first.2 = second.2
  functions : ∀ first ∈ functionsOf nodes, ∀ second ∈ functionsOf nodes,
    first.1 = second.1 → first.2 = second.2
  scopes : ∀ node ∈ all nodes, ∀ names ∈ node.ownScopes, names.Nodup
  global : ("Unit" :: boundNames nodes).Nodup

/-- No variable with the name of the one of a fresh session has a function type. -/
def SparesUnit (nodes : List Node) : Prop :=
  ∀ own ∈ (all nodes).flatMap ownVariables, own.1 = "Unit" → own.2.asFunction? = none

instance (nodes : List Node) : Decidable (Orderly nodes) :=
  decidable_of_iff
    ((∀ node ∈ all nodes, node.isRecord = false) ∧ (∀ node ∈ all nodes, node.opens? = none) ∧
      (∀ first ∈ (all nodes).flatMap ownVariables,
        ∀ second ∈ (all nodes).flatMap ownVariables,
          first.1 = second.1 → first.2.asFunction?.isSome → first.2 = second.2) ∧
      (∀ first ∈ functionsOf nodes, ∀ second ∈ functionsOf nodes,
        first.1 = second.1 → first.2 = second.2) ∧
      (∀ node ∈ all nodes, ∀ names ∈ node.ownScopes, names.Nodup) ∧
      ("Unit" :: boundNames nodes).Nodup)
    ⟨fun ⟨records, modules, vars, functions, scopes, global⟩ =>
        ⟨records, modules, vars, functions, scopes, global⟩,
      fun orderly => ⟨orderly.records, orderly.modules, orderly.vars, orderly.functions,
        orderly.scopes, orderly.global⟩⟩

instance (nodes : List Node) : Decidable (SparesUnit nodes) :=
  inferInstanceAs (Decidable (∀ own ∈ (all nodes).flatMap ownVariables,
    own.1 = "Unit" → own.2.asFunction? = none))

/-- Nodes that have nothing else than what is declared, open no module, and declare no variable
twice in one scope. -/
structure Declarable (declared : Declarations) (nodes : List Node) : Prop where
  admits : declared.AdmitsAll nodes
  modules : ∀ node ∈ all nodes, node.opens? = none
  scopes : ∀ node ∈ all nodes, ∀ names ∈ node.ownScopes, names.Nodup
  distinct : (boundNames nodes).Nodup

section Declarable

variable {declared : Declarations} {nodes first second : List Node}

theorem Declarable.append (declarable : Declarable declared (first ++ second)) :
    Declarable declared first ∧ Declarable declared second := by
  obtain ⟨admits, modules, scopes, distinct⟩ := declarable
  rw [boundNames_append] at distinct
  obtain ⟨distinct, distinct', -⟩ := List.nodup_append.mp distinct
  obtain ⟨admits, admits'⟩ := Declarations.admitsAll_append.mp admits
  obtain ⟨modules, modules'⟩ := forall_all_append.mp modules
  obtain ⟨scopes, scopes'⟩ := forall_all_append.mp scopes
  exact ⟨⟨admits, modules, scopes, distinct⟩, admits', modules', scopes', distinct'⟩

theorem Declarable.global (declarable : Declarable declared nodes) :
    ∀ tag name, .openModule tag name ∉ nodes := by
  intro tag name mem
  have none := declarable.modules _ (mem_all.mpr ⟨_, mem, .inl rfl⟩)
  cases none

end Declarable

/-- What nodes and the scope of a fresh session declare, without regard to hosts and classes. -/
def offered (nodes : List Node) : Declarations where
  vars name type := (name, type) ∈ variablesOf nodes
  functions name type := (name, type) ∈ functionsOf nodes ∨
    (name = overloadName "String" 0 ∧ type = stringConstructor)
  hosts _ := True
  classes _ := True

section Orderly

variable {nodes : List Node} (orderly : Orderly nodes)

include orderly

theorem Orderly.admits : (offered nodes).AdmitsAll nodes := by
  intro node mem
  have own : ∀ bound ∈ node.ownVariables, (offered nodes).vars bound.1 bound.2 :=
    fun bound declares => List.mem_cons_of_mem _ (List.mem_flatMap.mpr ⟨node, mem, declares⟩)
  have ownFunction : ∀ bound ∈ node.ownFunctions, (offered nodes).functions bound.1 bound.2 :=
    fun bound declares => .inl (List.mem_flatMap.mpr ⟨node, mem, declares⟩)
  cases node with
  | bind tag mutability name value => exact own (name, tag.type) List.mem_cons_self
  | function tag header body => exact ⟨ownFunction (_, _) List.mem_cons_self, own⟩
  | anonymous => exact own
  | native tag header => exact ⟨ownFunction (_, _) List.mem_cons_self, trivial⟩
  | record => exact absurd (orderly.records _ mem) nofun
  | _ => trivial

theorem Orderly.unambiguous (unit : SparesUnit nodes)
    (string : Spares (overloadName "String" 0) nodes) : (offered nodes).Unambiguous where
  vars := by
    intro name type other known knownOther
    rcases List.mem_cons.mp known with same | own
    · cases same
    rcases List.mem_cons.mp knownOther with same | ownOther
    · cases same
      cases unit _ own rfl
    · exact (orderly.vars _ own _ ownOther rfl rfl).symm
  functions := by
    have apart {type : FnTy} : (overloadName "String" 0, type) ∉ functionsOf nodes := by
      intro mem
      obtain ⟨node, there, declares⟩ := List.mem_flatMap.mp mem
      exact string node there _ declares rfl
    intro name type other known knownOther
    rcases known with own | ⟨rfl, rfl⟩ <;> rcases knownOther with ownOther | ⟨named, rfl⟩
    · exact orderly.functions _ own _ ownOther rfl
    · exact absurd (named ▸ own) apart
    · exact absurd ownOther apart
    · rfl

end Orderly

end Node

namespace Lowering

/-- The first indexed name of a string is taken from the start. -/
theorem takes_freshLowering : Takes "String" Session.freshLowering := by
  unfold Takes
  decide +kernel

end Lowering

namespace Builtin

/-- A prepared store is suited, and its global scope has no other variable than `Unit`. -/
theorem Prepared.suited {global : Location} {heap : Store}
    (prepared : Prepared global (Table.empty.insert "Unit" ⟨.unit, .immutable⟩) heap)
    (declared : Declarations) : heap.Suited declared := by
  intro location frame there
  obtain rfl := prepared.only location frame there
  refine ⟨fun name value found type _ => ?_, fun name callable found => ?_⟩
  · obtain ⟨-, rfl⟩ := prepared.value there found
    exact trivial
  · obtain ⟨own, here, -, -, -, constructors⟩ := prepared.frame
    obtain rfl : own = frame := Option.some.inj (here.symm.trans there)
    obtain ⟨header, rfl⟩ := constructors name callable found
    exact ⟨trivial, fun _ _ => trivial⟩

theorem Prepared.free {global : Location} {heap : Store}
    (prepared : Prepared global (Table.empty.insert "Unit" ⟨.unit, .immutable⟩) heap)
    {names : List String} (other : "Unit" ∉ names) : heap.Free global names := by
  intro name mem
  obtain ⟨frame, there, -, -, bound, -⟩ := prepared.frame
  refine ⟨frame, there, ?_⟩
  have different : "Unit" ≠ name := fun same => other (same ▸ mem)
  rw [bound, Table.contains, Table.get?_insert_of_ne _ _ different]
  rfl

end Builtin

namespace Session

/-- No function of a session has an indexed name that is taken from the start. -/
theorem spares_loweredNodes {plain : String} {session : Session}
    (taken : Lowering.Takes plain session.lowering) (requests : List Request) :
    Node.Spares (overloadName plain 0) (session.loweredNodes requests) := by
  refine (serving.carried (P := fun nodes later => Node.Spares (overloadName plain 0) nodes ∧
    Lowering.Takes plain later.lowering) ⟨Node.spares_nil, taken⟩ ?_ requests).1
  rintro earlier later request ⟨spared, taken⟩
  dsimp only [serving]
  rw [nodesOf_eq, Request.serve_eq, Attempt.bind_run, compile]
  cases lowers : Lowering.lowerUnit request.unit later.lowering with
  | mk result lowering =>
    cases result with
    | error error => exact ⟨spared.append Node.spares_nil, taken⟩
    | ok nodes =>
      obtain ⟨spares, taken⟩ := (Lowering.lowers_of_lowerStmts lowers).spares taken
      refine ⟨spared.append spares, ?_⟩
      rcases request.session_fulfil nodes { later with lowering := lowering } with
        same | ⟨fuel, same⟩
      all_goals
        dsimp only
        rw [same]
        exact taken

/-- A session whose scope and store are as declared, and whose global scope has none of these
variables yet. -/
structure Ready (declared : Declarations) (names : List String) (session : Session) : Prop where
  scope : session.scope.Admitted declared
  store : session.machine.heap.Suited declared
  hosts : session.interpreter.natives = Native.standard
  free : session.machine.heap.Free session.interpreter.global names

theorem ready_start {output : Output} {session : Session} (started : start output = .ok session)
    {nodes : List Node} (orderly : Node.Orderly nodes) :
    session.Ready (Node.offered nodes) (Node.boundNames nodes) := by
  have prepared := prepared_start started
  refine ⟨?_, prepared.suited _, hosts_start started, ?_⟩
  · rw [scope, lowering_start started]
    exact Scope.admitted_builtins_of (fun _ _ => trivial) List.mem_cons_self (.inr ⟨rfl, rfl⟩)
  · exact prepared.free (List.nodup_cons.mp orderly.global).1

section Ready

variable {declared : Declarations} {names : List String} {session : Session} {nodes : List Node}

/-- What a unit that has been lowered leaves behind when it has been served, whatever comes of
it. -/
theorem Ready.fulfil (unambiguous : declared.Unambiguous)
    (ready : session.Ready declared (Node.boundNames nodes ++ names))
    (typed : ∀ node ∈ nodes, Typed declared none node) (tidy : Node.Tidy nodes)
    (distinct : (Node.boundNames nodes ++ names).Nodup)
    (global : ∀ tag name, .openModule tag name ∉ nodes) (request : Request) :
    (request.fulfil nodes session).2.Ready declared names ∧
      ∀ e name, (request.fulfil nodes session).1 = .error (.runtime e) →
        e.fault ≠ .alreadyDeclared name := by
  have before : session.machine.heap.Awaits declared session.interpreter.global
      (Node.boundNames nodes) :=
    ⟨ready.store, ready.free.mono (List.subset_append_left _ _)⟩
  have after : session.machine.heap.Free session.interpreter.global names :=
    ready.free.mono (List.subset_append_right _ _)
  obtain ⟨own, -, apart⟩ := List.nodup_append.mp distinct
  have declares (fuel : Nat) := Interpreter.declares_evaluateUnit unambiguous ready.hosts fuel typed
    tidy own global
  constructor
  · rcases request.session_fulfil nodes session with same | ⟨fuel, same⟩
    · rw [same]
      exact ⟨ready.scope, ready.store, ready.hosts, after⟩
    · rw [same]
      refine ⟨ready.scope, ?_, ready.hosts, ?_⟩
      · exact Eval.Obeys.ends (Eval.redeclaringNothing declared) (declares fuel) before
      · have gains : Eval.Keeps (Store.GainsOnly session.interpreter.global
            (nodes.flatMap Node.additions) session.machine.heap)
            (session.interpreter.evaluateUnit fuel nodes) :=
          Interpreter.gains_evaluateUnit ready.hosts fuel global fun node mem addition added =>
            List.mem_flatMap.mpr ⟨node, mem, added⟩
        refine after.of_gains (gains.ends .refl) fun name mem added => ?_
        exact apart name (tidy.plain.mem_boundNames added) name mem rfl
  · intro e name failed
    obtain ⟨fuel, stop, stopped, same⟩ := Request.fulfil_eq_error failed
    have ended := (declares fuel).of_error before stopped
    cases stop with
    | returned value => cases same; exact nofun
    | failed e' => cases same; exact ended.1 name
    | exhausted => cases same

theorem Ready.serve (unambiguous : declared.Unambiguous)
    (classes : ∀ type ∈ ClassTy.builtins, declared.classes type) {request : Request}
    (ready : session.Ready declared (Node.boundNames (session.nodesOf request.unit) ++ names))
    (declarable : Node.Declarable declared (session.nodesOf request.unit))
    (distinct : (Node.boundNames (session.nodesOf request.unit) ++ names).Nodup) :
    (request.serve session).2.Ready declared names ∧
      ∀ e name, (request.serve session).1 = .error (.runtime e) →
        e.fault ≠ .alreadyDeclared name := by
  rw [nodesOf_eq] at ready declarable distinct
  rw [Request.serve_eq, Attempt.bind_run, compile]
  cases lowers : Lowering.lowerUnit request.unit session.lowering with
  | mk result lowering =>
    rw [lowers] at ready declarable distinct
    cases result with
    | error error =>
      refine ⟨ready, fun e name failed => ?_⟩
      cases failed
    | ok nodes =>
      obtain ⟨sound, scope⟩ := (Lowering.lowers_of_lowerStmts lowers).typed_of_classes
        classes declarable.admits ready.scope
      have later : Ready declared (Node.boundNames nodes ++ names)
          { session with lowering := lowering } :=
        ⟨scope, ready.store, ready.hosts, ready.free⟩
      exact later.fulfil unambiguous (fun node mem => (sound node mem).1)
        ⟨Lowering.plain_lowerUnit lowers, declarable.scopes⟩ distinct declarable.global request

theorem Ready.exchanges (unambiguous : declared.Unambiguous)
    (classes : ∀ type ∈ ClassTy.builtins, declared.classes type) {requests : List Request}
    (ready : session.Ready declared (Node.boundNames (session.loweredNodes requests)))
    (declarable : Node.Declarable declared (session.loweredNodes requests)) :
    ∀ exchange ∈ session.exchanges requests, ∀ e name,
      exchange.answer = .error (.runtime e) → e.fault ≠ .alreadyDeclared name := by
  induction requests generalizing session with
  | nil => exact List.forall_mem_nil _
  | cons request rest ih =>
    rw [loweredNodes_cons] at ready declarable
    obtain ⟨first, others⟩ := declarable.append
    have distinct := declarable.distinct
    rw [Node.boundNames_append] at ready distinct
    obtain ⟨later, answered⟩ := ready.serve unambiguous classes first distinct
    exact List.forall_mem_cons.mpr ⟨answered, ih later others⟩

end Ready

/-- No evaluation of a session ends with a variable that is declared already if its units are
orderly and declare no variable `Unit` with a function type. -/
theorem never_redeclares {output : Output} {session : Session}
    (started : start output = .ok session) {requests : List Request}
    (orderly : Node.Orderly (session.loweredNodes requests))
    (unit : Node.SparesUnit (session.loweredNodes requests)) :
    ∀ exchange ∈ session.exchanges requests, ∀ e name,
      exchange.answer = .error (.runtime e) → e.fault ≠ .alreadyDeclared name := by
  have taken : Lowering.Takes "String" session.lowering := by
    rw [lowering_start started]
    exact Lowering.takes_freshLowering
  have unambiguous := orderly.unambiguous unit (spares_loweredNodes taken requests)
  have declarable : Node.Declarable (Node.offered (session.loweredNodes requests))
      (session.loweredNodes requests) :=
    ⟨orderly.admits, orderly.modules, orderly.scopes, (List.nodup_cons.mp orderly.global).2⟩
  exact (ready_start started orderly).exchanges unambiguous (fun _ _ => trivial) declarable

/-- A function that calls itself, a loop of two rounds and a closure that is called twice. Each of
their scopes declares `c`. -/
def declaringAnew : List Request :=
  let bound (line : UInt32) (value : Expr) : Stmt := .bind ⟨line⟩ .immutable "c" none value
  let truth (line : UInt32) (value : Bool) : Expr := .literal ⟨line⟩ (.scalar (.boolean value))
  let signature : Signature := ⟨[("b", "Boolean")], some "Boolean"⟩
  [.run 9
    [.expr (.function ⟨1⟩ none "down" signature
      [bound 2 (.name ⟨2⟩ "b"),
       .expr (.branch ⟨3⟩ (.name ⟨3⟩ "b")
        [bound 4 (truth 4 false), .returns ⟨5⟩ (.call ⟨5⟩ (.name ⟨5⟩ "down") [.name ⟨5⟩ "c"])] []),
       .returns ⟨6⟩ (.name ⟨6⟩ "c")]),
     .expr (.call ⟨7⟩ (.name ⟨7⟩ "down") [truth 7 true])],
   .eval 9
    [.bind ⟨8⟩ .mutable "go" none (truth 8 true), .bind ⟨9⟩ .mutable "again" none (truth 9 true),
     .loop ⟨10⟩ (.name ⟨10⟩ "go")
      [bound 11 (.name ⟨11⟩ "go"), .expr (.assign ⟨12⟩ "go" (.name ⟨12⟩ "again")),
       .expr (.assign ⟨13⟩ "again" (truth 13 false))]],
   .run 9
    [.bind ⟨14⟩ .immutable "f" none (.anonymous ⟨14⟩ signature
      [bound 15 (.unary ⟨15⟩ .not (.name ⟨15⟩ "b")), .returns ⟨16⟩ (.name ⟨16⟩ "c")]),
     .expr (.call ⟨17⟩ (.name ⟨17⟩ "f") [.call ⟨17⟩ (.name ⟨17⟩ "f") [truth 17 true]])]]

theorem orderly_declaringAnew :
    (start .silent).toOption.map (fun session =>
      (decide (Node.Orderly (session.loweredNodes declaringAnew)),
        decide (Node.SparesUnit (session.loweredNodes declaringAnew)),
        (session.exchanges declaringAnew).map (·.answer.isOk))) =
      some (true, true, [true, true, true]) := by
  decide +kernel

theorem never_redeclares_declaringAnew :
    ∃ session, start .silent = .ok session ∧
      Node.Orderly (session.loweredNodes declaringAnew) ∧
      Node.SparesUnit (session.loweredNodes declaringAnew) ∧
      (session.exchanges declaringAnew).map (·.answer.isOk) = [true, true, true] ∧
      ∀ exchange ∈ session.exchanges declaringAnew, ∀ e name,
        exchange.answer = .error (.runtime e) → e.fault ≠ .alreadyDeclared name := by
  obtain ⟨session, started, computed⟩ := exists_start_of_computed orderly_declaringAnew
  obtain ⟨orderly, rest⟩ := Prod.mk.inj computed
  obtain ⟨unit, answers⟩ := Prod.mk.inj rest
  exact ⟨session, started, of_decide_eq_true orderly, of_decide_eq_true unit, answers,
    never_redeclares started (of_decide_eq_true orderly) (of_decide_eq_true unit)⟩

/-- A function that assigns the value of a branch to `Unit`, called where `Unit` is a variable of a
function type. The branch is of type `Unit`, as it has no other part, but its value is a function
with a parameter of another name. -/
def shadowedUnit : List Request :=
  let one : Expr := .literal ⟨1⟩ (.scalar (.int 1))
  let five : Expr := .literal ⟨5⟩ (.scalar (.int 5))
  [.run 20
    [.expr (.function ⟨1⟩ none "poison" ⟨[], none⟩
      [.expr (.assign ⟨1⟩ "Unit" (.branch ⟨1⟩ (.literal ⟨1⟩ (.scalar (.boolean true)))
        [.expr (.anonymous ⟨1⟩ ⟨[("a", "Int")], some "Int"⟩
          [.bind ⟨1⟩ .immutable "b" none one, .returns ⟨1⟩ (.name ⟨1⟩ "b")])] [])),
       .returns ⟨1⟩ (.literal ⟨1⟩ .unit)]),
     .block ⟨2⟩
      [.bind ⟨3⟩ .mutable "Unit" none (.anonymous ⟨3⟩ ⟨[("b", "Int")], some "Int"⟩
        [.returns ⟨3⟩ (.name ⟨3⟩ "b")]),
       .expr (.call ⟨4⟩ (.name ⟨4⟩ "poison") []),
       .expr (.call ⟨5⟩ (.name ⟨5⟩ "Unit") [five])]]]

/-- All variables of one name have one type here, and no scope declares a name twice. The call of
`Unit` binds its argument as `b`, which is what the invoked function calls a variable of its own. -/
theorem redeclares_shadowedUnit :
    ∃ session, start .silent = .ok session ∧
      Node.Orderly (session.loweredNodes shadowedUnit) ∧
      (∀ first ∈ (Node.all (session.loweredNodes shadowedUnit)).flatMap Node.ownVariables,
        ∀ second ∈ (Node.all (session.loweredNodes shadowedUnit)).flatMap Node.ownVariables,
          first.1 = second.1 → first.2 = second.2) ∧
      ∃ exchange ∈ session.exchanges shadowedUnit, ∃ e,
        exchange.answer = .error (.runtime e) ∧ e.fault = .alreadyDeclared "b" := by
  let error : EvalError := ⟨.alreadyDeclared "b", some ⟨1⟩,
    some [⟨"call <anonymous>", ⟨5⟩⟩, ⟨"if", ⟨1⟩⟩, ⟨"call poison-0", ⟨4⟩⟩, ⟨"block", ⟨2⟩⟩]⟩
  have computed : (start .silent).toOption.map (fun session =>
      let own := (Node.all (session.loweredNodes shadowedUnit)).flatMap Node.ownVariables
      (decide (Node.Orderly (session.loweredNodes shadowedUnit)),
        decide (∀ first ∈ own, ∀ second ∈ own, first.1 = second.1 → first.2 = second.2),
        (session.exchanges shadowedUnit).map fun exchange => errorOf? exchange.answer)) =
      some (true, true, [some (.runtime error)]) := by
    decide +kernel
  obtain ⟨session, started, computed⟩ := exists_start_of_computed computed
  obtain ⟨orderly, rest⟩ := Prod.mk.inj computed
  obtain ⟨types, answers⟩ := Prod.mk.inj rest
  have mem : some (.runtime error) ∈
      (session.exchanges shadowedUnit).map fun exchange => errorOf? exchange.answer := by
    rw [answers]
    exact List.mem_singleton_self _
  obtain ⟨exchange, there, failed⟩ := List.mem_map.mp mem
  exact ⟨session, started, of_decide_eq_true orderly, of_decide_eq_true types, exchange, there,
    error, eq_error_of_errorOf? failed, rfl⟩

end Session

end ScriptCore
