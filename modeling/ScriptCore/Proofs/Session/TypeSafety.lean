import ScriptCore.Proofs.Eval.TypeSafety
import ScriptCore.Proofs.Lowering.WellTyped
import ScriptCore.Proofs.Session.History
import ScriptCore.Proofs.Session.Start
import ScriptCore.Proofs.Ty.OverloadName

/-!
# Type safety of sessions

A history is consistent if all units of it that lower agree on the types of the names that they
declare. Then no unit ends with a fault of a wrong type, and every value has the type that
lowering has given to its node.
-/
namespace ScriptCore

namespace Builtin

/-- Of the indexed names of the builtin classes, only those of the constructor of a string are
declared. -/
def Reserved (declared : Declarations) : Prop :=
  ∀ made ∈ classes, ∀ index type, declared.functions (overloadName made.render index) type →
    made = .string ∧ type = stringConstructor

end Builtin

namespace Node

/-- The name in the source of the function that a node declares. -/
def functionName? : Node → Option String
  | function _ header _ => some header.plainName
  | native _ header => some header.hostName
  | _ => none

def isRecord : Node → Bool
  | record _ _ => true
  | _ => false

/-- The result type of the host function that a node declares. -/
def hostResult? : Node → Option Ty
  | native _ header => some header.type.result
  | _ => none

/-- The variables that nodes declare, and the one of a fresh session. -/
def variablesOf (nodes : List Node) : Parameters :=
  ("Unit", .unit) :: (all nodes).flatMap ownVariables

/-- The functions that nodes declare, under their indexed names. -/
def functionsOf (nodes : List Node) : List (String × FnTy) := (all nodes).flatMap ownFunctions

/-- Nodes that declare no record, no function with the name of a builtin class, and no host
function with a result that could be relied on, and that give each variable and each indexed name
of a function one type. -/
structure Consistent (nodes : List Node) : Prop where
  records : ∀ node ∈ all nodes, node.isRecord = false
  names : ∀ node ∈ all nodes, ∀ name ∈ node.functionName?,
    name ∉ ["Int", "Double", "Boolean", "Unit", "String"]
  hosts : ∀ node ∈ all nodes, ∀ type ∈ node.hostResult?, type = .unit ∨ type = .any
  vars : ∀ first ∈ variablesOf nodes, ∀ second ∈ variablesOf nodes,
    first.1 = second.1 → first.2 = second.2
  functions : ∀ first ∈ functionsOf nodes, ∀ second ∈ functionsOf nodes,
    first.1 = second.1 → first.2 = second.2

instance (nodes : List Node) : Decidable (Consistent nodes) :=
  decidable_of_iff
    ((∀ node ∈ all nodes, node.isRecord = false) ∧
      (∀ node ∈ all nodes, ∀ name ∈ node.functionName?,
        name ∉ ["Int", "Double", "Boolean", "Unit", "String"]) ∧
      (∀ node ∈ all nodes, ∀ type ∈ node.hostResult?, type = .unit ∨ type = .any) ∧
      (∀ first ∈ variablesOf nodes, ∀ second ∈ variablesOf nodes,
        first.1 = second.1 → first.2 = second.2) ∧
      ∀ first ∈ functionsOf nodes, ∀ second ∈ functionsOf nodes,
        first.1 = second.1 → first.2 = second.2)
    ⟨fun ⟨records, names, hosts, vars, functions⟩ => ⟨records, names, hosts, vars, functions⟩,
      fun consistent => ⟨consistent.records, consistent.names, consistent.hosts, consistent.vars,
        consistent.functions⟩⟩

/-- What nodes and the builtins declare. -/
def declarations (nodes : List Node) : Declarations where
  vars name type := (name, type) ∈ variablesOf nodes
  functions name type := (name, type) ∈ functionsOf nodes ∨
    ∃ index, name = overloadName "String" index ∧ type = stringConstructor
  hosts type := type.result = .unit ∨ type.result = .any
  classes type := type ∈ ClassTy.builtins

theorem hasBuiltins_declarations (nodes : List Node) : (declarations nodes).HasBuiltins where
  unit := List.mem_cons_self
  string := fun index => .inr ⟨index, rfl, rfl⟩
  classes := fun _ known => known

/-- An indexed name is made of the name in the source. -/
theorem exists_functionName? {declared : Declarations} {r : Option Ty} {node : Node}
    (typed : Typed declared r node) {bound : String × FnTy} (declares : bound ∈ node.ownFunctions) :
    ∃ name index, node.functionName? = some name ∧ bound.1 = overloadName name index := by
  cases typed with
  | function named =>
    obtain ⟨index, same⟩ := named
    obtain rfl := List.mem_singleton.mp declares
    exact ⟨_, index, rfl, same⟩
  | native named =>
    obtain ⟨index, same⟩ := named
    obtain rfl := List.mem_singleton.mp declares
    exact ⟨_, index, rfl, same⟩
  | _ => cases declares

section Consistent

variable {nodes : List Node} (consistent : Consistent nodes)

include consistent

/-- What the nodes themselves declare is among their declarations. -/
theorem Consistent.admits : ∀ node ∈ all nodes, (declarations nodes).Admits node := by
  intro node mem
  have own : ∀ bound ∈ node.ownVariables, (declarations nodes).vars bound.1 bound.2 :=
    fun bound declares => List.mem_cons_of_mem _ (List.mem_flatMap.mpr ⟨node, mem, declares⟩)
  have ownFunction : ∀ bound ∈ node.ownFunctions, (declarations nodes).functions bound.1 bound.2 :=
    fun bound declares => .inl (List.mem_flatMap.mpr ⟨node, mem, declares⟩)
  cases node with
  | bind tag mutability name value => exact own (name, tag.type) List.mem_cons_self
  | function tag header body => exact ⟨ownFunction (_, _) List.mem_cons_self, own⟩
  | anonymous => exact own
  | native tag header =>
    exact ⟨ownFunction (_, _) List.mem_cons_self, consistent.hosts _ mem _ rfl⟩
  | record => exact absurd (consistent.records _ mem) nofun
  | _ => trivial

/-- No declared function has an indexed name of a builtin class. -/
theorem Consistent.notBuiltin (typed : ∀ node ∈ nodes, node.WellTyped none) {name : String}
    (builtin : name ∈ ["Int", "Double", "Boolean", "Unit", "String"]) (index : Nat) (type : FnTy) :
    (overloadName name index, type) ∉ functionsOf nodes := by
  intro mem
  obtain ⟨node, there, declares⟩ := List.mem_flatMap.mp mem
  obtain ⟨r, nodeTyped⟩ := Typed.all typed node there
  obtain ⟨plain, other, named, same⟩ := exists_functionName? nodeTyped declares
  obtain ⟨rfl, -⟩ := overloadName_inj same
  exact consistent.names node there name named builtin

theorem Consistent.coherent (typed : ∀ node ∈ nodes, node.WellTyped none) :
    (declarations nodes).Coherent where
  vars := fun known other => consistent.vars _ known _ other rfl
  functions := by
    intro name type other known knownOther
    have string : "String" ∈ ["Int", "Double", "Boolean", "Unit", "String"] := by decide
    rcases known with known | ⟨index, rfl, rfl⟩ <;> rcases knownOther with knownOther | constructs
    · exact consistent.functions _ known _ knownOther rfl
    · obtain ⟨index, rfl, -⟩ := constructs
      exact absurd known (consistent.notBuiltin typed string index type)
    · exact absurd knownOther (consistent.notBuiltin typed string index other)
    · obtain ⟨_, _, rfl⟩ := constructs
      rfl
  hosts := fun known => known
  classes := fun known => known

theorem Consistent.reserved (typed : ∀ node ∈ nodes, node.WellTyped none) :
    Builtin.Reserved (declarations nodes) := by
  intro made known index type declares
  simp only [Builtin.classes, List.mem_cons, List.not_mem_nil, or_false] at known
  rcases declares with own | ⟨other, same, rfl⟩
  · have builtin : made.render ∈ ["Int", "Double", "Boolean", "Unit", "String"] := by
      rcases known with rfl | rfl | rfl | rfl | rfl <;> decide
    exact absurd own (consistent.notBuiltin typed builtin index type)
  · obtain ⟨render, -⟩ := overloadName_inj same
    rcases known with rfl | rfl | rfl | rfl | rfl
    · exact ⟨rfl, rfl⟩
    all_goals exact absurd render (by decide)

end Consistent

end Node

namespace Builtin

open Eval

variable {declared : Declarations} {r : Option Ty}

/-- Only the constructor of a string has a name that is declared. -/
theorem keeps_sound (reserved : Reserved declared) {global : Location} {made : ClassTy}
    (known : made ∈ classes) {type : FnTy} (constructs : type ∈ constructorTypes made) :
    Keeps (·.Sound declared) global made type := by
  intro stamp index heap sound
  refine sound.declareFunction fun other declares => ?_
  obtain ⟨rfl, rfl⟩ := reserved made known index other declares
  obtain rfl := List.mem_singleton.mp constructs
  exact ⟨⟨rfl, rfl⟩, rfl⟩

theorem safe_bootstrap (reserved : Reserved declared) (unit : declared.vars "Unit" .unit)
    (global : Location) : Safe declared r (fun _ => True) (bootstrap global) := by
  rw [bootstrap]
  refine Triple.bind (keeps_materializeAll fun made known type => keeps_sound reserved known)
    fun objects => ?_
  have fits : Value.unit.Fits declared .unit := ⟨trivial, .inl rfl⟩
  exact (Safe.declare unit fits).bind fun _ _ => Safe.pure trivial

end Builtin

namespace Session

/-- What every unit of a history keeps: a scope and a store that keep to the declarations, and the
standard functions of the host. -/
structure Sound (declared : Declarations) (session : Session) : Prop where
  scope : session.scope.Admitted declared
  store : session.machine.heap.Sound declared
  hosts : session.interpreter.natives = Native.standard

theorem sound_start {declared : Declarations} (builtins : declared.HasBuiltins)
    (reserved : Builtin.Reserved declared) {output : Output} {session : Session}
    (started : start output = .ok session) : session.Sound declared := by
  have created : Eval.Safe declared none (fun interpreter : Interpreter =>
      interpreter.natives = Native.standard) (Interpreter.create []) := by
    have opened : Eval.Safe declared none (fun _ => True) Eval.newGlobal :=
      Eval.Triple.newGlobal fun _ sound => ⟨trivial, sound.add Store.Frame.sound_create⟩
    rw [Interpreter.create]
    refine opened.bind fun global _ => ?_
    exact (Builtin.safe_bootstrap reserved builtins.unit global).bind fun _ _ => Eval.Safe.pure rfl
  have empty : (Machine.fresh output).heap.Sound declared := by
    intro location frame there
    cases there
  obtain ⟨hosts, store⟩ := start_ends created empty started
  refine ⟨?_, store, hosts⟩
  rw [scope, lowering_start started]
  exact Scope.admitted_builtins builtins

/-- A unit that lowers to nodes whose declarations are known keeps a session sound, and each of
its values fits the type of its node. -/
theorem Sound.run {declared : Declarations} (coherent : declared.Coherent)
    (builtins : declared.HasBuiltins) {session : Session} (sound : session.Sound declared)
    (fuel : Nat) {unit : List Stmt} (admits : declared.AdmitsAll (session.nodesOf unit)) :
    (Session.run fuel unit session).2.Sound declared ∧
    (∀ e, (Session.run fuel unit session).1 = .error (.runtime e) → ¬ e.fault.IsTypeFault) ∧
    ∀ nodes values, (compile unit session).1 = .ok nodes →
      (Session.run fuel unit session).1 = .ok values →
      List.Forall₂ (fun node value => value.Fits declared node.type) nodes values := by
  rcases session.run_cases fuel unit with ⟨error, failed, ran⟩ | ⟨nodes, lowering, lowers, ok, ran⟩
  · rw [ran]
    exact ⟨sound, nofun, nofun⟩
  · rw [nodesOf_eq_of_ok ok] at admits
    obtain ⟨typed, scope⟩ := (Lowering.lowers_of_lowerStmts lowers).typed builtins admits sound.scope
    have safe := Interpreter.evaluateUnit_fits coherent sound.hosts fuel
      fun node mem => (typed node mem).1
    obtain ⟨machine, left, ended⟩ := evaluate_cases (·.evaluateUnit fuel nodes)
      { session with lowering := lowering } safe sound.store
    rw [ran, ok, left]
    rcases ended with ⟨values, ended, fits, store⟩ | ⟨stop, ended, stopped⟩
    · rw [ended]
      refine ⟨⟨scope, store, sound.hosts⟩, nofun, ?_⟩
      rintro _ _ ⟨⟩ ⟨⟩
      exact fits
    · rw [ended]
      cases stop with
      | returned value => exact ⟨⟨scope, stopped.2, sound.hosts⟩, by rintro _ ⟨⟩; exact id, nofun⟩
      | failed e => exact ⟨⟨scope, stopped.2, sound.hosts⟩, by rintro _ ⟨⟩; exact stopped.1, nofun⟩
      | exhausted => exact ⟨⟨scope, stopped, sound.hosts⟩, nofun, nofun⟩

/-- The declarations of a history are those of its units. -/
theorem Sound.after {declared : Declarations} (coherent : declared.Coherent)
    (builtins : declared.HasBuiltins) {session : Session} (sound : session.Sound declared)
    {history : History} (admits : declared.AdmitsAll (session.lowered history)) :
    (session.after history).Sound declared := by
  refine running.carried (P := fun nodes later => declared.AdmitsAll nodes → later.Sound declared)
    (fun _ => sound) ?_ history admits
  rintro nodes later ⟨fuel, unit⟩ sound admits
  obtain ⟨earlier, own⟩ := Declarations.admitsAll_append.mp admits
  exact ((sound earlier).run coherent builtins fuel own).1

/-- The nodes of a history are well typed. -/
theorem wellTyped_lowered {session : Session} (reachable : Lowering.Reachable session.lowering)
    (history : History) : ∀ node ∈ session.lowered history, node.WellTyped none := by
  refine (running.carried (P := fun nodes later => (∀ node ∈ nodes, node.WellTyped none) ∧
    Lowering.Reachable later.lowering) ⟨List.forall_mem_nil _, reachable⟩ ?_ history).1
  rintro earlier later ⟨fuel, unit⟩ ⟨typed, reachable⟩
  dsimp only [running]
  rcases later.run_cases fuel unit with ⟨error, failed, ran⟩ |
    ⟨nodes, lowering, lowers, ok, ran⟩
  · rw [nodesOf, failed, ran]
    exact ⟨List.forall_mem_append.mpr ⟨typed, List.forall_mem_nil _⟩, reachable⟩
  · rw [nodesOf_eq_of_ok ok, ran, lowering_evaluate]
    refine ⟨List.forall_mem_append.mpr ⟨typed, fun node mem => ?_⟩, .lowered reachable lowers⟩
    exact ((Lowering.lowers_of_lowerStmts lowers).typed Declarations.hasBuiltins_any
      (Declarations.admitsAll_any _) reachable.admitted).1 node mem |>.1

/-- Type safety: in a consistent history no unit ends with a fault of a wrong type, and each value
of a unit has a type that the static type of its node accepts, unless that one is `Unit`. -/
theorem run_type_safe {output : Output} {session : Session} (started : start output = .ok session)
    {earlier : History} {fuel : Nat} {unit : List Stmt}
    (consistent : Node.Consistent (session.lowered (earlier ++ [(fuel, unit)]))) :
    (∀ e, (Session.run fuel unit (session.after earlier)).1 = .error (.runtime e) →
      ¬ e.fault.IsTypeFault) ∧
    ∀ nodes values, (compile unit (session.after earlier)).1 = .ok nodes →
      (Session.run fuel unit (session.after earlier)).1 = .ok values →
      List.Forall₂ (fun node value => node.type = .unit ∨ node.type.accepts value.type = true)
        nodes values := by
  have reachable : Lowering.Reachable session.lowering := by
    rw [lowering_start started]
    exact .fresh 0
  have typed := wellTyped_lowered reachable (earlier ++ [(fuel, unit)])
  obtain ⟨declared, coherent, builtins, reserved, admits⟩ : ∃ declared : Declarations,
      declared.Coherent ∧ declared.HasBuiltins ∧ Builtin.Reserved declared ∧
        declared.AdmitsAll (session.lowered (earlier ++ [(fuel, unit)])) :=
    ⟨Node.declarations _, consistent.coherent typed, Node.hasBuiltins_declarations _,
      consistent.reserved typed, consistent.admits⟩
  rw [lowered_append, Declarations.admitsAll_append] at admits
  have sound := (sound_start builtins reserved started).after coherent builtins admits.1
  obtain ⟨-, faults, values⟩ := sound.run coherent builtins fuel
    (Declarations.admitsAll_append.mp admits.2).1
  refine ⟨faults, fun nodes results compiled ran => ?_⟩
  exact (values nodes results compiled ran).imp fun node value fits => fits.accepted

/-- A variable, and an assignment to it that lowers and fails. -/
def reassigning : List Stmt :=
  [.bind ⟨4⟩ .immutable "one" none (.literal ⟨4⟩ (.scalar (.int 1))),
   .expr (.assign ⟨5⟩ "one" (.literal ⟨5⟩ (.scalar (.int 2))))]

/-- The function that doubles is called with the variable. -/
def combining : List Stmt :=
  [.expr (.call ⟨6⟩ (.name ⟨6⟩ "double") [.name ⟨6⟩ "one"]),
   .expr (.binary ⟨7⟩ .add (.literal ⟨7⟩ (.scalar (.string "one is "))) (.name ⟨7⟩ "one"))]

/-- A function that doubles a number, and behind it a unit that stops midway. -/
def stopped : History := [(9, Lowering.doubling)] ++ [(9, reassigning)]

theorem computed_stopped :
    (start .silent).toOption.map (fun session =>
      (decide (Node.Consistent (session.lowered stopped)),
        errorOf? (run 9 reassigning (session.after [(9, Lowering.doubling)])).1)) =
      some (true, some (.runtime ⟨.reassignedImmutable "one", some ⟨5⟩, none⟩)) := by
  decide +kernel

theorem computed_combining :
    (start .silent).toOption.map (fun session =>
      (decide (Node.Consistent (session.lowered (stopped ++ [(9, combining)]))),
        (compile combining (session.after stopped)).1.toOption.map (·.map Node.type),
        (run 9 combining (session.after stopped)).1.toOption.map (·.map Value.type))) =
      some (true, some [.double, .string], some [.double, .string]) := by
  decide +kernel

/-- The unit that stops midway does not stop for a type, and the values behind it have theirs. -/
theorem run_type_safe_doubling :
    ∃ session e nodes values, start .silent = .ok session ∧
      (Node.Consistent (session.lowered stopped) ∧
        (run 9 reassigning (session.after [(9, Lowering.doubling)])).1 = .error (.runtime e) ∧
        e.fault = .reassignedImmutable "one" ∧ ¬ e.fault.IsTypeFault) ∧
      Node.Consistent (session.lowered (stopped ++ [(9, combining)])) ∧
      (compile combining (session.after stopped)).1 = .ok nodes ∧
      (run 9 combining (session.after stopped)).1 = .ok values ∧
      nodes.map Node.type = [.double, .string] ∧ values.map Value.type = [.double, .string] ∧
      List.Forall₂ (fun node value => node.type = .unit ∨ node.type.accepts value.type = true)
        nodes values := by
  obtain ⟨session, started, computed⟩ := exists_start_of_computed computed_combining
  have earlier := computed_stopped
  rw [started] at earlier
  obtain ⟨before, failed⟩ := Prod.mk.inj (Option.some.inj earlier)
  obtain ⟨behind, rest⟩ := Prod.mk.inj computed
  obtain ⟨types, ran⟩ := Prod.mk.inj rest
  obtain ⟨nodes, compiled, static⟩ := Option.map_eq_some_iff.mp types
  obtain ⟨values, ended, dynamic⟩ := Option.map_eq_some_iff.mp ran
  have before := of_decide_eq_true before
  have behind := of_decide_eq_true behind
  have failed := eq_error_of_errorOf? failed
  have compiled := eq_ok_of_toOption compiled
  have ended := eq_ok_of_toOption ended
  have faults := (run_type_safe started before).1 _ failed
  have typed := (run_type_safe started behind).2 nodes values compiled ended
  exact ⟨session, _, nodes, values, started, ⟨before, failed, rfl, faults⟩, behind, compiled, ended,
    static, dynamic, typed⟩

end Session

end ScriptCore
