import ScriptCore.Proofs.Eval.Evolution

/-!
# Encapsulation of scopes

What a node declares goes into the scope that it is evaluated in, and only what stands outside of
the bodies in it: blocks, rounds of a loop, branches and invocations declare in scopes of their own.
Every other scope that was there before keeps its names, however evaluation ends.
-/
namespace ScriptCore

/-- Something that a node adds to the scope that it is evaluated in. -/
inductive Addition
  | var (name : String)
  /-- A function by its indexed name. -/
  | fn (name : String)
  /-- A module that is taken into use. -/
  | use (module : String)
  deriving DecidableEq

namespace Node

mutual

/-- All that a node may add to the scope that it is evaluated in. -/
def additions : Node → List Addition
  | bind _ _ name value => .var name :: additions value
  | function _ header _ => [.fn header.name]
  | native _ header => [.fn header.name]
  | useModule _ name => [.use name]
  | call _ callee arguments => additions callee ++ argumentAdditions arguments
  | unary _ _ right => additions right
  | binary _ _ left right | logical _ _ left right => additions left ++ additions right
  | assign _ _ value | returns _ value => additions value
  | loop _ condition _ | branch _ condition _ _ => additions condition
  | literal _ _ | this _ | readVariable _ _ | readFunction _ _ | get _ _ _ | set _ _ _ _
  | block _ _ | anonymous _ _ _ | record _ _ | openModule _ _ => []

def argumentAdditions : List (String × Node) → List Addition
  | [] => []
  | (_, value) :: rest => additions value ++ argumentAdditions rest

end

theorem additions_subset_of_mem {arguments : List (String × Node)} {argument : String × Node}
    (mem : argument ∈ arguments) : argument.2.additions ⊆ argumentAdditions arguments := by
  induction arguments with
  | nil => cases mem
  | cons first rest ih =>
    rw [argumentAdditions]
    rcases List.mem_cons.mp mem with rfl | later
    · exact List.subset_append_left _ _
    · exact List.Subset.trans (ih later) (List.subset_append_right _ _)

/-- What an operand adds is added by the node. -/
theorem additions_subset_of_operand {node operand : Node} (mem : operand ∈ node.operands) :
    operand.additions ⊆ node.additions := by
  cases node with
  | call tag callee arguments =>
    rw [additions]
    rcases List.mem_cons.mp mem with rfl | below
    · exact List.subset_append_left _ _
    · obtain ⟨argument, there, rfl⟩ := List.mem_map.mp below
      exact List.Subset.trans (additions_subset_of_mem there) (List.subset_append_right _ _)
  | unary | assign | returns | loop | branch =>
    obtain rfl := List.mem_singleton.mp mem
    rw [additions]
    exact List.Subset.refl _
  | bind =>
    obtain rfl := List.mem_singleton.mp mem
    rw [additions]
    exact List.subset_cons_self _ _
  | binary | logical =>
    rw [additions]
    rcases List.mem_cons.mp mem with rfl | below
    · exact List.subset_append_left _ _
    · obtain rfl := List.mem_singleton.mp below
      exact List.subset_append_right _ _
  | _ => cases mem

end Node

namespace Store

/-- A later form of a frame that has no names besides those that were added. -/
structure Frame.GainsOnly (additions : List Addition) (old new : Frame) : Prop where
  bindings : ∀ name, .var name ∉ additions →
    new.bindings.contains name = old.bindings.contains name
  functions : ∀ name, .fn name ∉ additions →
    new.functions.get? name = old.functions.get? name
  expanded : (∀ name, .use name ∉ additions) → new.expanded = old.expanded

/-- The scope `env` gains nothing else than these additions. -/
def GainsOnly (env : Location) (additions : List Addition) (old new : Store) : Prop :=
  ∀ frame, old.frame? env = some frame →
    ∃ frame', new.frame? env = some frame' ∧ frame.GainsOnly additions frame'

variable {env : Location} {additions : List Addition} {store old middle new : Store} {name : String}

theorem Frame.KeepsNames.gainsOnly {frame frame' : Frame} (names : frame.KeepsNames frame') :
    frame.GainsOnly additions frame' where
  bindings := fun name _ => names.bindings name
  functions := fun name _ => by rw [names.functions]
  expanded := fun _ => names.expanded

theorem Frame.GainsOnly.trans {old middle new : Frame} (first : old.GainsOnly additions middle)
    (second : middle.GainsOnly additions new) : old.GainsOnly additions new where
  bindings := fun name absent =>
    (second.bindings name absent).trans (first.bindings name absent)
  functions := fun name absent =>
    (second.functions name absent).trans (first.functions name absent)
  expanded := fun absent => (second.expanded absent).trans (first.expanded absent)

theorem GainsOnly.refl : GainsOnly env additions store store :=
  fun frame there => ⟨frame, there, Frame.KeepsNames.refl.gainsOnly⟩

theorem GainsOnly.trans (first : GainsOnly env additions old middle)
    (second : GainsOnly env additions middle new) : GainsOnly env additions old new := by
  intro frame there
  obtain ⟨frame₁, there₁, gains₁⟩ := first frame there
  obtain ⟨frame₂, there₂, gains₂⟩ := second frame₁ there₁
  exact ⟨frame₂, there₂, gains₁.trans gains₂⟩

/-- What happens in another scope adds nothing to this one. -/
theorem Evolves.gainsOnly {other : Location} (evolves : Evolves other old new)
    (outside : env ≠ other) : GainsOnly env additions old new := by
  intro frame there
  obtain ⟨frame', there', -, names⟩ := evolves env frame there
  exact ⟨frame', there', (names outside).gainsOnly⟩

theorem gainsOnly_update {change : Frame → Frame}
    (gains : ∀ frame : Frame, frame.GainsOnly additions (change frame)) :
    GainsOnly env additions store (store.update env change) :=
  fun frame there => ⟨change frame, frame?_update_self there, gains frame⟩

theorem gainsOnly_declare {binding : Binding} (added : .var name ∈ additions) :
    GainsOnly env additions store (store.setVariable env name binding) := by
  refine gainsOnly_update fun frame => ⟨fun other absent => ?_, fun _ _ => rfl, fun _ => rfl⟩
  have different : name ≠ other := fun same => absent (same ▸ added)
  simp only [Table.contains, Table.get?_insert_of_ne _ _ different]

theorem gainsOnly_declareFunction {callable : Callable} (added : .fn name ∈ additions) :
    GainsOnly env additions store (store.declareFunction env name callable) := by
  refine gainsOnly_update fun frame => ⟨fun _ _ => rfl, fun other absent => ?_, fun _ => rfl⟩
  have different : name ≠ other := fun same => absent (same ▸ added)
  exact Table.get?_insert_of_ne _ _ different

theorem gainsOnly_expand {module : Location} (added : .use name ∈ additions) :
    GainsOnly env additions store (store.expand env module) := by
  rw [expand]
  split
  · exact .refl
  · exact gainsOnly_update fun frame =>
      ⟨fun _ _ => rfl, fun _ _ => rfl, fun absent => absurd added (absent name)⟩

end Store

namespace Interpreter

open Eval

variable {interpreter : Interpreter} {evaluator : Evaluator} {env : Location} {start : Store}
  {additions : List Addition}

/-- An evaluator of nodes that add to a scope what they declare there, and nothing else. -/
def Encapsulating (evaluator : Evaluator) : Prop :=
  ∀ node env additions start, node.additions ⊆ additions →
    Keeps (Store.GainsOnly env additions start) (evaluator node env)

/-- A step that adds no names to any scope adds none to this one. -/
theorem gains_of_evolves {α : Type} {step : Eval α}
    (evolves : ∀ other start, Keeps (Store.Evolves other start) step) :
    Keeps (Store.GainsOnly env additions start) step :=
  Keeps.of_relation (evolves (env + 1)) (fun _ => .refl) fun _ _ before later =>
    before.trans (later.gainsOnly (Nat.ne_of_lt (Nat.lt_succ_self env)))

/-- Work in a scope of its own adds nothing to the scopes that were there before. -/
theorem gains_inScope {α : Type} {outer : Location} {site : CallSite} {work : Location → Eval α}
    (h : ∀ scope start, Keeps (Store.Evolves scope start) (work scope)) :
    Keeps (Store.GainsOnly env additions start) (Eval.inScope outer site work) :=
  gains_of_evolves fun _ _ => keeps_inScope h

theorem gains_declare {name : String} (added : .var name ∈ additions) (value : Value)
    (mutability : Mutability) :
    Keeps (Store.GainsOnly env additions start) (Eval.declare env name value mutability) := by
  refine Triple.declare (fun heap before _ => ?_) fun _ before _ => before
  exact before.trans (Store.gainsOnly_declare added)

theorem gains_declareFunction {name : String} (added : .fn name ∈ additions)
    (callable : Callable) :
    Keeps (Store.GainsOnly env additions start) (Eval.declareFunction env name callable) :=
  Triple.declareFunction fun _ before => before.trans (Store.gainsOnly_declareFunction added)

theorem gains_expand {name : String} (added : .use name ∈ additions) (module : Location) :
    Keeps (Store.GainsOnly env additions start) (Eval.expand env module) :=
  Triple.expand fun _ before => before.trans (Store.gainsOnly_expand added)

section Step

variable (evolving : Evolving evaluator) (hosts : interpreter.natives = Native.standard)
  (ih : Encapsulating evaluator)

include evolving hosts ih

theorem gains_step (rounds : Nat) {node : Node} (added : node.additions ⊆ additions) :
    Keeps (Store.GainsOnly env additions start)
      (interpreter.step rounds evaluator node env) := by
  refine Keeps.step ⟨?_, ?_, ?_, ?_, ?_, ?_, ?_, ?_⟩ rounds
  · intro operand mem
    exact ih operand env additions start
      (List.Subset.trans (Node.additions_subset_of_operand mem) added)
  · rintro tag mutability name below rfl value
    rw [Node.additions] at added
    exact gains_declare (added List.mem_cons_self) value mutability
  · exact fun name value => gains_of_evolves fun _ _ => keeps_assign name value
  · intro callable declares
    cases node with
    | function | native =>
      cases declares
      exact gains_declareFunction (added List.mem_cons_self) _
    | _ => cases declares
  · exact fun tag name _ => gains_of_evolves fun _ _ => keeps_openModule name env
  · rintro tag name rfl
    exact (Keeps.ask _).bind fun module => gains_expand (added List.mem_cons_self) module
  · exact fun site body => gains_inScope fun scope start' =>
      Keeps.sequence (fun node => evolving node scope start') body _
  · exact fun callable site arguments =>
      gains_of_evolves fun _ _ => keeps_invokeWith hosts evolving callable site arguments

end Step

section Hosts

variable (hosts : interpreter.natives = Native.standard)

include hosts

theorem encapsulating_evaluate (fuel : Nat) : Encapsulating (interpreter.evaluate fuel) := by
  induction fuel with
  | zero => exact fun _ _ _ _ _ => Triple.exhausted fun _ before => before
  | succ fuel ih =>
    intro node env additions start added
    exact Triple.located (gains_step (evolving_evaluate hosts fuel) hosts ih fuel added)

/-- A unit that opens no module adds to the global scope what its nodes add. -/
theorem gains_evaluateUnit (fuel : Nat) {unit : List Node}
    (global : ∀ tag name, .openModule tag name ∉ unit)
    (added : ∀ node ∈ unit, node.additions ⊆ additions) :
    Keeps (Store.GainsOnly interpreter.global additions start)
      (interpreter.evaluateUnit fuel unit) := by
  refine (Triple.evaluateFrom
    (fun target _ heap => target = interpreter.global ∧
      Store.GainsOnly interpreter.global additions start heap)
    (fun _ _ => True) ?_ ?_ interpreter.global).consequence (fun _ gains => ⟨rfl, gains⟩)
    (fun _ _ held => held.2.elim fun _ last => last.2)
    ⟨fun _ _ gains => gains, fun _ _ gains => gains, fun _ gains => gains⟩
  · intro target node rest there _
    refine Triple.of_fact ?_
    rintro rfl
    have step := encapsulating_evaluate hosts fuel node interpreter.global additions start
      (added node (there.subset List.mem_cons_self))
    exact Triple.mono (Triple.uncaught step) fun _ _ gains => ⟨trivial, rfl, gains⟩
  · exact fun _ tag name _ there => absurd (there.subset List.mem_cons_self) (global tag name)

/-- However an evaluation ends, every scope that was there before is still there, with what was
bound in it. All of them but the scope of the evaluation keep their names, and that one gains at
most what stands in the node outside of bodies. An invocation adds no names to any of them. -/
theorem scopes_are_encapsulated (fuel : Nat) (m : Machine) {location : Location}
    {frame : Store.Frame} (there : m.store.frame? location = some frame) :
    (∀ node env, ∃ frame',
      (interpreter.evaluate fuel node env m).2.store.frame? location = some frame' ∧
        frame.Grows frame' ∧ (location ≠ env → frame.KeepsNames frame') ∧
        (location = env → frame.GainsOnly node.additions frame')) ∧
    (∀ callable site arguments env, ∃ frame',
      (interpreter.invoke fuel callable site arguments env m).2.store.frame? location =
          some frame' ∧
        frame.Grows frame' ∧ frame.KeepsNames frame') := by
  have evolving := evolving_evaluate hosts fuel
  constructor
  · intro node env
    obtain ⟨frame', there', grows, names⟩ :=
      (evolving node env m.heap).ends .refl location frame there
    refine ⟨frame', there', grows, names, ?_⟩
    rintro rfl
    have gains := encapsulating_evaluate hosts fuel node location _ m.heap (List.Subset.refl _)
    obtain ⟨later, same, gained⟩ := gains.ends .refl frame there
    obtain rfl : frame' = later := Option.some.inj (there'.symm.trans same)
    exact gained
  · intro callable site arguments env
    have invocation : Keeps (Store.Evolves (location + 1) m.heap)
        (interpreter.invoke fuel callable site arguments env) :=
      keeps_invokeWith hosts evolving callable site arguments
    obtain ⟨frame', there', grows, names⟩ := invocation.ends .refl location frame there
    exact ⟨frame', there', grows, names (Nat.ne_of_lt (Nat.lt_succ_self location))⟩

end Hosts

/-- A block that declares a variable and a function, and another variable in a block inside it. -/
def nestedBlocks : Node :=
  let one : Node := .literal ⟨.int, ⟨1⟩⟩ (.scalar (.int 1))
  .block ⟨.unit, ⟨1⟩⟩
    [.bind ⟨.int, ⟨1⟩⟩ .immutable "x" one,
      .function ⟨.fn ⟨[], .unit, none⟩, ⟨2⟩⟩ ⟨0, "f-0", "f", ⟨[], .unit, none⟩, ⟨2⟩⟩ [],
      .block ⟨.unit, ⟨3⟩⟩ [.bind ⟨.int, ⟨3⟩⟩ .mutable "y" one]]

theorem scopes_are_encapsulated_nestedBlocks :
    let interpreter : Interpreter := ⟨0, .empty, Native.standard⟩
    let m : Machine := { Machine.fresh .silent with store := Store.empty.add (.create none none) }
    let m' := (interpreter.evaluate 5 nestedBlocks 0 m).2
    m'.store.contains 1 "x" = true ∧ m'.store.contains 2 "y" = true ∧
      ∃ frame', m'.store.frame? 0 = some frame' ∧ frame'.bindings.contains "x" = false ∧
        frame'.bindings.contains "y" = false ∧ frame'.functions.get? "f-0" = none := by
  intro interpreter m m'
  have hosts : interpreter.natives = Native.standard := rfl
  have global : m.store.frame? 0 = some (.create none none) := rfl
  obtain ⟨frame', there, -, -, gains⟩ := (scopes_are_encapsulated hosts 5 m global).1 nestedBlocks 0
  have gained := gains rfl
  refine ⟨by decide +kernel, by decide +kernel, frame', there, ?_⟩
  exact ⟨gained.bindings "x" nofun, gained.bindings "y" nofun, gained.functions "f-0" nofun⟩

end Interpreter

end ScriptCore
