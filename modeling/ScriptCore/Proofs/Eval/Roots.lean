import ScriptCore.Proofs.Eval.Evolution
import ScriptCore.Proofs.Lowering.Declarations
import ScriptCore.Proofs.Store.Roots

/-!
# Evaluation keeps roots

Whatever is evaluated in a root declares there only what stands outside of bodies; all other scopes
that evaluation declares in are no roots. So roots keep to the functions that are allowed there.
-/
namespace ScriptCore

namespace Node

/-- What an operand declares is declared by the node. -/
theorem declaredFunctions_subset_of_operand {node operand : Node} (mem : operand ∈ node.operands) :
    operand.declaredFunctions ⊆ node.declaredFunctions := by
  cases node with
  | call tag callee arguments =>
    rw [declaredFunctions]
    rcases List.mem_cons.mp mem with rfl | below
    · exact List.subset_append_right _ _
    · obtain ⟨argument, there, rfl⟩ := List.mem_map.mp below
      exact List.Subset.trans (declaredFunctions_subset_of_mem there) (List.subset_append_left _ _)
  | unary | bind | assign | returns | loop | branch =>
    obtain rfl := List.mem_singleton.mp mem
    rw [declaredFunctions]
    exact List.Subset.refl _
  | binary | logical =>
    rw [declaredFunctions]
    rcases List.mem_cons.mp mem with rfl | below
    · exact List.subset_append_left _ _
    · obtain rfl := List.mem_singleton.mp below
      exact List.subset_append_right _ _
  | _ => cases mem

end Node

namespace Eval

/-- What two facts keep, both keep. -/
theorem Keeps.and {α : Type} {step : Eval α} {first second : Store → Prop}
    (keeps : Keeps first step) (keeps' : Keeps second step) :
    Keeps (fun heap => first heap ∧ second heap) step := by
  have both (m : Machine) (held : first m.heap ∧ second m.heap) :
      first (step m).2.heap ∧ second (step m).2.heap :=
    ⟨keeps.ends held.1, keeps'.ends held.2⟩
  refine Triple.of_runs (fun m a m' held ran => ?_) fun m stop m' held ran => ?_
  · have after := both m held
    rw [ran] at after
    exact after
  · have after := both m held
    rw [ran] at after
    cases stop <;> exact after

end Eval

namespace Interpreter

open Eval

variable {interpreter : Interpreter} {evaluator : Evaluator} {allowed : Callable → Prop}
  {env : Location} {declared : List Callable} {α : Type}

/-- A rooted heap with a scope that may take these functions. -/
def Takes (allowed : Callable → Prop) (env : Location) (declared : List Callable) (heap : Store) :
    Prop :=
  heap.Rooted allowed ∧ heap.Takes allowed env declared

/-- An evaluator that keeps roots wherever the scope may take what the node declares. -/
def Rooting (allowed : Callable → Prop) (evaluator : Evaluator) : Prop :=
  ∀ node env declared, node.declaredFunctions ⊆ declared →
    Keeps (Takes allowed env declared) (evaluator node env)

theorem takes_declare (name : String) (value : Value) (mutability : Mutability) :
    Keeps (Takes allowed env declared) (Eval.declare env name value mutability) := by
  refine Triple.declare (fun heap held free => ?_) fun _ held _ => held
  exact ⟨held.1.setVariable, held.2.evolves (Store.evolves_declare free)⟩

theorem takes_assign (name : String) (value : Value) :
    Keeps (Takes allowed env declared) (Eval.assign env name value) := by
  refine Triple.assign (fun heap holder old held found => ?_) (fun _ _ _ held _ => held)
    fun _ held _ => held
  have evolves : Store.Evolves env heap (heap.setVariable holder name ⟨value, .mutable⟩) :=
    Store.evolves_assign found
  exact ⟨held.1.setVariable, held.2.evolves evolves⟩

theorem takes_declareFunction {callable : Callable} (mem : callable ∈ declared) :
    Keeps (Takes allowed env declared) (Eval.declareFunction env callable.name callable) := by
  refine Triple.declareFunction fun heap held => ?_
  obtain ⟨frame, there, allows⟩ := held.2
  have one : heap.Takes allowed env [callable] :=
    ⟨frame, there, fun root => List.forall_mem_singleton.mpr (allows root callable mem)⟩
  exact ⟨held.1.declareFunction one, held.2.evolves Store.evolves_declareFunction⟩

theorem takes_openModule (name : String) :
    Keeps (Takes allowed env declared) (Eval.openModule name env) := by
  refine Triple.openModule (fun _ _ held _ => held) (fun heap held isGlobal _ => ?_)
    fun _ held => held
  have opened : Store.Evolves env heap (heap.add (.create (some env) none)) := Store.evolves_add
  exact ⟨held.1.module (held.1.isRoot_of_isGlobal held.2 isGlobal) name, held.2.evolves opened⟩

/-- A module that has been opened is a root. -/
theorem takes_useModule (name : String) :
    Keeps (Takes allowed env declared) (do
      let module ← Eval.openedModule name
      Eval.expand env module) := by
  have opened : Triple (Takes allowed env declared) (Eval.openedModule name)
      (fun module heap => heap.IsRoot module ∧ Takes allowed env declared heap)
      ⟨fun _ => Takes allowed env declared, fun _ => Takes allowed env declared,
        Takes allowed env declared⟩ :=
    Triple.openedModule (fun _ module held found => ⟨held.1.modules name module found, held⟩)
      fun _ held => held
  refine opened.bind fun module => Triple.expand fun heap held => ?_
  exact ⟨held.2.1.expand held.1, held.2.2.evolves Store.evolves_expand⟩

/-- Work in a scope of its own may declare there whatever it likes. -/
theorem takes_inScope (inside : List Callable) {outer : Location} {site : CallSite}
    {work : Location → Eval α}
    (keeps : ∀ scope, Keeps (Takes allowed scope inside) (work scope))
    (evolves : ∀ scope start, Keeps (Store.Evolves scope start) (work scope)) :
    Keeps (Takes allowed env declared) (Eval.inScope outer site work) := by
  refine Triple.inScope fun heap held => ?_
  have after : ∀ later, Takes allowed heap.next inside later ∧
      Store.Evolves heap.next (heap.add (.create (some outer) (some site))) later →
      Takes allowed env declared later :=
    fun later inner =>
      have evolves : Store.Evolves env heap later := inner.2.of_child
      ⟨inner.1.1, held.2.evolves evolves⟩
  refine Triple.consequence ((keeps heap.next).and (evolves heap.next _)) ?_ (fun _ => after)
    ⟨fun _ => after, fun _ => after, after⟩
  rintro _ rfl
  exact ⟨⟨held.1.child, .create (some outer) (some site), Store.frame?_add_next, nofun⟩, .refl⟩

theorem takes_bindArguments (arguments : Arguments) :
    Keeps (Takes allowed env declared) (Eval.bindArguments env arguments) :=
  Triple.bindArguments (fun _ => Takes allowed env declared) fun name value _ _ =>
    takes_declare name value .immutable

section Step

variable (rooting : Rooting allowed evaluator)

include rooting

theorem takes_node {body rest : List Node} {node : Node} (there : node :: rest <:+ body)
    (scope : Location) :
    Keeps (Takes allowed scope (Node.declaredIn body)) (evaluator node scope) :=
  rooting node scope _ fun _ declares =>
    List.mem_flatMap.mpr ⟨node, there.subset List.mem_cons_self, declares⟩

theorem takes_sequence (body : List Node) (scope : Location) (last : Value) :
    Keeps (Takes allowed scope (Node.declaredIn body))
      (Eval.sequence evaluator scope last body) :=
  Triple.sequence (fun _ _ => Takes allowed scope (Node.declaredIn body))
    (fun _ _ _ there => takes_node rooting there scope) last

theorem takes_body (function : String) (line : Line) (arguments : Arguments) (body : List Node)
    (scope : Location) :
    Keeps (Takes allowed scope (Node.declaredIn body)) (do
      Eval.bindArguments scope arguments
      Eval.catchReturn function line scope (Eval.runBody evaluator scope body)) := by
  refine (takes_bindArguments arguments).bind fun _ => keeps_catchReturn ?_
  exact Triple.runBody (fun _ => Takes allowed scope (Node.declaredIn body))
    fun _ _ there => takes_node rooting there scope

variable (evolving : Evolving evaluator) (hosts : interpreter.natives = Native.standard)

include evolving hosts

theorem takes_invokeWith (callable : Callable) (site : Node) (arguments : Arguments)
    (scope : Location) :
    Keeps (Takes allowed env declared)
      (interpreter.invokeWith evaluator callable site arguments scope) := by
  cases callable with
  | function header body =>
    exact takes_inScope _ (takes_body rooting header.name site.line arguments body) fun _ _ =>
      keeps_body evolving header.name site.line arguments body
  | closure header body captured =>
    exact takes_inScope _ (takes_body rooting _ site.line arguments body) fun _ _ =>
      keeps_body evolving _ site.line arguments body
  | native header =>
    have runs (held : Store → Prop) (scope : Location) : Keeps held
        (callNative interpreter.natives header.hostName site arguments scope) :=
      keeps_callNative hosts header.hostName site arguments scope
    exact takes_inScope [] (fun scope => keeps_catchReturn (runs _ scope))
      fun scope _ => keeps_catchReturn (runs _ scope)
  | constructor header =>
    exact takes_inScope [] (fun _ => keeps_catchReturn (Keeps.returned _))
      fun _ _ => keeps_catchReturn (Keeps.returned _)

theorem takes_step (rounds : Nat) {node : Node} (declares : node.declaredFunctions ⊆ declared) :
    Keeps (Takes allowed env declared) (interpreter.step rounds evaluator node env) := by
  refine Keeps.step ⟨?_, ?_, ?_, ?_, ?_, ?_, ?_, ?_⟩ rounds
  · exact fun operand mem => rooting operand env declared
      (List.Subset.trans (Node.declaredFunctions_subset_of_operand mem) declares)
  · exact fun _ mutability name _ _ value => takes_declare name value mutability
  · exact takes_assign
  · intro callable own
    cases node with
    | function | native =>
      cases own
      rw [Node.declaredFunctions] at declares
      exact takes_declareFunction (declares List.mem_cons_self)
    | _ => cases own
  · exact fun _ name _ => takes_openModule name
  · exact fun _ name _ => takes_useModule name
  · exact fun site body => takes_inScope _ (fun scope => takes_sequence rooting body scope .unit)
      fun scope start => Keeps.sequence (fun node => evolving node scope start) body _
  · exact fun callable site arguments =>
      takes_invokeWith rooting evolving hosts callable site arguments env

end Step

theorem rooting_evaluate (hosts : interpreter.natives = Native.standard) (fuel : Nat) :
    Rooting allowed (interpreter.evaluate fuel) := by
  induction fuel with
  | zero => exact fun _ _ _ _ => Triple.exhausted fun _ held => held
  | succ fuel ih =>
    intro node env declared declares
    exact Triple.located (takes_step ih (evolving_evaluate hosts fuel) hosts fuel declares)

/-- A rooted heap where this scope and the global one are roots. -/
def Settled (interpreter : Interpreter) (allowed : Callable → Prop) (env : Location)
    (heap : Store) : Prop :=
  heap.Rooted allowed ∧ heap.IsRoot env ∧ heap.IsRoot interpreter.global

theorem settled_evaluate (hosts : interpreter.natives = Native.standard) (fuel : Nat) {node : Node}
    (allows : ∀ callable ∈ node.declaredFunctions, allowed callable) :
    Keeps (interpreter.Settled allowed env) (interpreter.evaluate fuel node env) := by
  have stays (root : Location) : Keeps (fun heap => heap.IsRoot root)
      (interpreter.evaluate fuel node env) :=
    Keeps.of_relation (evolving_evaluate hosts fuel node env) (fun _ => .refl)
      fun _ _ root evolves => root.evolves evolves
  have takes : Keeps (Takes allowed env node.declaredFunctions)
      (interpreter.evaluate fuel node env) :=
    rooting_evaluate hosts fuel node env _ (List.Subset.refl _)
  have after : ∀ heap, Takes allowed env node.declaredFunctions heap ∧
      heap.IsRoot env ∧ heap.IsRoot interpreter.global → interpreter.Settled allowed env heap :=
    fun _ held => ⟨held.1.1, held.2⟩
  refine Triple.consequence (takes.and ((stays env).and (stays interpreter.global))) ?_
    (fun _ => after) ⟨fun _ => after, fun _ => after, after⟩
  exact fun _ held => ⟨⟨held.1, held.2.1.takes allows⟩, held.2⟩

theorem settled_openModule (name : String) :
    Triple (interpreter.Settled allowed env) (Eval.openModule name interpreter.global)
      (fun module => interpreter.Settled allowed module)
      ⟨fun _ => interpreter.Settled allowed env, fun _ => interpreter.Settled allowed env,
        interpreter.Settled allowed env⟩ := by
  refine Triple.openModule (fun heap module held known => ?_) (fun heap held isGlobal _ => ?_)
    fun _ held => held
  · exact ⟨held.1, held.1.modules name module known, held.2.2⟩
  · have opened : Store.Evolves interpreter.global heap
        (heap.add (.create (some interpreter.global) none)) := Store.evolves_add
    refine ⟨held.1.module held.2.2 name, ?_, held.2.2.evolves opened⟩
    exact ⟨.create (some interpreter.global) none, Store.frame?_add_next, rfl⟩

/-- A unit keeps to what is allowed as long as all that its nodes declare is, and leaves the global
scope a root however it ends. -/
theorem settled_evaluateUnit (hosts : interpreter.natives = Native.standard) (fuel : Nat)
    {unit : List Node} (allows : ∀ callable ∈ Node.declaredIn unit, allowed callable) :
    Keeps (interpreter.Settled allowed interpreter.global)
      (interpreter.evaluateUnit fuel unit) := by
  have globally : ∀ {env heap}, interpreter.Settled allowed env heap →
      interpreter.Settled allowed interpreter.global heap :=
    fun held => ⟨held.1, held.2.2, held.2.2⟩
  refine Triple.mono (Triple.evaluateFrom (fun target _ => interpreter.Settled allowed target)
    (fun _ _ => True) ?_ ?_ interpreter.global) ?_
  · intro target node rest there _
    have own : ∀ callable ∈ node.declaredFunctions, allowed callable := fun callable mem =>
      allows callable (List.mem_flatMap.mpr ⟨node, there.subset List.mem_cons_self, mem⟩)
    refine Triple.uncaught (Triple.consequence (settled_evaluate hosts fuel own)
      (fun _ held => held) (fun _ _ held => ⟨trivial, held⟩) ?_)
    exact ⟨fun _ _ => globally, fun _ _ => globally, fun _ => globally⟩
  · intro target tag name rest _
    refine Triple.consequence (settled_openModule name) (fun _ held => held)
      (fun _ _ held => ⟨trivial, held⟩) ?_
    exact ⟨fun _ _ => globally, fun _ _ => globally, fun _ => globally⟩
  · rintro _ _ ⟨-, _, held⟩
    exact globally held

end Interpreter

end ScriptCore
