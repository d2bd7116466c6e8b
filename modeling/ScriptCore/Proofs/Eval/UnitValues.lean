import ScriptCore.Proofs.Eval.Watched
import ScriptCore.Proofs.Eval.Worlds
import ScriptCore.Proofs.Node.FunctionFree

/-!
# Variables that hold `Unit`

Nothing checks the value of an expression of type `Unit`, and a branch may have any value there. In
a firm world a variable that is planned to be `Unit` is `Unit` all the same. Where no declaration
and no assignment of such a variable takes a value that may be another (`Node.KeepsUnit`), nodes
without functions lead from firm worlds to firm worlds, and what can only yield `Unit` does
(`knowsUnits_evaluate`).
-/
namespace ScriptCore

open Eval Node

namespace World

/-- A frame that keeps to its plan, where `Unit` is concerned, and in which no module is in use. -/
structure HoldsUnits (plan : Parameters) (frame : Store.Frame) : Prop where
  values : ∀ name value, frame.value? name = some value →
    ∃ type, Parameters.get? plan name = some type ∧ (type = .unit → value = .unit)
  expanded : frame.expanded = []

def Firm (w : World) : Prop :=
  ∀ location frame, w.heap.frame? location = some frame → HoldsUnits (w.plan location) frame

/-- From a world, a step in `env` that ends leads to a firm world. -/
def Yields {α : Type} (w : World) (env : Location) (after : World → α → Prop) (step : Eval α) :
    Prop :=
  Triple (· = w.heap) step
    (fun a heap => ∃ w' : World, w'.heap = heap ∧ w.Later env w' ∧ w'.Firm ∧ after w' a) .any

variable {α β : Type} {w w' : World} {env other location outside : Location}
  {layers outer : Layers} {now rest plan : Parameters} {name : String} {type : Ty} {value : Value}
  {binding : Binding} {after : World → α → Prop} {site : CallSite}

theorem Firm.planned (firm : w.Firm) : w.Planned := by
  intro location frame name there bound
  obtain ⟨binding, own⟩ := Option.isSome_iff_exists.mp bound
  have value : frame.value? name = some binding.value := by
    rw [Store.Frame.value?, own]
    rfl
  obtain ⟨type, planned, -⟩ := (firm location frame there).values name _ value
  exact ⟨type, planned⟩

theorem Firm.enter (firm : w.Firm) : (w.enter outside site plan).Firm := by
  intro location frame there
  have evolves : w.Later w.heap.next (w.enter outside site plan) := later_enter
  rw [World.enter, Store.frame?_add] at there
  split at there
  · cases there
    refine ⟨fun _ _ found => ?_, rfl⟩
    cases found
  · rw [evolves.plan location (Store.lt_next_of_frame? there)]
    exact firm location frame there

theorem Firm.set (firm : w.Firm) (planned : Parameters.get? (w.plan env) name = some type)
    (holds : type = .unit → binding.value = .unit) : (w.set env name binding).Firm := by
  intro location frame there
  obtain ⟨old, was, ⟨rfl, -⟩ | ⟨rfl, rfl⟩⟩ := Store.of_frame?_update there
  · exact firm location frame was
  · have held := firm env old was
    refine ⟨fun name' value' found => ?_, held.expanded⟩
    rcases Store.Frame.of_value?_insert found with ⟨rfl, rfl⟩ | before
    · exact ⟨type, planned, holds⟩
    · exact held.values name' value' before

namespace Yields

theorem mono {step : Eval α} {after' : World → α → Prop} (h : w.Yields env after step)
    (weaker : ∀ w' a, after w' a → after' w' a) : w.Yields env after' step :=
  Triple.mono h fun a _ ⟨w', same, later, firm, held⟩ =>
    ⟨w', same, later, firm, weaker w' a held⟩

theorem bind {step : Eval β} {next : β → Eval α} {between : World → β → Prop}
    (first : w.Yields env between step)
    (second : ∀ w' b, w'.Firm → between w' b → w'.Yields env after (next b)) :
    w.Yields env after (step >>= next) := by
  apply Triple.bind first
  rintro b m ⟨w', same, later, firm, held⟩
  refine Triple.mono (second w' b firm held) ?_ m same.symm
  rintro a heap ⟨w'', same, later', firm', held'⟩
  exact ⟨w'', same, later.trans later', firm', held'⟩

theorem pure {a : α} (firm : w.Firm) (held : after w a) : w.Yields env after (Pure.pure a) :=
  Triple.pure fun _ same => ⟨w, same.symm, .refl, firm, held⟩

/-- A question to the store, whatever the answer is. -/
theorem ask {query : Store → Except Fault α} (firm : w.Firm) (held : ∀ a, after w a) :
    w.Yields env after (Eval.ask query) :=
  Triple.ask (fun _ a same _ => ⟨w, same.symm, .refl, firm, held a⟩) fun _ _ _ _ => trivial

theorem asked {query : Store → Except Fault α} (firm : w.Firm) (stands : w.Stands env layers) :
    w.Yields env (fun w' _ => w'.Stands env layers) (Eval.ask query) :=
  ask firm fun _ => stands

/-- A variable that the layers resolve to `Unit` is `Unit`. -/
theorem lookup (firm : w.Firm) (stands : w.Stands env layers)
    (resolves : layers.resolves name type = true) :
    w.Yields env (fun w' value => w'.Stands env layers ∧ (type = .unit → value = .unit))
      (Eval.lookup env name) := by
  refine Triple.ask (fun store value same asked => ?_) fun _ _ _ _ => trivial
  simp only [Store.lookup] at asked
  split at asked
  all_goals cases asked
  rename_i found
  have plain : ∀ location frame, store.frame? location = some frame → frame.expanded = [] := by
    intro location frame there
    have there' : w.heap.frame? location = some frame := same ▸ there
    exact (firm location frame there').expanded
  rw [Store.find, Store.findWithin_value? plain, ← Store.holderWithin_heap, same] at found
  obtain ⟨⟨location, binding⟩, holder, rfl⟩ := Option.map_eq_some_iff.mp found
  obtain ⟨frame, there, bound⟩ := Store.frame?_of_holder? holder
  have here : frame.value? name = some binding.value := by
    rw [Store.Frame.value?, bound]
    rfl
  obtain ⟨known, planned, holds⟩ := (firm location frame there).values name _ here
  rw [stands.type_of_holder firm.planned (stands.finds_of_resolves resolves) holder,
    Option.some.injEq] at planned
  exact ⟨w, same.symm, .refl, firm, stands, fun unit => holds (planned ▸ unit)⟩

theorem declare {mutability : Mutability} (firm : w.Firm) (holds : type = .unit → value = .unit)
    (stands : w.Stands env (⟨now, (name, type) :: rest, false⟩ :: outer)) :
    w.Yields env (fun w' _ => w'.Stands env (⟨now ++ [(name, type)], rest, false⟩ :: outer))
      (Eval.declare env name value mutability) := by
  refine Triple.declare (fun heap same free => ?_) fun _ _ _ => trivial
  subst same
  obtain ⟨planned, stands'⟩ := stands.declare free
  exact ⟨w.set env name ⟨value, mutability⟩, rfl, later_declare free, firm.set planned holds,
    stands'⟩

theorem assign (firm : w.Firm) (holds : type = .unit → value = .unit) (stands : w.Stands env layers)
    (resolves : layers.resolves name type = true) :
    w.Yields env (fun w' _ => w'.Stands env layers) (Eval.assign env name value) := by
  refine Triple.assign (fun heap holder old same found => ?_) (fun _ _ _ _ _ => trivial)
    fun _ _ _ => trivial
  subst same
  have planned := stands.type_of_holder firm.planned (stands.finds_of_resolves resolves) found
  have evolves (scope : Location) : w.Later scope (w.set holder name ⟨value, .mutable⟩) :=
    later_assign found
  refine ⟨w.set holder name ⟨value, .mutable⟩, rfl, evolves env, firm.set planned holds, ?_⟩
  -- no scope gains a name by this, not even the one that the assignment is made in
  exact stands.later (evolves w.heap.next) (.inl stands.lt_next)

/-- Work in a new scope leaves the scope around it where it stands. -/
theorem inScope {work : Location → Eval α} {holds : α → Prop} (firm : w.Firm)
    (stands : w.Stands env layers) (plan : Parameters)
    (inside : ∀ w' : World, w'.Firm → w'.Stands w.heap.next (⟨[], plan, false⟩ :: layers) →
      w'.Yields w.heap.next (fun _ => holds) (work w.heap.next)) :
    w.Yields env (fun w' a => w'.Stands env layers ∧ holds a) (Eval.inScope env site work) := by
  apply Triple.inScope
  rintro _ rfl
  have entered : w.Later w.heap.next (w.enter env site plan) := later_enter
  refine Triple.mono (inside _ firm.enter stands.enter) ?_
  rintro a heap ⟨w', same, later, firm', held⟩
  have evolves := entered.trans later
  refine ⟨w', same, ⟨evolves.plan, later.heap.of_child⟩, firm', ?_, held⟩
  exact stands.later evolves (.inl stands.lt_next)

end Yields

end World

namespace Interpreter

open World

variable {evaluator : Evaluator} {interpreter : Interpreter}

/-- An evaluator that puts nothing else in the place of `Unit`, whatever the node. -/
structure KnowsUnits (evaluator : Evaluator) : Prop where
  value : ∀ {node : Node} {env : Location} {layers : Layers} {w : World},
    node.isFunctionFree = true → KeepsUnit [node] → node.allUses Layers.resolves layers = true →
    w.Firm → w.Stands env layers →
    w.Yields env
      (fun w' value => w'.Stands env layers ∧ (node.yieldsUnit = true → value = .unit))
      (evaluator node env)
  bind : ∀ {tag : Tag} {mutability : Mutability} {name : String} {node : Node} {env : Location}
    {now rest : Parameters} {outer : Layers} {w : World},
    node.isFunctionFree = true → KeepsUnit [.bind tag mutability name node] →
    node.allUses Layers.resolves (⟨now, (name, tag.type) :: rest, false⟩ :: outer) = true →
    w.Firm → w.Stands env (⟨now, (name, tag.type) :: rest, false⟩ :: outer) →
    w.Yields env
      (fun w' value => w'.Stands env (⟨now ++ [(name, tag.type)], rest, false⟩ :: outer) ∧
        (node.yieldsUnit = true → value = .unit))
      (evaluator (.bind tag mutability name node) env)

variable {w : World} {env : Location} {layers outer : Layers} {now : Parameters}
  {body : List Node} {node : Node}

section Walks

variable (knows : KnowsUnits evaluator)

include knows

/-- One node of a body. -/
theorem yields_statement {rest : List Node} (free : bodyFunctionFree (node :: rest) = true)
    (keeps : KeepsUnit [node]) (uses : bodyUses Layers.resolves now outer (node :: rest) = true)
    (firm : w.Firm) (stands : w.Stands env (⟨now, bindsOf (node :: rest), false⟩ :: outer)) :
    w.Yields env
      (fun w' value => (node.yieldsUnit = true → value = .unit) ∧ ∃ now',
        w'.Stands env (⟨now', bindsOf rest, false⟩ :: outer) ∧
          bodyUses Layers.resolves now' outer rest = true)
      (evaluator node env) := by
  by_cases declares : node.binds = []
  · rw [bodyFunctionFree_cons declares, Bool.and_eq_true] at free
    rw [bodyUses_cons declares, Bool.and_eq_true] at uses
    rw [bindsOf_cons, declares, List.nil_append] at stands
    exact (knows.value free.1 keeps uses.1 firm stands).mono
      fun w' value held => ⟨held.2, now, held.1, uses.2⟩
  · cases node with
    | bind tag mutability name value =>
      rw [bodyFunctionFree, Bool.and_eq_true] at free
      rw [bodyUses, Bool.and_eq_true] at uses
      refine (knows.bind free.1 keeps uses.1 firm stands).mono fun w' value held => ?_
      rw [yieldsUnit]
      exact ⟨held.2, _, held.1, uses.2⟩
    | _ => exact absurd rfl declares

theorem yields_sequence (free : bodyFunctionFree body = true) (keeps : KeepsUnit body)
    (uses : bodyUses Layers.resolves now outer body = true) (firm : w.Firm)
    (stands : w.Stands env (⟨now, bindsOf body, false⟩ :: outer)) {last : Value} {before : Bool}
    (ends : before = true → last = .unit) :
    w.Yields env (fun _ value => endsInUnit before body = true → value = .unit)
      (sequence evaluator env last body) := by
  induction body generalizing w now last before with
  | nil =>
    refine Yields.pure firm fun unit => ends ?_
    rwa [endsInUnit] at unit
  | cons node rest ih =>
    obtain ⟨head, tail⟩ := KeepsUnit.cons.mp keeps
    have run : w.Yields env _ (holding last.kept (evaluator node env)) :=
      Triple.holding (yields_statement knows free head uses firm stands)
    apply run.bind
    rintro w' value firm' ⟨unit, now', stands', uses'⟩
    rw [endsInUnit]
    exact ih (bodyFunctionFree_of_cons free) tail uses' firm' stands' unit

/-- A body in a scope of its own. -/
theorem yields_block {site : CallSite} (free : bodyFunctionFree body = true)
    (keeps : KeepsUnit body) (uses : bodyUses Layers.resolves [] layers body = true) (firm : w.Firm)
    (stands : w.Stands env layers) :
    w.Yields env
      (fun w' value => w'.Stands env layers ∧ (endsInUnit true body = true → value = .unit))
      (inScope env site fun scope => sequence evaluator scope .unit body) :=
  Yields.inScope firm stands (bindsOf body) fun _ firm' inside =>
    yields_sequence knows free keeps uses firm' inside fun _ => rfl

theorem yields_testCondition (free : node.isFunctionFree = true) (keeps : KeepsUnit [node])
    (uses : node.allUses Layers.resolves layers = true) (firm : w.Firm)
    (stands : w.Stands env layers) :
    w.Yields env (fun w' _ => w'.Stands env layers) (testCondition evaluator node env) := by
  apply (knows.value free keeps uses firm stands).bind
  intro w' value firm' held
  exact Triple.onLine (Yields.asked firm' held.1)

theorem yields_loop {line : Line} (free : node.isFunctionFree = true) (keeps : KeepsUnit [node])
    (uses : node.allUses Layers.resolves layers = true) (bodyFree : bodyFunctionFree body = true)
    (bodyKeeps : KeepsUnit body) (bodyUses : bodyUses Layers.resolves [] layers body = true)
    (rounds : Nat) (firm : w.Firm) (stands : w.Stands env layers) :
    w.Yields env (fun w' value => w'.Stands env layers ∧ value = .unit)
      (runLoop evaluator line node body env rounds) := by
  induction rounds generalizing w with
  | zero => exact Triple.exhausted fun _ _ => trivial
  | succ rounds ih =>
    apply (yields_testCondition knows free keeps uses firm stands).bind
    intro w₁ chosen firm₁ stands₁
    cases chosen with
    | true =>
      apply (yields_block knows bodyFree bodyKeeps bodyUses firm₁ stands₁).bind
      intro w₂ _ firm₂ held
      exact ih firm₂ held.1
    | false => exact Yields.pure firm₁ ⟨stands₁, rfl⟩

/-- An operand, of which it does not matter whether it is `Unit`. -/
theorem yields_operand (free : node.isFunctionFree = true) (keeps : KeepsUnit [node])
    (uses : node.allUses Layers.resolves layers = true) (firm : w.Firm)
    (stands : w.Stands env layers) :
    w.Yields env (fun w' _ => w'.Stands env layers) (evaluator node env) :=
  (knows.value free keeps uses firm stands).mono fun _ _ held => held.1

/-- A step of a node other than a declaration. -/
theorem yields_step (rounds : Nat) (free : node.isFunctionFree = true) (keeps : KeepsUnit [node])
    (uses : node.allUses Layers.resolves layers = true) (firm : w.Firm)
    (stands : w.Stands env layers) :
    w.Yields env
      (fun w' value => w'.Stands env layers ∧ (node.yieldsUnit = true → value = .unit))
      (interpreter.step rounds evaluator node env) := by
  obtain ⟨own, below⟩ := KeepsUnit.singleton.mp keeps
  cases node with
  | literal _ value =>
    refine Yields.pure firm ⟨stands, fun unit => ?_⟩
    cases value with
    | unit => rfl
    | scalar =>
      rw [yieldsUnit] at unit
      cases unit
  | readVariable =>
    rw [allUses] at uses
    refine (Yields.lookup firm stands uses).mono fun w' value held => ⟨held.1, fun unit => ?_⟩
    rw [yieldsUnit, decide_eq_true_eq] at unit
    exact held.2 unit
  | readFunction =>
    rw [yieldsUnit]
    refine (Yields.asked firm stands).bind fun w' _ firm' stands' => ?_
    exact Yields.pure firm' ⟨stands', nofun⟩
  | unary =>
    rw [isFunctionFree] at free
    rw [allUses] at uses
    rw [yieldsUnit]
    refine (yields_operand knows free below uses firm stands).bind fun w' _ firm' stands' => ?_
    exact Yields.ask firm' fun _ => ⟨stands', nofun⟩
  | binary =>
    rw [isFunctionFree, Bool.and_eq_true] at free
    rw [allUses, Bool.and_eq_true] at uses
    obtain ⟨left, right⟩ := KeepsUnit.cons.mp below
    rw [yieldsUnit]
    refine (yields_operand knows free.1 left uses.1 firm stands).bind
      fun w₁ first firm₁ stands₁ => ?_
    have operand : w₁.Yields env _ (holding first.kept (evaluator _ env)) :=
      Triple.holding (yields_operand knows free.2 right uses.2 firm₁ stands₁)
    refine operand.bind fun w₂ _ firm₂ stands₂ => ?_
    exact Yields.ask firm₂ fun _ => ⟨stands₂, nofun⟩
  | logical =>
    rw [isFunctionFree, Bool.and_eq_true] at free
    rw [allUses, Bool.and_eq_true] at uses
    obtain ⟨left, right⟩ := KeepsUnit.cons.mp below
    rw [yieldsUnit]
    refine (yields_operand knows free.1 left uses.1 firm stands).bind
      fun w₁ _ firm₁ stands₁ => ?_
    refine (Yields.asked firm₁ stands₁).bind fun w₂ decided firm₂ stands₂ => ?_
    split
    · exact Yields.pure firm₂ ⟨stands₂, nofun⟩
    · refine (yields_operand knows free.2 right uses.2 firm₂ stands₂).bind
        fun w₃ _ firm₃ stands₃ => ?_
      refine (Yields.asked firm₃ stands₃).bind fun w₄ _ firm₄ stands₄ => ?_
      exact Yields.pure firm₄ ⟨stands₄, nofun⟩
  | assign tag name value =>
    rw [isFunctionFree] at free
    rw [allUses, Bool.and_eq_true] at uses
    rw [yieldsUnit]
    refine (knows.value free below uses.1 firm stands).bind fun w₁ result firm₁ held => ?_
    have holds : tag.type = .unit → result = .unit :=
      fun unit => held.2 (yieldsUnit_of_assign own unit)
    refine (Yields.assign firm₁ holds held.1 uses.2).bind fun w₂ _ firm₂ stands₂ => ?_
    exact Yields.pure firm₂ ⟨stands₂, held.2⟩
  | block =>
    rw [isFunctionFree] at free
    rw [allUses] at uses
    rw [yieldsUnit]
    exact yields_block knows free below uses firm stands
  | loop =>
    rw [isFunctionFree, Bool.and_eq_true] at free
    rw [allUses, Bool.and_eq_true] at uses
    obtain ⟨test, inner⟩ := KeepsUnit.cons.mp below
    exact (yields_loop knows free.1 test uses.1 free.2 inner uses.2 rounds firm stands).mono
      fun _ _ held => ⟨held.1, fun _ => held.2⟩
  | branch =>
    simp only [isFunctionFree, Bool.and_eq_true] at free
    simp only [allUses, Bool.and_eq_true] at uses
    obtain ⟨test, bodies⟩ := KeepsUnit.cons.mp below
    obtain ⟨whenTrue, whenFalse⟩ := KeepsUnit.append.mp bodies
    refine (yields_testCondition knows free.1.1 test uses.1.1 firm stands).bind
      fun w₁ chosen firm₁ stands₁ => ?_
    rw [yieldsUnit, Bool.and_eq_true]
    cases chosen with
    | true =>
      exact (yields_block knows free.1.2 whenTrue uses.1.2 firm₁ stands₁).mono
        fun _ _ held => ⟨held.1, fun unit => held.2 unit.1⟩
    | false =>
      exact (yields_block knows free.2 whenFalse uses.2 firm₁ stands₁).mono
        fun _ _ held => ⟨held.1, fun unit => held.2 unit.2⟩
  | this | get | set | call | bind | returns | function | native | anonymous | record | openModule
  | useModule =>
    rw [isFunctionFree] at free
    cases free

/-- A step of a declaration moves its layer on. -/
theorem yields_step_bind {tag : Tag} {mutability : Mutability} {name : String} {rest : Parameters}
    (rounds : Nat) (free : node.isFunctionFree = true)
    (keeps : KeepsUnit [.bind tag mutability name node])
    (uses : node.allUses Layers.resolves (⟨now, (name, tag.type) :: rest, false⟩ :: outer) = true)
    (firm : w.Firm) (stands : w.Stands env (⟨now, (name, tag.type) :: rest, false⟩ :: outer)) :
    w.Yields env
      (fun w' value => w'.Stands env (⟨now ++ [(name, tag.type)], rest, false⟩ :: outer) ∧
        (node.yieldsUnit = true → value = .unit))
      (interpreter.step rounds evaluator (.bind tag mutability name node) env) := by
  obtain ⟨own, below⟩ := KeepsUnit.singleton.mp keeps
  refine (knows.value free below uses firm stands).bind fun w₁ value firm₁ held => ?_
  have holds : tag.type = .unit → value = .unit :=
    fun unit => held.2 (yieldsUnit_of_bind own unit)
  refine (Yields.declare firm₁ holds held.1).bind fun w₂ _ firm₂ stands₂ => ?_
  exact Yields.pure firm₂ ⟨stands₂, held.2⟩

end Walks

theorem knowsUnits_evaluate (fuel : Nat) : KnowsUnits (interpreter.evaluate fuel) := by
  induction fuel with
  | zero =>
    exact ⟨fun _ _ _ _ _ => Triple.exhausted fun _ _ => trivial,
      fun _ _ _ _ _ => Triple.exhausted fun _ _ => trivial⟩
  | succ fuel ih =>
    constructor
    · intro node env layers w free keeps uses firm stands
      exact Triple.located (yields_step ih fuel free keeps uses firm stands)
    · intro tag mutability name node env now rest outer w free keeps uses firm stands
      exact Triple.located (yields_step_bind ih fuel free keeps uses firm stands)

/-- The nodes of a unit that can only yield `Unit` do so, in a firm world. -/
theorem yields_evaluateEach {unit : List Node} (knows : KnowsUnits evaluator)
    (free : bodyFunctionFree unit = true) (keeps : KeepsUnit unit)
    (uses : bodyUses Layers.resolves now outer unit = true) (firm : w.Firm)
    (stands : w.Stands env (⟨now, bindsOf unit, false⟩ :: outer)) :
    w.Yields env
      (fun _ => List.Forall₂ (fun node value => node.yieldsUnit = true → value = .unit) unit)
      (evaluateEach evaluator env unit) := by
  induction unit generalizing w now with
  | nil => exact Yields.pure firm .nil
  | cons node rest ih =>
    obtain ⟨head, tail⟩ := KeepsUnit.cons.mp keeps
    have run := yields_statement knows free head uses firm stands
    have first : w.Yields env _ (uncaught node.line (evaluator node env)) :=
      Triple.uncaught (Triple.consequence run (fun _ same => same) (fun _ _ leads => leads)
        ⟨fun _ _ _ => trivial, fun _ _ _ => trivial, fun _ _ => trivial⟩)
    apply first.bind
    rintro w₁ value firm₁ ⟨unit, now', stands₁, uses₁⟩
    have others : w₁.Yields env _ (holding value.kept (evaluateEach evaluator env rest)) :=
      Triple.holding (ih (bodyFunctionFree_of_cons free) tail uses₁ firm₁ stands₁)
    exact others.bind fun _ _ firm₂ units => Yields.pure firm₂ (.cons unit units)

end Interpreter

end ScriptCore
