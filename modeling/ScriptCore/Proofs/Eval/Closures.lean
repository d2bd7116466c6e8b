import ScriptCore.Proofs.Eval.TypeSafety
import ScriptCore.Proofs.Eval.Watched
import ScriptCore.Proofs.Eval.Worlds

/-!
# Closures find what they have been resolved to

A closure looks its variables up by name in scopes that have gone on since it was created. Where a
node stands inside layers that resolve all its uses, in a valid world, watched evaluation of it ends
with no mismatch, and leads to a valid world where the node still stands inside these layers
(`sound_evaluateWatched`).
-/
namespace ScriptCore

open Eval Node

namespace World

variable {α β : Type} {w w' : World} {env location outside : Location} {r : Option Ty}
  {layers outer : Layers} {now rest : Parameters} {name : String} {type : Ty} {value : Value}
  {after : World → α → Prop} {site : CallSite} {plan : Parameters}

/-- Whether a heap is that of a later valid world of which something holds. -/
def Leads (w : World) (env : Location) (holds : World → Prop) (heap : Store) : Prop :=
  ∃ w', w'.heap = heap ∧ w.Later env w' ∧ w'.Valid ∧ holds w'

/-- However a step stops, it is with no mismatch, and a returned value is good for the result of the
function around. -/
def stops (w : World) (env : Location) (r : Option Ty) : Stops where
  returned value := w.Leads env fun w' => ∀ type, r = some type → w'.Good type value
  failed fault _ := ¬ fault.IsMismatch
  exhausted _ := True

/-- From a world, inside a function with a result of the type `r`, a step in `env` leads to a valid
world. -/
def Runs (w : World) (env : Location) (r : Option Ty) (after : World → α → Prop)
    (step : Eval α) : Prop :=
  Triple (· = w.heap) step (fun a => w.Leads env fun w' => after w' a) (w.stops env r)

theorem Leads.mono {holds holds' : World → Prop} {heap : Store}
    (leads : w.Leads env holds heap)
    (weaker : ∀ w', w.Later env w' → w'.Valid → holds w' → holds' w') :
    w.Leads env holds' heap := by
  obtain ⟨w', same, later, valid, held⟩ := leads
  exact ⟨w', same, later, valid, weaker w' later valid held⟩

theorem Leads.of_later {holds : World → Prop} {heap : Store} (later : w.Later env w')
    (leads : w'.Leads env holds heap) : w.Leads env holds heap := by
  obtain ⟨w'', same, later', valid, held⟩ := leads
  exact ⟨w'', same, later.trans later', valid, held⟩

namespace Runs

theorem mono {step : Eval α} {after' : World → α → Prop} (h : w.Runs env r after step)
    (weaker : ∀ w' a, w.Later env w' → w'.Valid → after w' a → after' w' a) :
    w.Runs env r after' step :=
  Triple.mono h fun a _ leads => leads.mono fun w' => weaker w' a

theorem bind {step : Eval β} {next : β → Eval α} {between : World → β → Prop}
    (first : w.Runs env r between step)
    (second : ∀ w' b, w.Later env w' → w'.Valid → between w' b → w'.Runs env r after (next b)) :
    w.Runs env r after (step >>= next) := by
  apply Triple.bind first
  rintro b m ⟨w', same, later, valid, held⟩
  have run := second w' b later valid held
  have stopped : (w'.stops env r).Within (w.stops env r) :=
    ⟨fun _ _ leads => leads.of_later later, fun _ _ held => held, fun _ held => held⟩
  exact run.consequence (fun _ same => same) (fun _ _ leads => leads.of_later later) stopped m
    same.symm

theorem pure {a : α} (valid : w.Valid) (held : after w a) : w.Runs env r after (Pure.pure a) := by
  apply Triple.pure
  intro heap same
  exact ⟨w, same.symm, .refl, valid, held⟩

theorem fault {f : Fault} (other : ¬ f.IsMismatch) : w.Runs env r after (Eval.fault f) :=
  Triple.fault fun _ _ => other

theorem check {result : Except Fault α} (valid : w.Valid)
    (passes : ∃ a, result = .ok a ∧ after w a) :
    w.Runs env r after (Eval.ask fun _ => result) := by
  obtain ⟨a, rfl, held⟩ := passes
  refine Triple.check (fun b heap same now => ?_) nofun
  cases same
  exact ⟨w, now.symm, .refl, valid, held⟩

theorem truth (valid : w.Valid) (stands : w.Stands env layers) (good : w.Good .boolean value) :
    w.Runs env r (fun w' _ => w'.Stands env layers) (Eval.ask fun _ => value.truth) := by
  obtain ⟨b, rfl⟩ := good.fits.isBoolean
  exact check valid ⟨b, rfl, stands⟩

/-- An operator gives a scalar. -/
theorem operator {result : Except Fault Value} (valid : w.Valid) (stands : w.Stands env layers)
    (computes : ∃ value, result = .ok value ∧ value.Fits .builtin type)
    (scalar : type = .boolean ∨ type = .string ∨ type.isNumber = true) :
    w.Runs env r (fun w' value => w'.Stands env layers ∧ w'.Good type value)
      (Eval.ask fun _ => result) := by
  obtain ⟨value, computed, fits⟩ := computes
  refine check valid ⟨value, computed, stands, fits, ?_⟩
  rcases scalar with rfl | rfl | number
  · obtain ⟨b, rfl⟩ := fits.isBoolean
    trivial
  · obtain ⟨text, rfl⟩ := fits.isString
    trivial
  · rcases fits.isNumber number with ⟨-, n, rfl⟩ | ⟨-, x, rfl⟩ <;> trivial

theorem returned (valid : w.Valid) (good : ∀ type, r = some type → w.Good type value) :
    w.Runs env r after (Attempt.fail (.returned value)) := by
  apply Triple.returned
  intro heap same
  exact ⟨w, same.symm, .refl, valid, good⟩

/-- A variable that the layers resolve has a value of its type. -/
theorem lookup (valid : w.Valid) (stands : w.Stands env layers)
    (resolves : layers.resolves name type = true) :
    w.Runs env r (fun w' value => w'.Stands env layers ∧ w'.Good type value)
      (Eval.lookup env name) := by
  have finds := stands.finds_of_resolves resolves
  refine Triple.ask (fun store value same asked => ?_) (fun store fault _ asked => ?_)
  all_goals
    simp only [Store.lookup] at asked
    split at asked
    all_goals cases asked
  · rename_i found
    have plain : ∀ location frame, store.frame? location = some frame → frame.expanded = [] := by
      intro location frame there
      have there' : w.heap.frame? location = some frame := same ▸ there
      exact (valid location frame there').expanded
    rw [Store.find, Store.findWithin_value? plain, ← Store.holderWithin_heap, same] at found
    obtain ⟨⟨location, binding⟩, holder, rfl⟩ := Option.map_eq_some_iff.mp found
    obtain ⟨frame, there, bound⟩ := Store.frame?_of_holder? holder
    have here : frame.value? name = some binding.value := by
      rw [Store.Frame.value?, bound]
      rfl
    obtain ⟨known, planned, good⟩ := (valid location frame there).values name _ here
    rw [stands.type_of_holder valid.planned finds holder, Option.some.injEq] at planned
    exact ⟨w, same.symm, .refl, valid, stands, planned ▸ good⟩
  · exact id

/-- No function is found but the constructors of a string. -/
theorem lookupFunction {type : FnTy} (valid : w.Valid) (stands : w.Stands env layers)
    (known : Declarations.builtin.functions name type) :
    w.Runs env r (fun w' callable => w'.Stands env layers ∧ w'.Good (.fn type) (.callable callable))
      (Eval.lookupFunction env name) := by
  refine Triple.lookupFunction (fun heap location frame callable same there found => ?_)
    fun _ _ => id
  subst same
  obtain ⟨placed, sound⟩ := (valid location frame there).callables name callable found
  obtain ⟨isSound, typed⟩ := sound type known
  exact ⟨w, rfl, .refl, valid, stands, ⟨isSound, .inr (typed ▸ Ty.accepts_refl _)⟩, placed⟩

theorem declare {mutability : Mutability} (valid : w.Valid) (good : w.Good type value)
    (stands : w.Stands env (⟨now, (name, type) :: rest, false⟩ :: outer)) :
    w.Runs env r
      (fun w' _ => w'.Stands env (⟨now ++ [(name, type)], rest, false⟩ :: outer))
      (Eval.declare env name value mutability) := by
  refine Triple.declare (fun heap same free => ?_) fun _ _ _ => id
  subst same
  obtain ⟨planned, stands'⟩ := stands.declare free
  have evolves : w.Later env (w.set env name ⟨value, mutability⟩) := later_declare free
  exact ⟨w.set env name ⟨value, mutability⟩, rfl, evolves, valid.set evolves planned good, stands'⟩

theorem assign (valid : w.Valid) (good : w.Good type value) (stands : w.Stands env layers)
    (resolves : layers.resolves name type = true) :
    w.Runs env r (fun w' _ => w'.Stands env layers) (Eval.assign env name value) := by
  refine Triple.assign (fun heap holder old same found => ?_) (fun _ _ _ _ _ => id) fun _ _ _ => id
  subst same
  have planned := stands.type_of_holder valid.planned (stands.finds_of_resolves resolves) found
  have evolves (scope : Location) : w.Later scope (w.set holder name ⟨value, .mutable⟩) :=
    later_assign found
  refine ⟨w.set holder name ⟨value, .mutable⟩, rfl, evolves env, ?_, ?_⟩
  · exact valid.set (evolves env) planned good
  -- no scope gains a name by this, not even the one that the assignment is made in
  · exact stands.later (evolves w.heap.next) (.inl stands.lt_next)

/-- Work in a new scope leaves all scopes with the names that they have, but for captured ones. -/
theorem inScope {around : Layers} {work : Location → Eval α} (valid : w.Valid)
    (stands : w.Stands env layers) (outside' : w.Stands outside around) (plan : Parameters)
    (inside : ∀ w', w.Later w.heap.next w' → w'.Valid →
      w'.Stands w.heap.next (⟨[], plan, false⟩ :: around) →
      w'.Runs w.heap.next r after (work w.heap.next)) :
    w.Runs env r (fun w' a => w'.Stands env layers ∧ after w' a)
      (Eval.inScope outside site work) := by
  apply Triple.inScope
  rintro _ rfl
  have entered : w.Later w.heap.next (w.enter outside site plan) := later_enter
  have leaves {holds : World → Prop} {heap : Store}
      (leads : (w.enter outside site plan).Leads w.heap.next holds heap) :
      w.Leads env (fun w' => w'.Stands env layers ∧ holds w') heap := by
    obtain ⟨w', same, later, valid', held⟩ := leads
    have evolves := entered.trans later
    refine ⟨w', same, ⟨evolves.plan, later.heap.of_child⟩, valid', ?_, held⟩
    exact stands.later evolves (.inl stands.lt_next)
  refine Triple.consequence (inside _ entered valid.enter outside'.enter) (fun _ same => same)
    (fun a heap => leaves) ⟨fun value heap leads => ?_, fun _ _ held => held, fun _ held => held⟩
  exact (leaves leads).mono fun _ _ _ held => held.2

theorem catchReturn {function : String} {line : Line} {scope : Location} {body : Eval Unit}
    (h : w.Runs env (some type) (fun _ _ => True) body) :
    w.Runs env r (fun w' value => w'.Good type value)
      (Eval.catchReturn function line scope body) := by
  refine Triple.catchReturn (Triple.consequence h (fun _ same => same) ?_ ⟨?_, ?_, ?_⟩)
  · exact fun _ _ _ => id
  · exact fun value heap leads => leads.mono fun _ _ _ good => good type rfl
  · exact fun _ _ held => held
  · exact fun _ held => held

theorem bindArguments {parameters : Parameters} {arguments : Arguments}
    (fit : Safe.FitParameters .builtin parameters arguments) (valid : w.Valid)
    (placed : ∀ argument ∈ arguments, argument.2.Placed w)
    (stands : w.Stands env (⟨now, parameters ++ rest, false⟩ :: outer)) :
    w.Runs env r (fun w' _ => w'.Stands env (⟨now ++ parameters, rest, false⟩ :: outer))
      (Eval.bindArguments env arguments) := by
  induction fit generalizing w now with
  | nil =>
    rw [List.append_nil]
    exact pure valid stands
  | @cons parameter argument parameters arguments head _ ih =>
    obtain ⟨named, fits⟩ := head
    obtain ⟨first, others⟩ := List.forall_mem_cons.mp placed
    have stands' : w.Stands env
        (⟨now, (argument.1, parameter.2) :: (parameters ++ rest), false⟩ :: outer) := named ▸ stands
    rw [Eval.bindArguments]
    apply (declare valid ⟨fits, first⟩ stands').bind
    intro w' _ later valid' behind
    have run := ih valid' (fun argument mem => value_placed_of_later later (others argument mem))
      behind
    rw [List.append_assoc, ← named] at run
    exact run

end Runs

end World

namespace Interpreter

open World

variable {evaluator : Evaluator} {interpreter : Interpreter}

/-- An evaluator that keeps to the layers that a node stands inside, whatever the node. -/
structure Sound (evaluator : Evaluator) : Prop where
  value : ∀ {node : Node} {env : Location} {layers : Layers} {w : World} {r : Option Ty},
    Typed .builtin r node → node.allUses Layers.resolves layers = true → w.Valid →
    w.Stands env layers →
    w.Runs env r (fun w' value => w'.Stands env layers ∧ w'.Good node.type value)
      (evaluator node env)
  bind : ∀ {tag : Tag} {mutability : Mutability} {name : String} {node : Node} {env : Location}
    {now rest : Parameters} {outer : Layers} {w : World} {r : Option Ty},
    Typed .builtin r (.bind tag mutability name node) →
    node.allUses Layers.resolves (⟨now, (name, tag.type) :: rest, false⟩ :: outer) = true →
    w.Valid → w.Stands env (⟨now, (name, tag.type) :: rest, false⟩ :: outer) →
    w.Runs env r
      (fun w' value => w'.Stands env (⟨now ++ [(name, tag.type)], rest, false⟩ :: outer) ∧
        w'.Good tag.type value)
      (evaluator (.bind tag mutability name node) env)

variable {w : World} {env : Location} {r : Option Ty} {layers outer : Layers} {now : Parameters}
  {body whole : List Node} {node : Node}

section Walks

variable (sound : Sound evaluator)

include sound

/-- One node of a body. -/
theorem runs_statement {rest : List Node} (typed : Typed .builtin r node)
    (uses : bodyUses Layers.resolves now outer (node :: rest) = true) (valid : w.Valid)
    (stands : w.Stands env (⟨now, bindsOf (node :: rest), false⟩ :: outer)) :
    w.Runs env r
      (fun w' value => w'.Good node.type value ∧ ∃ now',
        w'.Stands env (⟨now', bindsOf rest, false⟩ :: outer) ∧
          bodyUses Layers.resolves now' outer rest = true)
      (evaluator node env) := by
  by_cases binds : node.binds = []
  · rw [bodyUses_cons binds, Bool.and_eq_true] at uses
    rw [bindsOf_cons, binds, List.nil_append] at stands
    apply (sound.value typed uses.1 valid stands).mono
    intro w' value _ _ held
    exact ⟨held.2, now, held.1, uses.2⟩
  · cases node with
    | bind tag mutability name value =>
      rw [bodyUses, Bool.and_eq_true] at uses
      apply (sound.bind typed uses.1 valid stands).mono
      intro w' value _ _ held
      exact ⟨held.2, _, held.1, uses.2⟩
    | _ => exact absurd rfl binds

theorem runs_sequence (part : body <:+ whole) (typed : ∀ node ∈ body, Typed .builtin r node)
    (uses : bodyUses Layers.resolves now outer body = true) (valid : w.Valid)
    (stands : w.Stands env (⟨now, bindsOf body, false⟩ :: outer)) {last : Value}
    (good : w.Good .unit last)
    (ends : body = [] → ∀ type, valueType? whole = some type → last.Fits .builtin type) :
    w.Runs env r
      (fun w' value => w'.Good .unit value ∧
        ∀ type, valueType? whole = some type → value.Fits .builtin type)
      (sequence evaluator env last body) := by
  induction body generalizing w now last with
  | nil => exact Runs.pure valid ⟨good, ends rfl⟩
  | cons node rest ih =>
    obtain ⟨head, tail⟩ := List.forall_mem_cons.mp typed
    have run : w.Runs env r _ (holding last.kept (evaluator node env)) :=
      Triple.holding (runs_statement sound head uses valid stands)
    apply run.bind
    intro w' value _ valid' held
    obtain ⟨good, now', stands', uses'⟩ := held
    refine ih ((List.suffix_cons _ _).trans part) tail uses' valid' stands'
      ⟨good.fits.sound.fits_unit, good.placed⟩ ?_
    rintro rfl type found
    exact type_of_valueType? part found ▸ good.fits

theorem runs_runBody (typed : ∀ node ∈ body, Typed .builtin r node)
    (uses : bodyUses Layers.resolves now outer body = true) (valid : w.Valid)
    (stands : w.Stands env (⟨now, bindsOf body, false⟩ :: outer)) :
    w.Runs env r (fun _ _ => True) (runBody evaluator env body) := by
  induction body generalizing w now with
  | nil => exact Runs.pure valid trivial
  | cons node rest ih =>
    obtain ⟨head, tail⟩ := List.forall_mem_cons.mp typed
    apply (runs_statement sound head uses valid stands).bind
    intro w' value _ valid' held
    obtain ⟨-, now', stands', uses'⟩ := held
    exact ih tail uses' valid' stands'

/-- A body in a scope of its own. -/
theorem runs_block {site : CallSite} (typed : ∀ node ∈ body, Typed .builtin r node)
    (uses : bodyUses Layers.resolves [] layers body = true) (valid : w.Valid)
    (stands : w.Stands env layers) :
    w.Runs env r
      (fun w' value => w'.Stands env layers ∧ w'.Good .unit value ∧
        ∀ type, valueType? body = some type → value.Fits .builtin type)
      (inScope env site fun scope => sequence evaluator scope .unit body) := by
  apply Runs.inScope valid stands stands (bindsOf body)
  intro w' _ valid' inside
  refine runs_sequence sound (List.suffix_refl _) typed uses valid' inside ?_ ?_
  · exact ⟨⟨trivial, .inl rfl⟩, trivial⟩
  · rintro rfl type found
    cases found

theorem runs_arguments {arguments : List (String × Node)}
    (typed : ∀ argument ∈ arguments, Typed .builtin r argument.2)
    (uses : ∀ argument ∈ arguments, argument.2.allUses Layers.resolves layers = true)
    (valid : w.Valid) (stands : w.Stands env layers) :
    w.Runs env r
      (fun w' values => w'.Stands env layers ∧ List.Forall₂
        (fun argument value => argument.1 = value.1 ∧ w'.Good argument.2.type value.2)
        arguments values)
      (evaluateArguments evaluator env arguments) := by
  induction arguments generalizing w with
  | nil => exact Runs.pure valid ⟨stands, .nil⟩
  | cons argument rest ih =>
    obtain ⟨head, tail⟩ := List.forall_mem_cons.mp typed
    obtain ⟨headUses, tailUses⟩ := List.forall_mem_cons.mp uses
    apply (sound.value head headUses valid stands).bind
    intro w₁ value _ valid₁ first
    have others : w₁.Runs env r _ (holding value.kept (evaluateArguments evaluator env rest)) :=
      Triple.holding (ih tail tailUses valid₁ first.1)
    apply others.bind
    intro w₂ values later valid₂ held
    exact Runs.pure valid₂ ⟨held.1, .cons ⟨rfl, first.2.later later⟩ held.2⟩

theorem runs_testCondition (typed : Typed .builtin r node) (boolean : node.type = .boolean)
    (uses : node.allUses Layers.resolves layers = true) (valid : w.Valid)
    (stands : w.Stands env layers) :
    w.Runs env r (fun w' _ => w'.Stands env layers) (testCondition evaluator node env) := by
  apply (sound.value typed uses valid stands).bind
  intro w' value _ valid' held
  exact Triple.onLine (Runs.truth valid' held.1 (boolean ▸ held.2))

theorem runs_loop {line : Line} (typed : Typed .builtin r node) (boolean : node.type = .boolean)
    (uses : node.allUses Layers.resolves layers = true)
    (bodyTyped : ∀ node ∈ body, Typed .builtin r node)
    (bodyUses : bodyUses Layers.resolves [] layers body = true) (rounds : Nat) (valid : w.Valid)
    (stands : w.Stands env layers) :
    w.Runs env r (fun w' value => w'.Stands env layers ∧ w'.Good .unit value)
      (runLoop evaluator line node body env rounds) := by
  induction rounds generalizing w with
  | zero => exact Triple.exhausted fun _ _ => trivial
  | succ rounds ih =>
    apply (runs_testCondition sound typed boolean uses valid stands).bind
    intro w₁ chosen _ valid₁ stands₁
    cases chosen with
    | true =>
      apply (runs_block sound bodyTyped bodyUses valid₁ stands₁).bind
      intro w₂ _ _ valid₂ held
      exact ih valid₂ held.1
    | false => exact Runs.pure valid₁ ⟨stands₁, ⟨trivial, .inl rfl⟩, trivial⟩

theorem runs_invokeWith {callable : Callable} {arguments : Arguments}
    (placed : callable.Placed w) (isSound : callable.Sound .builtin)
    (fit : Safe.FitParameters .builtin callable.type.parameters arguments)
    (stand : ∀ argument ∈ arguments, argument.2.Placed w) (site : Node) (valid : w.Valid)
    (stands : w.Stands env layers) :
    w.Runs env r (fun w' value => w'.Stands env layers ∧ w'.Good callable.type.result value)
      (interpreter.invokeWith evaluator callable site arguments env) := by
  cases callable with
  | function | native => cases placed
  | closure header body captured =>
    obtain ⟨around, -, there, uses⟩ := placed
    refine Runs.inScope valid stands there (header.type.parameters ++ bindsOf body)
      fun w₁ later valid₁ inside => ?_
    have stand₁ : ∀ argument ∈ arguments, argument.2.Placed w₁ :=
      fun argument mem => value_placed_of_later later (stand argument mem)
    -- from here on a return answers to the result of this function, not to that of the caller
    apply (Runs.bindArguments fit valid₁ stand₁ inside).bind
    intro w₂ _ _ valid₂ bound
    exact Runs.catchReturn (runs_runBody sound isSound.body uses valid₂ bound)
  | constructor header =>
    obtain ⟨made, result⟩ := isSound
    apply Runs.inScope valid stands stands []
    intro w₁ _ valid₁ _
    apply Runs.catchReturn
    apply Runs.returned valid₁
    intro type same
    cases same
    rw [made, Callable.type, result]
    exact ⟨Value.fits_string _, trivial⟩

theorem runs_callee {callee : Node} (typed : Typed .builtin r callee)
    (uses : callee.allUses Layers.resolves layers = true) (valid : w.Valid)
    (stands : w.Stands env layers) :
    w.Runs env r (fun w' value => w'.Stands env layers ∧ w'.Good callee.type value)
      (evaluateCallee evaluator callee env) := by
  rw [evaluateCallee.eq_def]
  split
  · cases typed with
    | readFunction known =>
      apply (Runs.lookupFunction valid stands known).bind
      intro w' callable _ valid' held
      exact Runs.pure valid' held
  · rw [allUses] at uses
    exact Runs.lookup valid stands uses
  · exact sound.value typed uses valid stands

theorem runs_evaluateCall {callee : Node} {arguments : List (String × Node)} {type : FnTy}
    (calleeTyped : Typed .builtin r callee) (isFunction : callee.type = .fn type)
    (argumentsTyped : ∀ argument ∈ arguments, Typed .builtin r argument.2)
    (keyed : arguments.map Prod.fst = Parameters.names type.parameters)
    (accepted : List.Forall₂ (fun parameter argument =>
      parameter.2.accepts argument.2.type = true) type.parameters arguments)
    (uses : callee.allUses Layers.resolves layers = true)
    (argumentUses : ∀ argument ∈ arguments, argument.2.allUses Layers.resolves layers = true)
    (site : Node) (valid : w.Valid) (stands : w.Stands env layers) :
    w.Runs env r (fun w' value => w'.Stands env layers ∧ w'.Good type.result value)
      (interpreter.evaluateCall evaluator site callee arguments env) := by
  apply (runs_callee sound calleeTyped uses valid stands).bind
  intro w₁ target _ valid₁ held
  obtain ⟨stands₁, good⟩ := held
  refine Triple.holding (Runs.bind (runs_arguments sound argumentsTyped argumentUses valid₁ stands₁)
    fun w₂ values later valid₂ evaluated => ?_)
  obtain ⟨stands₂, goods⟩ := evaluated
  obtain ⟨fits, placed⟩ := good
  rw [isFunction] at fits
  obtain ⟨callable, rfl, isSound, rfl⟩ := fits.isCallable
  have fit : Safe.FitParameters .builtin callable.type.parameters values := by
    refine expectation_fits.parameters keyed accepted ?_
    exact goods.imp fun _ _ held => ⟨held.1, held.2.fits⟩
  have stand : ∀ argument ∈ values, argument.2.Placed w₂ := by
    intro argument mem
    obtain ⟨node, -, -, good⟩ := Safe.exists_of_mem_forall₂ goods mem
    exact good.placed
  exact Triple.holding (runs_invokeWith sound (placed_of_later later placed) isSound fit stand site
    valid₂ stands₂)

theorem runs_binary {op : BinaryOp} {left right : Node} {type : Ty}
    (leftTyped : Typed .builtin r left) (rightTyped : Typed .builtin r right)
    (uses : left.allUses Layers.resolves layers = true ∧
      right.allUses Layers.resolves layers = true)
    (computes : ∀ first second : Value, first.Fits .builtin left.type →
      second.Fits .builtin right.type →
      ∃ result, Value.binary op first second = .ok result ∧ result.Fits .builtin type)
    (scalar : type = .boolean ∨ type = .string ∨ type.isNumber = true) (valid : w.Valid)
    (stands : w.Stands env layers) :
    w.Runs env r (fun w' value => w'.Stands env layers ∧ w'.Good type value) (do
      let first ← evaluator left env
      let second ← holding first.kept (evaluator right env)
      Eval.ask fun _ => Value.binary op first second) := by
  apply (sound.value leftTyped uses.1 valid stands).bind
  intro w₁ first _ valid₁ held
  have operand : w₁.Runs env r _ (holding first.kept (evaluator right env)) :=
    Triple.holding (sound.value rightTyped uses.2 valid₁ held.1)
  apply operand.bind
  intro w₂ second _ valid₂ held'
  exact Runs.operator valid₂ held'.1 (computes first second held.2.fits held'.2.fits) scalar

/-- A step of a node other than a declaration. -/
theorem runs_step (rounds : Nat) (typed : Typed .builtin r node)
    (uses : node.allUses Layers.resolves layers = true) (valid : w.Valid)
    (stands : w.Stands env layers) :
    w.Runs env r (fun w' value => w'.Stands env layers ∧ w'.Good node.type value)
      (interpreter.step rounds evaluator node env) := by
  cases typed with
  | @literal _ _ value =>
    refine Runs.pure valid ⟨stands, Value.fits_ofLiteral, ?_⟩
    cases value <;> trivial
  | this | bind | function | native | record | openModule | useModule =>
    rw [allUses] at uses
    cases uses
  | readVariable =>
    rw [allUses] at uses
    exact Runs.lookup valid stands uses
  | readFunction known =>
    apply (Runs.lookupFunction valid stands known).bind
    intro w' callable _ valid' held
    exact Runs.pure valid' held
  | get | set => exact Runs.fault id
  | call calleeTyped isFunction argumentsTyped keyed _ accepted =>
    rw [allUses, Bool.and_eq_true, argumentUses_iff] at uses
    exact runs_evaluateCall sound calleeTyped isFunction argumentsTyped keyed accepted uses.1 uses.2
      _ valid stands
  | negation rightTyped number =>
    rw [allUses] at uses
    apply (sound.value rightTyped uses valid stands).bind
    intro w' value _ valid' held
    exact Runs.operator valid' held.1 (Value.negation_fits held.2.fits number) (.inr (.inr number))
  | complement rightTyped boolean =>
    rw [allUses] at uses
    apply (sound.value rightTyped uses valid stands).bind
    intro w' value _ valid' held
    rw [boolean] at held
    exact Runs.operator valid' held.1 (Value.complement_fits held.2.fits) (.inl rfl)
  | arithmetic leftTyped rightTyped arithmetic leftNumber rightNumber =>
    rw [allUses, Bool.and_eq_true] at uses
    have number : Ty.double.isNumber = true := by decide
    refine runs_binary sound leftTyped rightTyped uses (fun first second fits fits' => ?_)
      (.inr (.inr number)) valid stands
    obtain ⟨x, isX⟩ := fits.asNumber leftNumber
    obtain ⟨y, isY⟩ := fits'.asNumber rightNumber
    exact Value.arithmetic_fits arithmetic isX isY
  | concatenation leftTyped rightTyped text =>
    rw [allUses, Bool.and_eq_true] at uses
    refine runs_binary sound leftTyped rightTyped uses (fun first second fits _ => ?_)
      (.inr (.inl rfl)) valid stands
    obtain ⟨text, rfl⟩ := (text ▸ fits).isString
    exact Value.concatenation_fits
  | comparison leftTyped rightTyped comparison leftNumber rightNumber =>
    rw [allUses, Bool.and_eq_true] at uses
    refine runs_binary sound leftTyped rightTyped uses (fun first second fits fits' => ?_)
      (.inl rfl) valid stands
    obtain ⟨x, isX⟩ := fits.asNumber leftNumber
    obtain ⟨y, isY⟩ := fits'.asNumber rightNumber
    exact Value.comparison_fits comparison isX isY
  | equality leftTyped rightTyped equality comparable =>
    rw [allUses, Bool.and_eq_true] at uses
    exact runs_binary sound leftTyped rightTyped uses
      (fun _ _ _ _ => Value.equality_fits equality) (.inl rfl) valid stands
  | logical leftTyped rightTyped leftBoolean rightBoolean =>
    rw [allUses, Bool.and_eq_true] at uses
    apply (sound.value leftTyped uses.1 valid stands).bind
    intro w₁ left _ valid₁ first
    apply (Runs.truth valid₁ first.1 (leftBoolean ▸ first.2)).bind
    intro w₂ decided _ valid₂ stands₂
    split
    · exact Runs.pure valid₂ ⟨stands₂, Value.fits_boolean _, trivial⟩
    · apply (sound.value rightTyped uses.2 valid₂ stands₂).bind
      intro w₃ right _ valid₃ second
      apply (Runs.truth valid₃ second.1 (rightBoolean ▸ second.2)).bind
      intro w₄ result _ valid₄ stands₄
      exact Runs.pure valid₄ ⟨stands₄, Value.fits_boolean _, trivial⟩
  | assign valueTyped _ accepted =>
    rw [allUses, Bool.and_eq_true] at uses
    apply (sound.value valueTyped uses.1 valid stands).bind
    intro w₁ value _ valid₁ held
    have good := held.2.of_accepts accepted
    apply (Runs.assign valid₁ good held.1 uses.2).bind
    intro w₂ _ later valid₂ stands₂
    exact Runs.pure valid₂ ⟨stands₂, good.later later⟩
  | returns valueTyped accepted =>
    rw [allUses] at uses
    apply (sound.value valueTyped uses valid stands).bind
    intro w' value _ valid' held
    exact Runs.returned valid' fun type same => held.2.of_accepts (accepted type same)
  | block bodyTyped =>
    rw [allUses] at uses
    apply (runs_block sound bodyTyped uses valid stands).mono
    intro w' value _ _ held
    exact ⟨held.1, held.2.1⟩
  | loop conditionTyped boolean bodyTyped =>
    rw [allUses, Bool.and_eq_true] at uses
    exact runs_loop sound conditionTyped boolean uses.1 bodyTyped uses.2 rounds valid stands
  | branch conditionTyped boolean trueTyped falseTyped value =>
    simp only [allUses, Bool.and_eq_true] at uses
    obtain ⟨⟨test, first⟩, second⟩ := uses
    apply (runs_testCondition sound conditionTyped boolean test valid stands).bind
    intro w₁ chosen _ valid₁ stands₁
    cases chosen with
    | true =>
      apply (runs_block sound trueTyped first valid₁ stands₁).mono
      intro w' result _ _ held
      exact ⟨held.1, expectation_fits.branch value held.2.1.fits.sound.fits_any (.inl held.2.2),
        held.2.1.placed⟩
    | false =>
      apply (runs_block sound falseTyped second valid₁ stands₁).mono
      intro w' result _ _ held
      exact ⟨held.1, expectation_fits.branch value held.2.1.fits.sound.fits_any (.inr held.2.2),
        held.2.1.placed⟩
  | anonymous parameters bodyTyped _ =>
    rw [allUses] at uses
    have isSound : Value.Sound .builtin (.callable (.closure _ _ env)) := ⟨parameters, bodyTyped⟩
    refine Runs.pure valid ⟨stands, ⟨isSound, .inr (Ty.accepts_refl _)⟩, ?_⟩
    exact ⟨layers.map Layer.capture, by simp [Layer.capture], stands.capture, uses⟩

/-- A step of a declaration moves its layer on. -/
theorem runs_step_bind {tag : Tag} {mutability : Mutability} {name : String} {rest : Parameters}
    (rounds : Nat) (typed : Typed .builtin r (.bind tag mutability name node))
    (uses : node.allUses Layers.resolves (⟨now, (name, tag.type) :: rest, false⟩ :: outer) = true)
    (valid : w.Valid) (stands : w.Stands env (⟨now, (name, tag.type) :: rest, false⟩ :: outer)) :
    w.Runs env r
      (fun w' value => w'.Stands env (⟨now ++ [(name, tag.type)], rest, false⟩ :: outer) ∧
        w'.Good tag.type value)
      (interpreter.step rounds evaluator (.bind tag mutability name node) env) := by
  cases typed with
  | bind valueTyped _ accepted =>
    apply (sound.value valueTyped uses valid stands).bind
    intro w₁ value _ valid₁ held
    have good := held.2.of_accepts accepted
    apply (Runs.declare valid₁ good held.1).bind
    intro w₂ _ later valid₂ stands₂
    exact Runs.pure valid₂ ⟨stands₂, good.later later⟩

end Walks

theorem uses_of_reads {use : Layers → String → Ty → Bool} {name : String} {type : Ty}
    (reads : node.reads? = some (name, type)) (uses : node.allUses use layers = true) :
    use layers name type = true := by
  unfold reads? at reads
  split at reads
  · cases reads
    rwa [allUses] at uses
  · cases reads
    rw [allUses, Bool.and_eq_true, allUses] at uses
    exact uses.1
  · cases reads

/-- No variable that is watched is of another type than the layers resolve it to. -/
theorem runs_watch (uses : node.allUses Layers.resolves layers = true) (valid : w.Valid)
    (stands : w.Stands env layers) :
    w.Runs env r (fun w' _ => w'.Stands env layers) (watch node env) := by
  rw [watch]
  split
  · rename_i name type reads
    apply (Runs.lookup valid stands (uses_of_reads reads uses)).bind
    intro w' value _ valid' held
    refine Runs.check valid' ⟨(), ?_, held.1⟩
    rw [Value.expect, if_pos]
    simpa using held.2.fits.accepted
  · exact Runs.pure valid stands

theorem sound_evaluateWatched (fuel : Nat) : Sound (interpreter.evaluateWatched fuel) := by
  induction fuel with
  | zero =>
    exact ⟨fun _ _ _ _ => Triple.exhausted fun _ _ => trivial,
      fun _ _ _ _ => Triple.exhausted fun _ _ => trivial⟩
  | succ fuel ih =>
    constructor
    · intro node env layers w r typed uses valid stands
      refine Triple.located (Runs.bind (runs_watch uses valid stands)
        fun w' _ _ valid' stands' => ?_)
      exact runs_step ih fuel typed uses valid' stands'
    · intro tag mutability name node env now rest outer w r typed uses valid stands
      -- a declaration reads nothing itself
      have run : w.Runs env r _ (interpreter.step fuel (interpreter.evaluateWatched fuel)
          (.bind tag mutability name node) env) :=
        runs_step_bind ih fuel typed uses valid stands
      exact Triple.located run

/-- The nodes of a unit that stands in a valid world are evaluated without a mismatch, to values
that fit their types. -/
theorem runs_evaluateEach {unit : List Node} {evaluator : Evaluator} (sound : Sound evaluator)
    (typed : ∀ node ∈ unit, Typed .builtin none node)
    (uses : bodyUses Layers.resolves now outer unit = true) (valid : w.Valid)
    (stands : w.Stands env (⟨now, bindsOf unit, false⟩ :: outer)) :
    w.Runs env none
      (fun _ => List.Forall₂ (fun node value => value.Fits .builtin node.type) unit)
      (evaluateEach evaluator env unit) := by
  induction unit generalizing w now with
  | nil => exact Runs.pure valid .nil
  | cons node rest ih =>
    obtain ⟨head, tail⟩ := List.forall_mem_cons.mp typed
    have run := runs_statement sound head uses valid stands
    have first : w.Runs env none _ (uncaught node.line (evaluator node env)) :=
      Triple.uncaught (Triple.consequence run (fun _ same => same) (fun _ _ leads => leads)
        ⟨fun _ _ _ => id, fun _ _ held => held, fun _ held => held⟩)
    apply first.bind
    intro w₁ value _ valid₁ held
    obtain ⟨good, now', stands₁, uses₁⟩ := held
    have others : w₁.Runs env none _ (holding value.kept (evaluateEach evaluator env rest)) :=
      Triple.holding (ih tail uses₁ valid₁ stands₁)
    exact others.bind fun w₂ values _ valid₂ fits => Runs.pure valid₂ (.cons good.fits fits)

end Interpreter

end ScriptCore
