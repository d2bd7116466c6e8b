import Mathlib.Data.List.Forall2
import ScriptCore.Eval.Node
import ScriptCore.Proofs.Store.Frames

/-!
# Triples for evaluation

`Triple before step after stops` says what a step of evaluation does to the heap: from a heap
that `before` holds of, it ends with a result for which `after` holds, or it stops in a way that
`stops` allows. The heap is the store apart from the scopes that evaluation holds on to, which
are put back however a step ends.

There is one rule for each step of the machine, and one for each walk over a list of nodes, with
an invariant that is indexed by the nodes that are left.
-/
namespace ScriptCore

/-- The frames and the modules, without the scopes that are held on to. -/
def Store.heap (store : Store) : Store := { store with held := [] }

theorem Store.holderWithin_heap {store : Store} {name : String} {steps : Nat} {env : Location} :
    store.heap.holderWithin name steps env = store.holderWithin name steps env :=
  holderWithin_held [] name steps

theorem Store.holder?_heap {store : Store} {env : Location} {name : String} :
    store.heap.holder? env name = store.holder? env name :=
  holderWithin_heap

theorem Store.fault_of_lookupFunction {store : Store} {env : Location} {name : String}
    {fault : Fault} (missing : store.lookupFunction env name = .error fault) :
    fault = .undefinedFunction name := by
  rw [lookupFunction] at missing
  split at missing <;> cases missing
  rfl

/-- Whatever is found belongs to some frame. -/
theorem Store.exists_of_findWithin {α : Type} {store : Store} {own : Frame → Option α}
    {steps : Nat} {env : Location} {found : α} (h : store.findWithin own steps env = some found) :
    ∃ location frame, store.frame? location = some frame ∧ own frame = some found := by
  induction steps generalizing env with
  | zero => cases h
  | succ steps ih =>
    rw [findWithin] at h
    split at h
    · cases h
    · rename_i frame there
      split at h
      · rename_i here
        exact ⟨env, frame, there, h ▸ here⟩
      · split at h
        · rename_i outside
          obtain ⟨outer, -, inner⟩ := Option.bind_eq_some_iff.mp outside
          exact ih (h ▸ inner)
        · obtain ⟨module, -, inModule⟩ := List.exists_of_findSome?_eq_some h
          rw [findInModule] at inModule
          split at inModule
          · rename_i owned
            obtain ⟨frame, there, here⟩ := Option.bind_eq_some_iff.mp owned
            split at inModule
            · exact ⟨module, frame, there, inModule ▸ here⟩
            · cases inModule
          · cases inModule

def Machine.heap (m : Machine) : Store := m.store.heap

/-- What holds of the heap when a step stops: by a return, by a fault, or out of fuel. -/
structure Stops where
  returned : Value → Store → Prop
  failed : Fault → Store → Prop
  exhausted : Store → Prop

namespace Stops

def holds (stops : Stops) : Stop → Store → Prop
  | .returned value, heap => stops.returned value heap
  | .failed e, heap => stops.failed e.fault heap
  | .exhausted, heap => stops.exhausted heap

/-- Any stop at all. -/
def any : Stops := ⟨fun _ _ => True, fun _ _ => True, fun _ => True⟩

/-- Stops that hold wherever others do. -/
structure Within (stops wider : Stops) : Prop where
  returned : ∀ value heap, stops.returned value heap → wider.returned value heap
  failed : ∀ fault heap, stops.failed fault heap → wider.failed fault heap
  exhausted : ∀ heap, stops.exhausted heap → wider.exhausted heap

theorem Within.holds {stops wider : Stops} (h : stops.Within wider) {stop : Stop} {heap : Store}
    (held : stops.holds stop heap) : wider.holds stop heap := by
  cases stop with
  | returned value => exact h.returned value heap held
  | failed e => exact h.failed e.fault heap held
  | exhausted => exact h.exhausted heap held

end Stops

theorem EvalError.fault_located (e : EvalError) (line : Line) (sites : Backtrace) :
    ((e.atLine line).withBacktrace sites).fault = e.fault := by
  rw [withBacktrace]
  split <;> rfl

namespace Eval

variable {α β : Type} {before : Store → Prop} {after : α → Store → Prop} {stops : Stops}

/-- What holds of the heap behind a step, however it ends. -/
def Ends (after : α → Store → Prop) (stops : Stops) : Except Stop α × Machine → Prop
  | (.ok a, m) => after a m.heap
  | (.error stop, m) => stops.holds stop m.heap

def Triple (before : Store → Prop) (step : Eval α) (after : α → Store → Prop) (stops : Stops) :
    Prop :=
  ∀ m : Machine, before m.heap → Ends after stops (step m)

namespace Triple

theorem of_runs {step : Eval α}
    (ok : ∀ m a m', before m.heap → step m = (.ok a, m') → after a m'.heap)
    (error : ∀ m stop m', before m.heap → step m = (.error stop, m') → stops.holds stop m'.heap) :
    Triple before step after stops := by
  intro m held
  rcases done : step m with ⟨stop | a, m'⟩
  · exact error m stop m' held done
  · exact ok m a m' held done

theorem of_ok {step : Eval α} (h : Triple before step after stops) {m : Machine} {a : α}
    (held : before m.heap) (ended : (step m).1 = .ok a) : after a (step m).2.heap := by
  have ends := h m held
  revert ends ended
  rcases step m with ⟨_ | _, m'⟩
  · nofun
  · rintro ⟨⟩
    exact id

theorem of_error {step : Eval α} (h : Triple before step after stops) {m : Machine} {stop : Stop}
    (held : before m.heap) (ended : (step m).1 = .error stop) :
    stops.holds stop (step m).2.heap := by
  have ends := h m held
  revert ends ended
  rcases step m with ⟨_ | _, m'⟩
  · rintro ⟨⟩
    exact id
  · nofun

/-- What holds of the heap at every end. -/
theorem ends {step : Eval α} {held : Store → Prop}
    (h : Triple before step (fun _ => held) ⟨fun _ => held, fun _ => held, held⟩) {m : Machine}
    (now : before m.heap) : held (step m).2.heap := by
  cases ended : (step m).1 with
  | ok a => exact h.of_ok now ended
  | error stop =>
    have stopped := h.of_error now ended
    cases stop <;> exact stopped

theorem consequence {step : Eval α} {before' : Store → Prop} {after' : α → Store → Prop}
    {stops' : Stops} (h : Triple before' step after' stops')
    (weaker : ∀ heap, before heap → before' heap)
    (result : ∀ a heap, after' a heap → after a heap) (wider : stops'.Within stops) :
    Triple before step after stops := by
  intro m held
  have ends := h m (weaker _ held)
  revert ends
  rcases step m with ⟨_ | a, m'⟩
  · exact wider.holds
  · exact result a m'.heap

theorem mono {step : Eval α} {after' : α → Store → Prop} (h : Triple before step after' stops)
    (result : ∀ a heap, after' a heap → after a heap) : Triple before step after stops :=
  h.consequence (fun _ held => held) result
    ⟨fun _ _ held => held, fun _ _ held => held, fun _ held => held⟩

theorem weaken {step : Eval α} {before' : Store → Prop} (h : Triple before' step after stops)
    (weaker : ∀ heap, before heap → before' heap) : Triple before step after stops :=
  fun m held => h m (weaker _ held)

/-- What a step does unless it stops. -/
theorem any {step : Eval α} (h : Triple before step after stops) : Triple before step after .any :=
  h.consequence (fun _ held => held) (fun _ _ held => held)
    ⟨fun _ _ _ => trivial, fun _ _ _ => trivial, fun _ _ => trivial⟩

/-- A fact that does not depend on the heap is there from the start. -/
theorem of_fact {p : Prop} {step : Eval α} (h : p → Triple before step after stops) :
    Triple (fun heap => p ∧ before heap) step after stops :=
  fun m held => h held.1 m held.2

/-- What two triples say of one step. -/
theorem and {step : Eval α} {before' : Store → Prop} {after' : α → Store → Prop} {stops' : Stops}
    (first : Triple before' step after' stops') (second : Triple before step after stops) :
    Triple (fun heap => before' heap ∧ before heap) step (fun a heap => after' a heap ∧ after a heap)
      stops := by
  intro m held
  have ends := first m held.1
  have ends' := second m held.2
  revert ends ends'
  rcases step m with ⟨_ | a, m'⟩
  · exact fun _ stopped => stopped
  · exact fun ended ended' => ⟨ended, ended'⟩

theorem of_exists {γ : Type} {step : Eval α} {before : γ → Store → Prop}
    (h : ∀ c, Triple (before c) step after stops) :
    Triple (fun heap => ∃ c, before c heap) step after stops := by
  rintro m ⟨c, held⟩
  exact h c m held

theorem pure {a : α} (h : ∀ heap, before heap → after a heap) :
    Triple before (pure a) after stops :=
  fun m held => h m.heap held

theorem bind {step : Eval β} {next : β → Eval α} {between : β → Store → Prop}
    (first : Triple before step between stops)
    (second : ∀ b, Triple (between b) (next b) after stops) :
    Triple before (step >>= next) after stops := by
  intro m held
  have ends := first m held
  rw [Attempt.bind_run]
  revert ends
  rcases step m with ⟨_ | b, m'⟩
  · exact id
  · exact second b m'

theorem returned {value : Value} (h : ∀ heap, before heap → stops.returned value heap) :
    Triple before (Attempt.fail (.returned value)) after stops :=
  fun m held => h m.heap held

theorem exhausted (h : ∀ heap, before heap → stops.exhausted heap) :
    Triple before (Attempt.fail .exhausted) after stops :=
  fun m held => h m.heap held

theorem fault {fault : Fault} (h : ∀ heap, before heap → stops.failed fault heap) :
    Triple before (Eval.fault fault) after stops :=
  fun m held => h m.heap held

section Store

/-- Asking the store may depend on what is held on to. -/
theorem ask {query : Store → Except Fault α}
    (ok : ∀ store a, before store.heap → query store = .ok a → after a store.heap)
    (error : ∀ store f, before store.heap → query store = .error f → stops.failed f store.heap) :
    Triple before (Eval.ask query) after stops := by
  intro m held
  rw [Eval.ask]
  cases asked : query m.store with
  | ok a => exact ok m.store a held asked
  | error f => exact error m.store f held asked

/-- A check of a value that does not depend on the store. -/
theorem check {result : Except Fault α}
    (ok : ∀ a heap, result = .ok a → before heap → after a heap)
    (error : ∀ f heap, result = .error f → before heap → stops.failed f heap) :
    Triple before (Eval.ask fun _ => result) after stops :=
  ask (fun store a held checked => ok a store.heap checked held)
    (fun store f held checked => error f store.heap checked held)

/-- The value of a variable is bound in some frame. -/
theorem lookup {env : Location} {name : String} {after : Value → Store → Prop}
    (ok : ∀ heap location frame value, before heap → heap.frame? location = some frame →
      frame.value? name = some value → after value heap)
    (undefined : ∀ heap, before heap → stops.failed (.undefinedVariable name) heap) :
    Triple before (Eval.lookup env name) after stops := by
  refine ask (fun store value held asked => ?_) (fun store f held asked => ?_)
  all_goals
    simp only [Store.lookup] at asked
    split at asked
    all_goals cases asked
  · rename_i found
    obtain ⟨location, frame, there, here⟩ := Store.exists_of_findWithin found
    exact ok store.heap location frame value held there here
  · exact undefined store.heap held

theorem lookupFunction {env : Location} {name : String} {after : Callable → Store → Prop}
    (ok : ∀ heap location frame callable, before heap → heap.frame? location = some frame →
      frame.function? name = some callable → after callable heap)
    (undefined : ∀ heap, before heap → stops.failed (.undefinedFunction name) heap) :
    Triple before (Eval.lookupFunction env name) after stops := by
  refine ask (fun store callable held asked => ?_) (fun store f held asked => ?_)
  all_goals
    simp only [Store.lookupFunction] at asked
    split at asked
    all_goals cases asked
  · rename_i found
    obtain ⟨location, frame, there, here⟩ := Store.exists_of_findWithin found
    exact ok store.heap location frame callable held there here
  · exact undefined store.heap held

theorem onStore {step : StoreStep α}
    (ok : ∀ store a store', before store.heap → step store = (.ok a, store') →
      after a store'.heap)
    (error : ∀ store f store', before store.heap → step store = (.error f, store') →
      stops.failed f store'.heap) :
    Triple before (Eval.onStore step) after stops := by
  intro m held
  obtain ⟨store, output, stamp⟩ := m
  rw [Eval.onStore]
  rcases done : step store with ⟨f | a, store'⟩
  · exact error store f store' held done
  · exact ok store a store' held done

theorem declare {env : Location} {name : String} {value : Value} {mutability : Mutability}
    {after : Unit → Store → Prop}
    (ok : ∀ heap, before heap → heap.contains env name = false →
      after () (heap.setVariable env name ⟨value, mutability⟩))
    (error : ∀ heap, before heap → heap.contains env name = true →
      stops.failed (.alreadyDeclared name) heap) :
    Triple before (Eval.declare env name value mutability) after stops := by
  refine onStore (fun store _ store' held done => ?_) (fun store f store' held done => ?_)
  all_goals
    simp only [Store.declare] at done
    split at done
    all_goals cases done
  · rename_i fresh
    exact ok store.heap held (Bool.not_eq_true _ ▸ fresh)
  · rename_i taken
    exact error store.heap held taken

theorem declareFunction {env : Location} {name : String} {callable : Callable}
    {after : Unit → Store → Prop}
    (ok : ∀ heap, before heap → after () (heap.declareFunction env name callable)) :
    Triple before (Eval.declareFunction env name callable) after stops := by
  refine onStore (fun store _ store' held done => ?_) (fun store f store' held done => ?_)
  all_goals cases done
  exact ok store.heap held

theorem expand {env module : Location} {after : Unit → Store → Prop}
    (ok : ∀ heap, before heap → after () (heap.expand env module)) :
    Triple before (Eval.expand env module) after stops := by
  refine onStore (fun store _ store' held done => ?_) (fun store f store' held done => ?_)
  all_goals cases done
  have same : (store.expand env module).heap = store.heap.expand env module := by
    simp only [Store.expand]
    split <;> rename_i h
    · exact (if_pos h).symm
    · exact (if_neg h).symm
  exact same ▸ ok store.heap held

end Store

theorem holding {kept : List Location} {step : Eval α} (h : Triple before step after stops) :
    Triple before (Eval.holding kept step) after stops := by
  intro m held
  obtain ⟨⟨frames, modules, holds⟩, output, stamp⟩ := m
  have ends := h ⟨⟨frames, modules, kept ++ holds⟩, output, stamp⟩ held
  rw [Eval.holding]
  revert ends
  rcases step ⟨⟨frames, modules, kept ++ holds⟩, output, stamp⟩ with
    ⟨_ | a, ⟨⟨frames', modules', _⟩, output', stamp'⟩⟩ <;> exact id

theorem assign {env : Location} {name : String} {value : Value} {after : Unit → Store → Prop}
    (ok : ∀ heap holder old, before heap → heap.holder? env name = some (holder, ⟨old, .mutable⟩) →
      after () (heap.setVariable holder name ⟨value, .mutable⟩))
    (immutable : ∀ heap holder old, before heap →
      heap.holder? env name = some (holder, ⟨old, .immutable⟩) →
      stops.failed (.reassignedImmutable name) heap)
    (undefined : ∀ heap, before heap → heap.holder? env name = none →
      stops.failed (.undefinedVariable name) heap) :
    Triple before (Eval.assign env name value) after stops := by
  refine onStore (fun store _ store' held done => ?_) (fun store f store' held done => ?_)
  all_goals
    simp only [Store.assign] at done
    split at done
    all_goals cases done
  · rename_i holder old found
    exact ok store.heap holder old held (Store.holder?_heap.trans found)
  · rename_i holder old found
    exact immutable store.heap holder old held (Store.holder?_heap.trans found)
  · rename_i found
    exact undefined store.heap held (Store.holder?_heap.trans found)

theorem openModule {env : Location} {name : String} {after : Location → Store → Prop}
    (known : ∀ heap module, before heap → heap.modules.get? name = some module →
      after module heap)
    (new : ∀ heap, before heap → (heap.frame env).isGlobal = true →
      heap.modules.get? name = none →
      after heap.next { heap.add (.create (some env) none) with
        modules := heap.modules.insert name heap.next })
    (inner : ∀ heap, before heap → stops.failed (.moduleOutsideGlobal name) heap) :
    Triple before (Eval.openModule name env) after stops := by
  refine onStore (fun store _ store' held done => ?_) (fun store f store' held done => ?_)
  all_goals
    simp only [Store.openModule] at done
    split at done
    · rename_i isGlobal
      split at done
      all_goals cases done
      all_goals rename_i found
      all_goals first
        | exact known store.heap _ held found
        | exact new store.heap held isGlobal found
    · cases done
      try exact inner store.heap held

theorem openedModule {name : String} {after : Location → Store → Prop}
    (ok : ∀ heap module, before heap → heap.modules.get? name = some module → after module heap)
    (undefined : ∀ heap, before heap → stops.failed (.undefinedModule name) heap) :
    Triple before (Eval.openedModule name) after stops := by
  refine ask (fun store module held asked => ?_) (fun store f held asked => ?_)
  all_goals
    simp only [Store.openedModule] at asked
    split at asked
    all_goals cases asked
  · rename_i found
    exact ok store.heap module held found
  · exact undefined store.heap held

/-- Work in a new scope starts on a heap that has one frame more. -/
theorem inScope {env : Location} {site : CallSite} {work : Location → Eval α}
    (h : ∀ heap, before heap →
      Triple (· = heap.add (.create (some env) (some site))) (work heap.next) after stops) :
    Triple before (Eval.inScope env site work) after stops := by
  intro m held
  exact (h m.heap held).holding ⟨m.store.add (.create (some env) (some site)), m.output,
    m.nextStamp⟩ rfl

theorem newGlobal {after : Location → Store → Prop}
    (h : ∀ heap, before heap → after heap.next (heap.add (.create none none))) :
    Triple before Eval.newGlobal after stops :=
  fun m held => h m.heap held

theorem printLine {text : String} {after : Unit → Store → Prop}
    (h : ∀ heap, before heap → after () heap) : Triple before (Eval.printLine text) after stops :=
  fun m held => h m.heap held

theorem freshStamp {after : Nat → Store → Prop}
    (h : ∀ stamp heap, before heap → after stamp heap) :
    Triple before Eval.freshStamp after stops :=
  fun m held => h m.nextStamp m.heap held

section Errors

variable {step : Eval α} {line : Line}

/-- The place that is attached to an error does not count. -/
theorem located {env : Location} (h : Triple before step after stops) :
    Triple before (Eval.located line env step) after stops := by
  intro m held
  have ends := h m held
  rw [Eval.located]
  revert ends
  rcases step m with ⟨(value | e | _) | a, m'⟩ <;> intro ends
  case error.failed =>
    change stops.failed ((e.atLine line).withBacktrace _).fault m'.heap
    rwa [EvalError.fault_located]
  all_goals exact ends

theorem onLine (h : Triple before step after stops) :
    Triple before (Eval.onLine line step) after stops := by
  intro m held
  have ends := h m held
  rw [Eval.onLine]
  revert ends
  rcases step m with ⟨(value | e | _) | a, m'⟩ <;> exact id

/-- A return that nothing catches is a fault of its own. -/
theorem uncaught {outside : Stops}
    (h : Triple before step after
      ⟨fun _ => outside.failed .uncaughtReturn, outside.failed, outside.exhausted⟩) :
    Triple before (Eval.uncaught line step) after outside := by
  intro m held
  have ends := h m held
  rw [Eval.uncaught]
  revert ends
  rcases step m with ⟨(value | e | _) | a, m'⟩ <;> exact id

/-- What a body returns is the result of the invocation, and there is no other result. -/
theorem catchReturn {function : String} {scope : Location} {body : Eval Unit}
    {after : Value → Store → Prop} {outside : Stops}
    (h : Triple before body (fun _ => outside.failed (.missingReturn function))
      ⟨after, outside.failed, outside.exhausted⟩) :
    Triple before (Eval.catchReturn function line scope body) after outside := by
  intro m held
  have ends := h m held
  rw [Eval.catchReturn]
  revert ends
  rcases body m with ⟨(value | e | _) | a, m'⟩ <;> intro ends
  case ok =>
    change outside.failed (((EvalError.ofFault _).atLine line).withBacktrace _).fault m'.heap
    rwa [EvalError.fault_located]
  all_goals exact ends

end Errors

-- The rules above say all about single steps. From here on no proof runs a step.
attribute [irreducible] Ends

section Walks

variable {evaluator : Evaluator} {env : Location}

/-- A body, with an invariant for the nodes that are left and the last value. -/
theorem sequence (invariant : List Node → Value → Store → Prop) {body : List Node}
    (step : ∀ node rest last, node :: rest <:+ body →
      Triple (invariant (node :: rest) last) (evaluator node env) (invariant rest) stops)
    (last : Value) :
    Triple (invariant body last) (Eval.sequence evaluator env last body) (invariant []) stops := by
  induction body generalizing last with
  | nil => exact pure fun _ held => held
  | cons node rest ih =>
    refine (holding (step node rest last (List.suffix_refl _))).bind fun value => ?_
    exact ih (fun node' rest' last' there =>
      step node' rest' last' (there.trans (List.suffix_cons node rest))) value

theorem runBody (invariant : List Node → Store → Prop) {body : List Node}
    (step : ∀ node rest, node :: rest <:+ body →
      Triple (invariant (node :: rest)) (evaluator node env) (fun _ => invariant rest) stops) :
    Triple (invariant body) (Eval.runBody evaluator env body) (fun _ => invariant []) stops := by
  induction body with
  | nil => exact pure fun _ held => held
  | cons node rest ih =>
    refine (step node rest (List.suffix_refl _)).bind fun _ => ?_
    exact ih fun node' rest' there => step node' rest' (there.trans (List.suffix_cons node rest))

/-- Arguments, with an invariant for those that are left and a relation between each node and
its value. -/
theorem evaluateArguments (invariant : List (String × Node) → Store → Prop)
    (fits : Node → Value → Prop) {arguments : List (String × Node)}
    (step : ∀ name node rest, (name, node) :: rest <:+ arguments →
      Triple (invariant ((name, node) :: rest)) (evaluator node env)
        (fun value heap => fits node value ∧ invariant rest heap) stops) :
    Triple (invariant arguments) (Eval.evaluateArguments evaluator env arguments)
      (fun values heap =>
        List.Forall₂ (fun argument value => argument.1 = value.1 ∧ fits argument.2 value.2)
          arguments values ∧ invariant [] heap) stops := by
  induction arguments with
  | nil => exact pure fun _ held => ⟨.nil, held⟩
  | cons argument rest ih =>
    obtain ⟨name, node⟩ := argument
    refine (step name node rest (List.suffix_refl _)).bind fun value => of_fact fun fitting => ?_
    have others := ih fun name' node' rest' there =>
      step name' node' rest' (there.trans (List.suffix_cons _ rest))
    refine others.holding.bind fun values => ?_
    exact pure fun _ held => ⟨.cons ⟨rfl, fitting⟩ held.1, held.2⟩

theorem testCondition {condition : Node} {between : Value → Store → Prop}
    {after : Bool → Store → Prop} (value : Triple before (evaluator condition env) between stops)
    (truth : ∀ value heap, between value heap →
      (∀ b, value.truth = .ok b → after b heap) ∧
        ∀ f, value.truth = .error f → stops.failed f heap) :
    Triple before (Eval.testCondition evaluator condition env) after stops := by
  refine value.bind fun value => onLine (check ?_ ?_)
  · exact fun b heap tested held => (truth value heap held).1 b tested
  · exact fun f heap tested held => (truth value heap held).2 f tested

/-- A loop, with an invariant of its rounds. -/
theorem runLoop {line : Line} {condition : Node} {body : List Node}
    (invariant between : Store → Prop) {after : Value → Store → Prop} (rounds : Nat)
    (test : Triple invariant (Eval.testCondition evaluator condition env)
      (fun chosen heap => if chosen then between heap else after .unit heap) stops)
    (round : ∀ heap, between heap →
      Triple (· = heap.add (.create (some env) (some ⟨"while", line⟩)))
        (Eval.sequence evaluator heap.next .unit body) (fun _ => invariant) stops)
    (exhausted : ∀ heap, invariant heap → stops.exhausted heap) :
    Triple invariant (Eval.runLoop evaluator line condition body env rounds) after stops := by
  induction rounds with
  | zero => exact Triple.exhausted exhausted
  | succ rounds ih =>
    refine test.bind fun chosen => ?_
    cases chosen with
    | true => exact (inScope round).bind fun _ => ih
    | false => exact pure fun _ held => held

end Walks

/-- Arguments are bound in order, with an invariant for those that are left. -/
theorem bindArguments {scope : Location} (invariant : Arguments → Store → Prop)
    {arguments : Arguments}
    (step : ∀ name value rest, (name, value) :: rest <:+ arguments →
      Triple (invariant ((name, value) :: rest)) (Eval.declare scope name value .immutable)
        (fun _ => invariant rest) stops) :
    Triple (invariant arguments) (Eval.bindArguments scope arguments) (fun _ => invariant [])
      stops := by
  induction arguments with
  | nil => exact pure fun _ held => held
  | cons argument rest ih =>
    obtain ⟨name, value⟩ := argument
    refine (step name value rest (List.suffix_refl _)).bind fun _ => ?_
    exact ih fun name' value' rest' there =>
      step name' value' rest' (there.trans (List.suffix_cons _ rest))

/-- A unit, with an invariant for its target and the nodes that are left, and a relation between
each node and its value. -/
theorem evaluateFrom {interpreter : Interpreter} {fuel : Nat}
    (invariant : Location → List Node → Store → Prop) (fits : Node → Value → Prop)
    {unit : List Node}
    (step : ∀ target node rest, node :: rest <:+ unit → (∀ tag name, node ≠ .openModule tag name) →
      Triple (invariant target (node :: rest))
        (Eval.uncaught node.line (interpreter.evaluate fuel node target))
        (fun value heap => fits node value ∧ invariant target rest heap) stops)
    (module : ∀ target tag name rest, .openModule tag name :: rest <:+ unit →
      Triple (invariant target (.openModule tag name :: rest))
        (Eval.openModule name interpreter.global)
        (fun module heap => fits (.openModule tag name) .unit ∧ invariant module rest heap) stops)
    (target : Location) :
    Triple (invariant target unit) (interpreter.evaluateFrom fuel target unit)
      (fun values heap => List.Forall₂ fits unit values ∧ ∃ last, invariant last [] heap) stops := by
  induction unit generalizing target with
  | nil => exact pure fun _ held => ⟨.nil, target, held⟩
  | cons node rest ih =>
    have others := ih
      (fun target' node' rest' there => step target' node' rest'
        (there.trans (List.suffix_cons node rest)))
      (fun target' tag name rest' there => module target' tag name rest'
        (there.trans (List.suffix_cons node rest)))
    by_cases opens : ∃ tag name, node = .openModule tag name
    · obtain ⟨tag, name, rfl⟩ := opens
      rw [Interpreter.evaluateFrom]
      refine (onLine (module target tag name rest (List.suffix_refl _))).bind fun location => ?_
      refine of_fact fun fitting => (others location).bind fun values => ?_
      exact pure fun _ held => ⟨.cons fitting held.1, held.2⟩
    · have other : ∀ tag name, node ≠ .openModule tag name :=
        fun tag name same => opens ⟨tag, name, same⟩
      rw [Interpreter.evaluateFrom]
      · refine (step target node rest (List.suffix_refl _) other).bind fun value => ?_
        refine of_fact fun fitting => (others target).holding.bind fun values => ?_
        exact pure fun _ held => ⟨.cons fitting held.1, held.2⟩
      · exact other

end Triple

end Eval

end ScriptCore
