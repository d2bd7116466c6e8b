import ScriptCore.Attempt
import ScriptCore.Fault
import ScriptCore.Text.Quoted
import ScriptCore.Value

/-!
# The store

The scopes of a running program form a tree. Each is a frame of the store with variables and
functions of its own, a link to the scope around it and the modules it has taken into use.
A frame is always younger than the one around it, so links outwards end at a global frame.

The store also knows the scope of each opened module, and the scopes that the host and the
evaluation under way hold on to. Names are looked up in `ScriptCore.Store.Lookup`; an
assignment follows the links outwards alone.
-/
namespace ScriptCore

structure Binding where
  value : Value
  mutability : Mutability

namespace Store

structure Frame where
  bindings : Table Binding
  /-- Callables by their indexed names. -/
  functions : Table Callable
  /-- The modules in use, in the order in which they were taken into use. -/
  expanded : List Location
  enclosing : Option Location
  callSite : Option CallSite

namespace Frame

def create (enclosing : Option Location) (callSite : Option CallSite) : Frame :=
  ⟨.empty, .empty, [], enclosing, callSite⟩

/-- A frame with no scope around it. -/
def isGlobal (frame : Frame) : Bool := frame.enclosing.isNone

def value? (name : String) (frame : Frame) : Option Value :=
  (frame.bindings.get? name).map (·.value)

def function? (name : String) (frame : Frame) : Option Callable := frame.functions.get? name

end Frame

end Store

structure Store where
  frames : Array Store.Frame
  /-- The scope of each module that has been opened. -/
  modules : Table Location
  /-- The scopes that are held on to from outside the store. -/
  held : List Location

/-- A step that may change the store or be refused. A refused step changes nothing. -/
abbrev StoreStep (α : Type) := Attempt Store Fault α

namespace Store

def empty : Store := ⟨#[], .empty, []⟩

def frame? (store : Store) (env : Location) : Option Frame := store.frames[env]?

/-- The frame at `env`; a location outside the store stands for an empty global frame. -/
def frame (store : Store) (env : Location) : Frame := (store.frame? env).getD (.create none none)

/-- Where the next frame goes. -/
def next (store : Store) : Location := store.frames.size

def add (store : Store) (frame : Frame) : Store :=
  { store with frames := store.frames.push frame }

def update (store : Store) (env : Location) (change : Frame → Frame) : Store :=
  { store with frames := store.frames.modify env change }

/-- The scopes from `env` outwards, at most `steps` of them. -/
def chainWithin (store : Store) : (steps : Nat) → Location → List Location
  | 0, _ => []
  | steps + 1, env =>
    env :: match (store.frame env).enclosing with
      | none => []
      | some outer => chainWithin store steps outer

/-- The scopes from `env` outwards, itself first. -/
def chain (store : Store) (env : Location) : List Location := store.chainWithin (env + 1) env

/-- The scope `distance` links outwards. -/
def ancestor (store : Store) (env : Location) (distance : Nat) : Option Location :=
  (store.chain env)[distance]?

/-- The number of scopes around `env`. -/
def depth (store : Store) (env : Location) : Nat := (store.chain env).length - 1

/-- The call sites from `env` outwards. -/
def backtrace (store : Store) (env : Location) : Backtrace :=
  (store.chain env).filterMap fun location => (store.frame location).callSite

/-- Whether `env` itself has a variable of this name. -/
def contains (store : Store) (env : Location) (name : String) : Bool :=
  (store.frame env).bindings.contains name

/-- Put a binding into a frame, in place of one of the same name. -/
def setVariable (store : Store) (env : Location) (name : String) (binding : Binding) : Store :=
  store.update env fun frame =>
    { frame with bindings := frame.bindings.insert name binding }

/-- Declare a variable. One of an outer scope may be hidden, one of the same scope may not be
declared again. -/
def declare (env : Location) (name : String) (value : Value) (mutability : Mutability) :
    StoreStep Unit := fun store =>
  if store.contains env name then (.error (.alreadyDeclared name), store)
  else (.ok (), store.setVariable env name ⟨value, mutability⟩)

/-- Put a callable under its indexed name, in place of one that is there already. -/
def declareFunction (store : Store) (env : Location) (name : String) (callable : Callable) :
    Store :=
  store.update env fun frame =>
    { frame with functions := frame.functions.insert name callable }

/-- The nearest variable of this name among at most `steps` scopes outwards, with the scope
that it belongs to. -/
def holderWithin (store : Store) (name : String) :
    (steps : Nat) → Location → Option (Location × Binding)
  | 0, _ => none
  | steps + 1, env =>
    match (store.frame env).bindings.get? name with
    | some binding => some (env, binding)
    | none =>
      match (store.frame env).enclosing with
      | some outer => holderWithin store name steps outer
      | none => none

/-- The nearest variable of this name on the way outwards. -/
def holder? (store : Store) (env : Location) (name : String) : Option (Location × Binding) :=
  store.holderWithin name (env + 1) env

/-- Assign to the nearest variable of this name on the way outwards. -/
def assign (env : Location) (name : String) (value : Value) : StoreStep Unit := fun store =>
  match store.holder? env name with
  | some (holder, ⟨_, .mutable⟩) => (.ok (), store.setVariable holder name ⟨value, .mutable⟩)
  | some (_, ⟨_, .immutable⟩) => (.error (.reassignedImmutable name), store)
  | none => (.error (.undefinedVariable name), store)

/-- Take a module into use. A scope does not use itself, nor the same module twice. -/
def expand (store : Store) (env module : Location) : Store :=
  if env = module || (store.frame env).expanded.contains module then store
  else store.update env fun frame => { frame with expanded := frame.expanded ++ [module] }

/-- Open a module in a global scope, or open it again. -/
def openModule (name : String) (env : Location) : StoreStep Location := fun store =>
  if (store.frame env).isGlobal then
    match store.modules.get? name with
    | some module => (.ok module, store)
    | none =>
      let module := store.next
      let store := store.add (.create (some env) none)
      (.ok module, { store with modules := store.modules.insert name module })
  else (.error (.moduleOutsideGlobal name), store)

/-- The scope of a module that has been opened. -/
def openedModule (store : Store) (name : String) : Except Fault Location :=
  match store.modules.get? name with
  | some module => .ok module
  | none => .error (.undefinedModule name)

/-- Quoted names between brackets, in the order of their code points. -/
def inspectNames (names : List String) : String :=
  "[" ++ ", ".intercalate ((names.mergeSort fun a b => a ≤ b).map Text.quote) ++ "]"

/-- The own names of a scope and the number of modules it was told to use. -/
def inspect (store : Store) (env : Location) : String :=
  let frame := store.frame env
  "Environment \x7b depth: " ++ toString (store.depth env) ++
    ", variables: " ++ inspectNames frame.bindings.names ++
    ", functions: " ++ inspectNames frame.functions.names ++
    ", expanded: " ++ toString frame.expanded.length ++ " \x7d"

end Store

end ScriptCore
