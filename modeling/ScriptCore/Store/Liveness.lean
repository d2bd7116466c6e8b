import ScriptCore.Store.Basic

/-!
# Live scopes

A link to a module in use does not keep the module. A scope is kept by a hold from outside,
by the module table, by the scopes inside it, and by the closures that were created in it, as
long as those are themselves bound in a scope that is kept. A scope that nothing keeps is
given up, and with it goes what it kept. Scopes that keep one another are never given up.

`isLive` tells the scopes that are kept from those that have been given up. It counts the
keepers of every scope, then gives up scopes without keepers until none is left.
-/
namespace ScriptCore

/-- The scope that a callable keeps. -/
def Callable.kept : Callable → List Location
  | closure _ _ scope => [scope]
  | _ => []

/-- What a class keeps, it keeps by its constructors and by its functions. -/
def ClassObject.kept (object : ClassObject) : List Location :=
  object.constructors.flatMap Callable.kept ++
    object.functions.entries.flatMap fun entry => entry.2.flatMap Callable.kept

/-- The scopes that a value keeps. -/
def Value.kept : Value → List Location
  | callable c => c.kept
  | cls c => c.kept
  | _ => []

/-- The scopes that arguments keep. -/
def Arguments.kept (arguments : Arguments) : List Location :=
  arguments.flatMap fun argument => argument.2.kept

namespace Store

/-- The scopes that a frame keeps. -/
def Frame.kept (frame : Frame) : List Location :=
  frame.enclosing.toList ++
    frame.bindings.entries.flatMap (fun entry => entry.2.value.kept) ++
    frame.functions.entries.flatMap fun entry => entry.2.kept

/-- How often each scope is kept; there is no count for a scope that has been given up. -/
abbrev Keepers := Array (Option Nat)

namespace Keepers

def adjust (change : Nat → Nat) (kept : List Location) (keepers : Keepers) : Keepers :=
  kept.foldl (fun keepers env => keepers.modify env (·.map change)) keepers

/-- Count one more keeper for each of these scopes. -/
def add : (kept : List Location) → Keepers → Keepers := adjust (· + 1)

/-- Count one keeper less for each of these scopes. -/
def drop : (kept : List Location) → Keepers → Keepers := adjust (· - 1)

end Keepers

/-- The scopes that are kept from outside the frames. -/
def roots (store : Store) : List Location := store.modules.entries.map Prod.snd ++ store.held

/-- How often each scope is kept by the roots and by every frame. -/
def keepers (store : Store) : Keepers :=
  store.frames.foldl (fun keepers frame => keepers.add frame.kept)
    (Keepers.add store.roots (Array.replicate store.frames.size (some 0)))

/-- Give up the scope at `env`, and what it kept, if nothing keeps it. -/
def giveUp (store : Store) (env : Location) (keepers : Keepers) : Keepers :=
  match keepers[env]? with
  | some (some 0) => Keepers.drop (store.frame env).kept (keepers.modify env fun _ => none)
  | _ => keepers

/-- Give up scopes from the youngest to the oldest. A scope is older than those inside it, so
a whole branch of scopes goes at once. -/
def sweep (store : Store) (keepers : Keepers) : Keepers :=
  (List.range store.frames.size).foldr store.giveUp keepers

/-- Sweep while a scope without keepers is left, at most `rounds` times. -/
def settleWithin (store : Store) : (rounds : Nat) → Keepers → Keepers
  | 0, keepers => keepers
  | rounds + 1, keepers =>
    if keepers.contains (some 0) then settleWithin store rounds (store.sweep keepers)
    else keepers

/-- The keepers that are left once nothing more can be given up. Every sweep gives up a scope,
so there are no more sweeps than scopes. -/
def settle (store : Store) : Keepers := store.settleWithin store.frames.size store.keepers

/-- Whether the scope at `env` is kept. For a root this needs no counting. -/
def isLive (store : Store) (env : Location) : Bool :=
  store.roots.contains env || (store.settle[env]?.join).isSome

theorem isLive_of_mem_roots {store : Store} {env : Location} (h : env ∈ store.roots) :
    store.isLive env = true := by
  simp [isLive, h]

end Store

end ScriptCore
