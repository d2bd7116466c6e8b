import ScriptCore.Store.Liveness

/-!
# Looking up names

A name is looked up in the frame itself, then in the scope around it together with the
modules in use there, and at last in the modules in use here. Of a module only its own
bindings count, and a module that has been given up has none.
-/
namespace ScriptCore.Store

/-- What `own` finds in the frame of a module in use, as long as the module is live. -/
def findInModule {α : Type} (store : Store) (own : Frame → Option α) (module : Location) :
    Option α :=
  match (store.frame? module).bind own with
  | some found => if store.isLive module then some found else none
  | none => none

/-- Search outwards through at most `steps` frames: a frame's own bindings, then all that the
scope around it sees, then the modules in use in the frame. -/
def findWithin {α : Type} (store : Store) (own : Frame → Option α) :
    (steps : Nat) → Location → Option α
  | 0, _ => none
  | steps + 1, env =>
    match store.frame? env with
    | none => none
    | some frame =>
      match own frame with
      | some found => some found
      | none =>
        match frame.enclosing.bind (findWithin store own steps) with
        | some found => some found
        | none => frame.expanded.findSome? (store.findInModule own)

/-- The first binding that `own` finds, as seen from `env`. A frame's location bounds the
number of scopes around it. -/
def find {α : Type} (store : Store) (env : Location) (own : Frame → Option α) : Option α :=
  store.findWithin own (env + 1) env

def lookup (store : Store) (env : Location) (name : String) : Except Fault Value :=
  match store.find env (Frame.value? name) with
  | some value => .ok value
  | none => .error (.undefinedVariable name)

def lookupFunction (store : Store) (env : Location) (name : String) : Except Fault Callable :=
  match store.find env (Frame.function? name) with
  | some callable => .ok callable
  | none => .error (.undefinedFunction name)

end ScriptCore.Store
