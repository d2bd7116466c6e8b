import ScriptCore.Proofs.Eval.Fits
import ScriptCore.Proofs.Node.Tidy

/-!
# Callables where they are expected

A call binds its arguments under the names of the parameters that its callee has by its static type.
For this to be the names of the parameters of what is invoked, a value of a function type has to be
a function of that very type, if it is one that binds arguments at all. What else a value is does
not matter here, so this holds also where values do not have their static types.
-/
namespace ScriptCore

/-- Declarations that give a variable of a function type, and each indexed name of a function, no
other type. -/
structure Declarations.Unambiguous (declared : Declarations) : Prop where
  vars : ∀ {name type other}, declared.vars name (.fn type) → declared.vars name other →
    other = .fn type
  functions : ∀ {name type other}, declared.functions name type →
    declared.functions name other → type = other

/-- A sound function whose parameters and variables have different names, as have those of each
scope that its body opens. -/
structure FnTy.Neat (declared : Declarations) (type : FnTy) (body : List Node) : Prop where
  sound : type.Sound declared body
  tidy : Node.Tidy body
  distinct : (Parameters.names type.parameters ++ Node.boundNames body).Nodup

namespace Callable

def Neat (declared : Declarations) : Callable → Prop
  | function header body => header.type.Neat declared body
  | closure header body _ => header.type.Neat declared body
  | native _ | constructor _ => True

/-- A callable that can be called as one of this type. Those of the host bind no arguments. -/
def Answers (type : FnTy) : Callable → Prop
  | function header _ => header.type = type
  | closure header _ _ => header.type = type
  | native _ | constructor _ => True

theorem answers_type (callable : Callable) : callable.Answers callable.type := by
  cases callable with
  | function | closure => exact rfl
  | native | constructor => exact trivial

end Callable

namespace Value

/-- A callable is neat, and can be called as one of the function type that is expected. -/
def Suits (declared : Declarations) (type : Ty) : Value → Prop
  | callable c => c.Neat declared ∧ ∀ fn, type = .fn fn → c.Answers fn
  | _ => True

variable {declared : Declarations} {value : Value} {type other : Ty}

/-- Nothing but a function type is expected of a value. -/
theorem Suits.of_fn (suits : value.Suits declared type)
    (same : ∀ fn, other = .fn fn → type = .fn fn) : value.Suits declared other := by
  cases value with
  | callable c => exact ⟨suits.1, fun fn expected => suits.2 fn (same fn expected)⟩
  | _ => exact trivial

theorem Suits.any (suits : value.Suits declared type) : value.Suits declared .any :=
  suits.of_fn nofun

theorem Suits.of_accepts (suits : value.Suits declared type)
    (accepts : other.accepts type = true) : value.Suits declared other := by
  refine suits.of_fn ?_
  rintro fn rfl
  have notAny : Ty.fn fn ≠ .any := nofun
  exact (Ty.accepts_iff_eq notAny).mp accepts

/-- Whatever is not a callable suits every type. -/
theorem suits_of_asCallable? (plain : value.asCallable? = none) : value.Suits declared type := by
  cases value with
  | callable c => cases plain
  | _ => exact trivial

end Value

namespace Store

/-- A frame whose variables suit their declared types, and whose functions can be called as ones of
the types that their names are declared with. -/
structure Frame.Suited (declared : Declarations) (frame : Frame) : Prop where
  values : ∀ name value, frame.value? name = some value →
    ∀ type, type = .any ∨ declared.vars name type → value.Suits declared type
  callables : ∀ name callable, frame.function? name = some callable →
    callable.Neat declared ∧ ∀ type, declared.functions name type → callable.Answers type

def Suited (declared : Declarations) (store : Store) : Prop :=
  ∀ location frame, store.frame? location = some frame → frame.Suited declared

/-- The scope `env` is there, and has none of these variables. -/
def Free (env : Location) (names : List String) (store : Store) : Prop :=
  ∀ name ∈ names, ∃ frame, store.frame? env = some frame ∧ frame.bindings.contains name = false

/-- A suited store whose scope `env` is there and has none of these variables yet. -/
structure Awaits (declared : Declarations) (env : Location) (names : List String)
    (store : Store) : Prop where
  suited : store.Suited declared
  free : store.Free env names

variable {declared : Declarations} {store old new : Store} {env : Location} {name : String}
  {names : List String}

theorem Frame.suited_create {enclosing : Option Location} {callSite : Option CallSite} :
    (Frame.create enclosing callSite).Suited declared where
  values := nofun
  callables := nofun

theorem Suited.add (suited : store.Suited declared) {frame : Frame}
    (new : frame.Suited declared) : (store.add frame).Suited declared :=
  forall_frame_add suited new

theorem Suited.setVariable (suited : store.Suited declared) {binding : Binding}
    (suits : ∀ type, type = .any ∨ declared.vars name type → binding.value.Suits declared type) :
    (store.setVariable env name binding).Suited declared := by
  refine forall_frame_update suited fun frame old => ⟨?_, old.callables⟩
  intro other found get
  rcases Frame.of_value?_insert get with ⟨rfl, rfl⟩ | before
  · exact suits
  · exact old.values other found before

theorem Suited.declareFunction (suited : store.Suited declared) {callable : Callable}
    (neat : callable.Neat declared)
    (answers : ∀ type, declared.functions name type → callable.Answers type) :
    (store.declareFunction env name callable).Suited declared := by
  refine forall_frame_update suited fun frame old => ⟨old.values, ?_⟩
  intro other found get
  rcases Frame.of_function?_insert get with ⟨rfl, rfl⟩ | before
  · exact ⟨neat, answers⟩
  · exact old.callables other found before

theorem Suited.expand (suited : store.Suited declared) {module : Location} :
    (store.expand env module).Suited declared := by
  rw [Store.expand]
  split
  · exact suited
  · exact forall_frame_update suited fun frame old => ⟨old.values, old.callables⟩

theorem free_nil : store.Free env [] := List.forall_mem_nil _

theorem Free.mono {more : List String} (free : store.Free env more) (subset : names ⊆ more) :
    store.Free env names :=
  fun name mem => free name (subset mem)

theorem Free.contains (free : store.Free env names) (mem : name ∈ names) :
    store.contains env name = false := by
  obtain ⟨frame, there, absent⟩ := free name mem
  rw [Store.contains, frame_of_frame? there]
  exact absent

/-- A new scope has no variables. -/
theorem free_add_next {enclosing : Option Location} {callSite : Option CallSite} :
    (store.add (.create enclosing callSite)).Free store.next names :=
  fun _ _ => ⟨_, frame?_add_next, rfl⟩

/-- A new scope awaits any variables. -/
theorem Suited.enter (suited : store.Suited declared) {enclosing : Option Location}
    {callSite : Option CallSite} :
    (store.add (.create enclosing callSite)).Awaits declared store.next names :=
  ⟨suited.add Frame.suited_create, free_add_next⟩

/-- What a scope has not been given it does not have. -/
theorem Free.of_gains {additions : List Addition} (free : old.Free env names)
    (gains : GainsOnly env additions old new)
    (apart : ∀ name ∈ names, .var name ∉ additions) : new.Free env names := by
  intro name mem
  obtain ⟨frame, there, absent⟩ := free name mem
  obtain ⟨frame', there', gained⟩ := gains frame there
  exact ⟨frame', there', (gained.bindings name (apart name mem)).trans absent⟩

end Store

namespace Declarations.Unambiguous

variable {declared : Declarations} {name : String} {type : Ty} {value : Value}

/-- A value that suits one declared type of a variable suits them all. -/
theorem suits (unambiguous : declared.Unambiguous) (known : declared.vars name type)
    (suits : value.Suits declared type) :
    ∀ other, other = .any ∨ declared.vars name other → value.Suits declared other := by
  rintro other (rfl | declares)
  · exact suits.any
  · refine suits.of_fn ?_
    rintro fn rfl
    exact unambiguous.vars declares known

end Declarations.Unambiguous

end ScriptCore
