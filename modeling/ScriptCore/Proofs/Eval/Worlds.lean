import ScriptCore.Proofs.Eval.Fits
import ScriptCore.Proofs.Eval.Triple
import ScriptCore.Proofs.Node.Layers
import ScriptCore.Proofs.Scope.Admitted
import ScriptCore.Proofs.Store.Evolution

/-!
# Worlds

A heap does not show which variables its scopes are still going to have. A world is a heap with a
plan of each scope: all variables that the body of the scope declares. In a valid world every
variable has the type of its plan. A scope stands inside layers if it and the scopes around it have
what the layers say, and are planned to have the rest.

Worlds evolve with their heaps. Where a closure has been created all scopes may gain variables, but
only planned ones, so that it stands inside the same layers in every later world.
-/
namespace ScriptCore

namespace Store

variable {store old new : Store} {name : String} {env location : Location}

/-- Without modules in use, a variable is looked up where an assignment would reach it. -/
theorem findWithin_value?
    (plain : ∀ location frame, store.frame? location = some frame → frame.expanded = [])
    {steps : Nat} :
    store.findWithin (Frame.value? name) steps env =
      (store.holderWithin name steps env).map fun held => held.2.value := by
  induction steps generalizing env with
  | zero => rfl
  | succ steps ih =>
    rw [findWithin, holderWithin]
    cases there : store.frame? env with
    | none => simp [Store.frame, there, Frame.create, Table.get?_empty]
    | some frame =>
      rw [frame_of_frame? there]
      cases own : frame.bindings.get? name with
      | some binding => simp [Frame.value?, own]
      | none =>
        have bare := plain env frame there
        cases around : frame.enclosing with
        | none => simp [Frame.value?, own, around, bare]
        | some outer =>
          simp only [Frame.value?, own, around, bare, ih, Option.map_none, Option.bind_some,
            List.findSome?_nil]
          cases store.holderWithin name steps outer <;> rfl

theorem Evolves.lt_next (evolves : Evolves env old new) (inside : location < old.next) :
    location < new.next := by
  obtain ⟨frame, there⟩ := exists_of_lt_next inside
  obtain ⟨frame', there', -⟩ := evolves location frame there
  exact lt_next_of_frame? there'

end Store

structure World where
  /-- The variables that each scope has or is going to have, in order. -/
  plan : Location → Parameters
  heap : Store

/-- Whether a frame has what a layer says, with a plan for the rest. A captured scope may have
variables already that are declared later. -/
structure Layer.Shows (layer : Layer) (plan : Parameters) (frame : Store.Frame) : Prop where
  planned : plan = layer.now ++ layer.later
  distinct : (Parameters.names layer.now).Nodup
  bound : ∀ name ∈ Parameters.names layer.now, frame.bindings.contains name = true
  only : layer.captured = false →
    ∀ name, frame.bindings.contains name = true → name ∈ Parameters.names layer.now

namespace Layer.Shows

variable {layer : Layer} {outer : Layers} {plan : Parameters} {frame new : Store.Frame}
  {name : String} {type known : Ty}

theorem capture (shows : layer.Shows plan frame) : layer.capture.Shows plan frame :=
  ⟨shows.planned, shows.distinct, shows.bound, nofun⟩

theorem of_grows (shows : layer.Shows plan frame) (grows : frame.Grows new)
    (same : layer.captured = true ∨ frame.KeepsNames new) : layer.Shows plan new where
  planned := shows.planned
  distinct := shows.distinct
  bound := by
    intro name mem
    obtain ⟨binding, own⟩ := Option.isSome_iff_exists.mp (shows.bound name mem)
    obtain ⟨value, own', -⟩ := grows.bindings name binding own
    rw [Table.contains, own']
    rfl
  only := by
    intro live name bound
    rcases same with captured | names
    · rw [live] at captured
      cases captured
    · rw [names.bindings] at bound
      exact shows.only live name bound

/-- What a frame has of a name is what the layer has declared, or it is captured and has what the
layer declares later. -/
theorem type_of_bound (shows : layer.Shows plan frame)
    (finds : Layers.finds (layer :: outer) name type = true)
    (bound : frame.bindings.contains name = true)
    (planned : Parameters.get? plan name = some known) : known = type := by
  rw [shows.planned, Parameters.get?_append] at planned
  rw [Layers.finds] at finds
  cases now : Parameters.get? layer.now name with
  | some declared =>
    simp only [now, decide_eq_true_eq] at finds
    rw [now, Option.some_or, Option.some.injEq] at planned
    rw [← planned, finds]
  | none =>
    simp only [now, Bool.and_eq_true] at finds
    have passes := finds.1
    cases captured : layer.captured with
    | false => exact absurd (shows.only captured name bound) (Parameters.get?_eq_none.mp now)
    | true =>
      rw [now, Option.none_or] at planned
      rw [Layer.passes, captured, planned] at passes
      simpa using passes

theorem finds_of_free (shows : layer.Shows plan frame)
    (finds : Layers.finds (layer :: outer) name type = true)
    (free : frame.bindings.get? name = none) : Layers.finds outer name type = true := by
  have absent : name ∉ Parameters.names layer.now := by
    intro mem
    have bound := shows.bound name mem
    rw [Table.contains, free] at bound
    cases bound
  simp only [Layers.finds, Parameters.get?_eq_none.mpr absent, Bool.and_eq_true] at finds
  exact finds.2

theorem declare {now rest : Parameters} {binding : Binding}
    (shows : Layer.Shows ⟨now, (name, type) :: rest, false⟩ plan frame)
    (free : frame.bindings.contains name = false) :
    Parameters.get? plan name = some type ∧
      Layer.Shows ⟨now ++ [(name, type)], rest, false⟩ plan
        { frame with bindings := frame.bindings.insert name binding } := by
  have absent : name ∉ Parameters.names now := by
    intro mem
    have bound := shows.bound name mem
    rw [free] at bound
    cases bound
  refine ⟨?_, ?_, ?_, ?_, ?_⟩
  · rw [shows.planned, Parameters.get?_append, Parameters.get?_eq_none.mpr absent]
    simp [Parameters.get?]
  · simpa using shows.planned
  · rw [Parameters.names, List.map_append]
    refine List.nodup_append.mpr ⟨shows.distinct, by simp, ?_⟩
    rintro other mem _ last rfl
    rw [List.mem_singleton.mp last] at mem
    exact absent mem
  · intro other mem
    rw [Parameters.names, List.map_append, List.mem_append] at mem
    rw [Table.contains, Table.get?_insert]
    split
    · rfl
    · rename_i different
      rcases mem with before | last
      · exact shows.bound other before
      · exact absurd (List.mem_singleton.mp last).symm different
  · intro _ other bound
    rw [Table.contains, Table.get?_insert] at bound
    rw [Parameters.names, List.map_append, List.mem_append]
    split at bound
    · rename_i same
      exact .inr (List.mem_singleton.mpr same.symm)
    · exact .inl (shows.only rfl other bound)

end Layer.Shows

namespace World

/-- What a world may have become after evaluation in `env`. -/
structure Later (w : World) (env : Location) (w' : World) : Prop where
  plan : ∀ location < w.heap.next, w'.plan location = w.plan location
  heap : Store.Evolves env w.heap w'.heap

/-- A scope, and those around it, that the layers show. -/
inductive Stands (w : World) : Location → Layers → Prop
  | root {env : Location} {frame : Store.Frame} {layer : Layer}
      (there : w.heap.frame? env = some frame) (enclosing : frame.enclosing = none)
      (shows : layer.Shows (w.plan env) frame) : Stands w env [layer]
  | inner {env outside : Location} {frame : Store.Frame} {layer : Layer} {outer : Layers}
      (there : w.heap.frame? env = some frame) (enclosing : frame.enclosing = some outside)
      (younger : outside < env) (shows : layer.Shows (w.plan env) frame)
      (around : Stands w outside outer) : Stands w env (layer :: outer)

variable {w w' w'' : World} {env other location : Location} {layer : Layer}
  {layers outer : Layers} {name : String} {type : Ty} {value : Value} {binding : Binding}

theorem Later.refl : w.Later env w := ⟨fun _ _ => rfl, .refl⟩

theorem Later.trans (first : w.Later env w') (second : w'.Later env w'') : w.Later env w'' where
  plan := by
    intro location inside
    rw [second.plan location (first.heap.lt_next inside), first.plan location inside]
  heap := first.heap.trans second.heap

theorem Stands.lt_next (stands : w.Stands env layers) : env < w.heap.next := by
  cases stands with
  | root there | inner there => exact Store.lt_next_of_frame? there

/-- A scope that is not the one where something happens, or that is captured, shows what it has
shown. -/
theorem shows_of_later (later : w.Later other w') {frame : Store.Frame}
    (there : w.heap.frame? env = some frame) (shows : layer.Shows (w.plan env) frame)
    (outside : env ≠ other ∨ layer.captured = true) :
    ∃ frame', w'.heap.frame? env = some frame' ∧ frame'.enclosing = frame.enclosing ∧
      layer.Shows (w'.plan env) frame' := by
  obtain ⟨frame', there', grows, names⟩ := later.heap env frame there
  rw [later.plan env (Store.lt_next_of_frame? there)]
  exact ⟨frame', there', grows.enclosing, shows.of_grows grows (outside.symm.imp id names)⟩

theorem Stands.later (stands : w.Stands env layers) (later : w.Later other w')
    (outside : env < other ∨ ∀ layer ∈ layers, layer.captured = true) :
    w'.Stands env layers := by
  induction stands with
  | root there enclosing shows =>
    obtain ⟨frame', there', same, shows'⟩ := shows_of_later later there shows
      (outside.imp Nat.ne_of_lt fun captured => captured _ List.mem_cons_self)
    exact .root there' (same.trans enclosing) shows'
  | inner there enclosing younger shows _ ih =>
    obtain ⟨frame', there', same, shows'⟩ := shows_of_later later there shows
      (outside.imp Nat.ne_of_lt fun captured => captured _ List.mem_cons_self)
    refine .inner there' (same.trans enclosing) younger shows' (ih ?_)
    exact outside.imp (Nat.lt_trans younger) fun captured layer mem =>
      captured layer (List.mem_cons_of_mem _ mem)

theorem Stands.capture (stands : w.Stands env layers) :
    w.Stands env (layers.map Layer.capture) := by
  induction stands with
  | root there enclosing shows => exact .root there enclosing shows.capture
  | inner there enclosing younger shows _ ih =>
    exact .inner there enclosing younger shows.capture ih

/-- Nothing stands inside layers of which one has declared a name twice. -/
theorem Stands.alive (stands : w.Stands env layers) : layers.dead = false := by
  induction stands with
  | root _ _ shows => simp [Layers.dead, shows.distinct]
  | inner _ _ _ shows _ ih =>
    rw [Layers.dead] at ih ⊢
    simp [shows.distinct, ih]

theorem Stands.finds_of_resolves (stands : w.Stands env layers)
    (resolves : layers.resolves name type = true) : layers.finds name type = true := by
  rwa [Layers.resolves, stands.alive, Bool.false_or] at resolves

/-- Every variable of a scope is planned. -/
def Planned (w : World) : Prop :=
  ∀ location frame name, w.heap.frame? location = some frame →
    frame.bindings.contains name = true →
    ∃ type, Parameters.get? (w.plan location) name = some type

/-- The search for a variable ends at one that is planned with the type that the layers find. -/
theorem Stands.type_of_holder (stands : w.Stands env layers) (planned : w.Planned)
    (finds : layers.finds name type = true) {steps : Nat}
    (found : w.heap.holderWithin name steps env = some (location, binding)) :
    Parameters.get? (w.plan location) name = some type := by
  have own {env : Location} {frame : Store.Frame} {layer : Layer} {outer : Layers}
      {binding : Binding} (there : w.heap.frame? env = some frame)
      (shows : layer.Shows (w.plan env) frame)
      (finds : Layers.finds (layer :: outer) name type = true)
      (bound : frame.bindings.get? name = some binding) :
      Parameters.get? (w.plan env) name = some type := by
    have contains : frame.bindings.contains name = true := by
      rw [Table.contains, bound]
      rfl
    obtain ⟨known, plan⟩ := planned env frame name there contains
    rw [plan, shows.type_of_bound finds contains plan]
  induction steps generalizing env layers with
  | zero => cases found
  | succ steps ih =>
    cases stands with
    | root there enclosing shows =>
      rw [Store.holderWithin, Store.frame_of_frame? there] at found
      split at found
      · rename_i bound
        cases found
        exact own there shows finds bound
      · rw [enclosing] at found
        cases found
    | inner there enclosing _ shows around =>
      rw [Store.holderWithin, Store.frame_of_frame? there] at found
      split at found
      · rename_i bound
        cases found
        exact own there shows finds bound
      · rename_i free
        rw [enclosing] at found
        exact ih around (shows.finds_of_free finds free) found

end World

/-- A closure that stands inside the layers that its uses have been checked against. No other
callable has a body here. -/
def Callable.Placed (w : World) : Callable → Prop
  | .closure header body scope =>
    ∃ layers, (∀ layer ∈ layers, layer.captured = true) ∧ w.Stands scope layers ∧
      Node.bodyUses Layers.resolves header.type.parameters layers body = true
  | .constructor _ => True
  | .function _ _ | .native _ => False

def Value.Placed (w : World) : Value → Prop
  | .callable c => c.Placed w
  | _ => True

namespace World

/-- A value of a type, which stands where it has to if it is a closure. -/
structure Good (w : World) (type : Ty) (value : Value) : Prop where
  fits : value.Fits .builtin type
  placed : value.Placed w

/-- A frame that keeps to its plan, and in which no module is in use. -/
structure Allows (w : World) (plan : Parameters) (frame : Store.Frame) : Prop where
  values : ∀ name value, frame.value? name = some value →
    ∃ type, Parameters.get? plan name = some type ∧ w.Good type value
  callables : ∀ name callable, frame.function? name = some callable → callable.Placed w ∧
    ∀ type, Declarations.builtin.functions name type →
      callable.Sound .builtin ∧ callable.type = type
  expanded : frame.expanded = []

def Valid (w : World) : Prop :=
  ∀ location frame, w.heap.frame? location = some frame → w.Allows (w.plan location) frame

/-- The world behind the opening of a scope. -/
def enter (w : World) (outside : Location) (site : CallSite) (plan : Parameters) : World where
  plan location := if location = w.heap.next then plan else w.plan location
  heap := w.heap.add (.create (some outside) (some site))

/-- The world behind the declaration of a variable or an assignment. -/
def set (w : World) (env : Location) (name : String) (binding : Binding) : World :=
  ⟨w.plan, w.heap.setVariable env name binding⟩

variable {w w' : World} {env other location outside : Location} {layers outer : Layers}
  {name : String} {type : Ty} {value : Value} {binding : Binding} {frame : Store.Frame}
  {plan now rest : Parameters} {site : CallSite} {callable : Callable}

theorem placed_of_later (evolves : w.Later env w') (placed : callable.Placed w) :
    callable.Placed w' := by
  cases callable with
  | closure =>
    obtain ⟨layers, captured, stands, uses⟩ := placed
    exact ⟨layers, captured, stands.later evolves (.inr captured), uses⟩
  | constructor => trivial
  | function | native => cases placed

theorem value_placed_of_later (evolves : w.Later env w') (placed : value.Placed w) :
    value.Placed w' := by
  cases value with
  | callable => exact placed_of_later evolves placed
  | _ => trivial

theorem Good.later (good : w.Good type value) (evolves : w.Later env w') : w'.Good type value :=
  ⟨good.fits, value_placed_of_later evolves good.placed⟩

theorem Good.of_accepts {wider : Ty} (good : w.Good type value)
    (accepts : wider.accepts type = true) : w.Good wider value :=
  ⟨good.fits.of_accepts accepts, good.placed⟩

theorem Allows.later (allows : w.Allows plan frame) (evolves : w.Later env w') :
    w'.Allows plan frame where
  values := by
    intro name value found
    obtain ⟨type, planned, good⟩ := allows.values name value found
    exact ⟨type, planned, good.later evolves⟩
  callables := by
    intro name callable found
    obtain ⟨placed, sound⟩ := allows.callables name callable found
    exact ⟨placed_of_later evolves placed, sound⟩
  expanded := allows.expanded

theorem Valid.planned (valid : w.Valid) : w.Planned := by
  intro location frame name there bound
  obtain ⟨binding, own⟩ := Option.isSome_iff_exists.mp bound
  have value : frame.value? name = some binding.value := by
    rw [Store.Frame.value?, own]
    rfl
  obtain ⟨type, planned, -⟩ := (valid location frame there).values name _ value
  exact ⟨type, planned⟩

theorem later_enter : w.Later env (w.enter outside site plan) where
  plan := fun _ inside => if_neg (Nat.ne_of_lt inside)
  heap := Store.evolves_add

theorem Valid.enter (valid : w.Valid) : (w.enter outside site plan).Valid := by
  intro location frame there
  have evolves : w.Later w.heap.next (w.enter outside site plan) := later_enter
  rw [World.enter, Store.frame?_add] at there
  split at there
  · cases there
    exact ⟨nofun, nofun, rfl⟩
  · rw [evolves.plan location (Store.lt_next_of_frame? there)]
    exact (valid location frame there).later evolves

/-- A new scope stands inside a layer of its own, where everything is declared later. -/
theorem Stands.enter (stands : w.Stands outside layers) :
    (w.enter outside site plan).Stands w.heap.next (⟨[], plan, false⟩ :: layers) := by
  have evolves : w.Later w.heap.next (w.enter outside site plan) := later_enter
  refine .inner Store.frame?_add_next rfl stands.lt_next ⟨if_pos rfl, List.nodup_nil, ?_, ?_⟩
    (stands.later evolves (.inl stands.lt_next))
  · exact List.forall_mem_nil _
  · intro _ name bound
    cases bound

theorem later_declare (free : w.heap.contains env name = false) :
    w.Later env (w.set env name binding) :=
  ⟨fun _ _ => rfl, Store.evolves_declare free⟩

theorem later_assign {previous : Value}
    (found : w.heap.holder? other name = some (location, ⟨previous, .mutable⟩)) :
    w.Later env (w.set location name ⟨value, .mutable⟩) :=
  ⟨fun _ _ => rfl, Store.evolves_assign found⟩

theorem Valid.set (valid : w.Valid) (evolves : w.Later other (w.set env name binding))
    (planned : Parameters.get? (w.plan env) name = some type) (good : w.Good type binding.value) :
    (w.set env name binding).Valid := by
  intro location frame there
  obtain ⟨old, was, ⟨rfl, -⟩ | ⟨rfl, rfl⟩⟩ := Store.of_frame?_update there
  · exact (valid location frame was).later evolves
  · have allows := (valid env old was).later evolves
    refine ⟨fun name' value' found => ?_, allows.callables, allows.expanded⟩
    rcases Store.Frame.of_value?_insert found with ⟨rfl, rfl⟩ | before
    · exact ⟨type, planned, good.later evolves⟩
    · exact allows.values name' value' before

/-- The variable that is to be declared next is planned, and standing behind its declaration is
standing in the layer that has declared it. -/
theorem Stands.declare (stands : w.Stands env (⟨now, (name, type) :: rest, false⟩ :: outer))
    (free : w.heap.contains env name = false) :
    Parameters.get? (w.plan env) name = some type ∧
      (w.set env name binding).Stands env (⟨now ++ [(name, type)], rest, false⟩ :: outer) := by
  have evolves : w.Later env (w.set env name binding) := later_declare free
  cases stands with
  | root there enclosing shows =>
    rw [Store.contains, Store.frame_of_frame? there] at free
    obtain ⟨planned, shows'⟩ := shows.declare free
    exact ⟨planned, .root (Store.frame?_update_self there) enclosing shows'⟩
  | inner there enclosing younger shows around =>
    rw [Store.contains, Store.frame_of_frame? there] at free
    obtain ⟨planned, shows'⟩ := shows.declare free
    refine ⟨planned, .inner (Store.frame?_update_self there) enclosing younger shows' ?_⟩
    exact around.later evolves (.inl younger)

end World

end ScriptCore
