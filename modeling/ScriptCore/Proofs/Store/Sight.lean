import ScriptCore.Proofs.Node.Resolved
import ScriptCore.Proofs.Store.Evolution
import ScriptCore.Store.Lookup

/-!
# Names in sight of a scope

A name is in sight of a scope if it is bound in the nearest of the frames around the scope that
have it at all. `Sees env context` says so of every name of a context, and which function it is for
the name of a function. Every step of a first-order program keeps what its scope sees.
-/
namespace ScriptCore.Store

/-- What `own` gives at the nearest frame that has it, on links to older frames alone. -/
inductive Finds {α : Type} (store : Store) (own : Frame → Option α) : Location → α → Prop
  | here {env : Location} {frame : Frame} {found : α} (there : store.frame? env = some frame)
      (bound : own frame = some found) : Finds store own env found
  | outward {env outer : Location} {frame : Frame} {found : α}
      (there : store.frame? env = some frame) (free : own frame = none)
      (link : frame.enclosing = some outer) (older : outer < env)
      (rest : Finds store own outer found) : Finds store own env found

section Finds

variable {α : Type} {store old new : Store} {own : Frame → Option α} {env : Location} {found : α}

theorem Finds.findWithin (finds : store.Finds own env found) {steps : Nat} (enough : env < steps) :
    store.findWithin own steps env = some found := by
  induction finds generalizing steps with
  | here there bound =>
    obtain ⟨steps, rfl⟩ := Nat.exists_eq_add_one_of_ne_zero (Nat.ne_zero_of_lt enough)
    simp only [Store.findWithin, there, bound]
  | @outward env outer frame found there free link older rest ih =>
    obtain ⟨steps, rfl⟩ := Nat.exists_eq_add_one_of_ne_zero (Nat.ne_zero_of_lt enough)
    have outside : store.findWithin own steps outer = some found :=
      ih (Nat.lt_of_lt_of_le older (Nat.le_of_lt_succ enough))
    simp only [Store.findWithin, there, free, link, Option.bind_some, outside]

theorem Finds.find (finds : store.Finds own env found) : store.find env own = some found :=
  finds.findWithin (Nat.lt_succ_self env)

/-- Frames that have the same to offer give the same. -/
theorem Finds.same (finds : old.Finds own env found)
    (frames : ∀ location frame, location ≤ env → old.frame? location = some frame →
      ∃ frame', new.frame? location = some frame' ∧ frame'.enclosing = frame.enclosing ∧
        own frame' = own frame) :
    new.Finds own env found := by
  induction finds with
  | @here env frame found there bound =>
    obtain ⟨frame', there', -, same⟩ := frames env frame (Nat.le_refl env) there
    exact .here there' (same.trans bound)
  | @outward env outer frame found there free link older rest ih =>
    obtain ⟨frame', there', linked, same⟩ := frames env frame (Nat.le_refl env) there
    refine .outward there' (same.trans free) (linked.trans link) older (ih ?_)
    exact fun location frame below =>
      frames location frame (Nat.le_trans below (Nat.le_of_lt older))

/-- Frames that have no less to offer give something. -/
theorem Finds.more (finds : old.Finds own env found)
    (frames : ∀ location frame, location ≤ env → old.frame? location = some frame →
      ∃ frame', new.frame? location = some frame' ∧ frame'.enclosing = frame.enclosing ∧
        ∀ a, own frame = some a → ∃ b, own frame' = some b) :
    ∃ other, new.Finds own env other := by
  induction finds with
  | @here env frame found there bound =>
    obtain ⟨frame', there', -, more⟩ := frames env frame (Nat.le_refl env) there
    obtain ⟨other, bound'⟩ := more found bound
    exact ⟨other, .here there' bound'⟩
  | @outward env outer frame found there free link older rest ih =>
    obtain ⟨frame', there', linked, -⟩ := frames env frame (Nat.le_refl env) there
    obtain ⟨other, found'⟩ := ih fun location frame below =>
      frames location frame (Nat.le_trans below (Nat.le_of_lt older))
    cases bound : own frame' with
    | none => exact ⟨other, .outward there' bound (linked.trans link) older found'⟩
    | some nearer => exact ⟨nearer, .here there' bound⟩

end Finds

/-- The item is in sight of the scope. -/
def Shows (store : Store) (env : Location) : Item → Prop
  | .var name => ∃ value, store.Finds (Frame.value? name) env value
  | .fn name callable => store.Finds (Frame.function? name) env callable

structure Sees (env : Location) (context : Context) (store : Store) : Prop where
  inside : env < store.next
  shows : ∀ item ∈ context, store.Shows env item

/-- A later form of a frame in which the names of a context are as they were. -/
structure Frame.Serves (context : Context) (old new : Frame) : Prop where
  enclosing : new.enclosing = old.enclosing
  values : ∀ name value, old.value? name = some value → ∃ value', new.value? name = some value'
  functions : ∀ name callable, .fn name callable ∈ context → new.function? name = old.function? name

theorem Frame.Grows.value? {old new : Frame} (grows : old.Grows new) {name : String} {value : Value}
    (bound : old.value? name = some value) : ∃ value', new.value? name = some value' := by
  obtain ⟨binding, there, -⟩ := Option.map_eq_some_iff.mp bound
  obtain ⟨value', there', -⟩ := grows.bindings name binding there
  exact ⟨value', Option.map_eq_some_iff.mpr ⟨_, there', rfl⟩⟩

section Sees

variable {store old new : Store} {env inner : Location} {context fewer : Context} {name : String}
  {callable : Callable}

theorem Sees.mono (sees : store.Sees env context) (subset : fewer ⊆ context) :
    store.Sees env fewer :=
  ⟨sees.inside, fun item mem => sees.shows item (subset mem)⟩

/-- What is seen depends on the frames up to the scope alone. -/
theorem Sees.of_frames (sees : old.Sees env context)
    (frames : ∀ location frame, location ≤ env → old.frame? location = some frame →
      ∃ frame', new.frame? location = some frame' ∧ frame.Serves context frame') :
    new.Sees env context where
  inside := by
    obtain ⟨frame, there⟩ := exists_of_lt_next sees.inside
    obtain ⟨frame', there', -⟩ := frames env frame (Nat.le_refl env) there
    exact lt_next_of_frame? there'
  shows := by
    intro item mem
    have shown := sees.shows item mem
    cases item with
    | var name =>
      obtain ⟨value, finds⟩ := shown
      refine finds.more fun location frame below there => ?_
      obtain ⟨frame', there', serves⟩ := frames location frame below there
      exact ⟨frame', there', serves.enclosing, serves.values name⟩
    | fn name callable =>
      refine Finds.same shown fun location frame below there => ?_
      obtain ⟨frame', there', serves⟩ := frames location frame below there
      exact ⟨frame', there', serves.enclosing, serves.functions name callable mem⟩

/-- Evaluation in a younger scope takes nothing out of sight. -/
theorem Sees.evolves (sees : old.Sees env context) (evolves : Evolves inner old new)
    (younger : env < inner) : new.Sees env context := by
  refine sees.of_frames fun location frame below there => ?_
  obtain ⟨frame', there', grows, names⟩ := evolves location frame there
  have same := names (Nat.ne_of_lt (Nat.lt_of_le_of_lt below younger))
  refine ⟨frame', there', grows.enclosing, fun _ _ => grows.value?, fun name _ _ => ?_⟩
  rw [Frame.function?, Frame.function?, same.functions]

/-- Work in a new scope takes nothing out of sight. -/
theorem Sees.of_child (sees : old.Sees env context) {frame : Frame}
    (evolves : Evolves old.next (old.add frame) new) : new.Sees env context := by
  have outside : Evolves old.next old new := evolves.of_child
  exact sees.evolves outside sees.inside

/-- A new scope sees what the scope around it does. -/
theorem Sees.enter (sees : store.Sees env context) {site : CallSite} :
    (store.add (.create (some env) (some site))).Sees store.next context where
  inside := lt_next_of_frame? frame?_add_next
  shows := by
    have outside : (store.add (.create (some env) (some site))).Sees env context :=
      sees.evolves evolves_add sees.inside
    intro item mem
    have shown := outside.shows item mem
    cases item with
    | var name =>
      obtain ⟨value, finds⟩ := shown
      exact ⟨value, .outward frame?_add_next rfl rfl sees.inside finds⟩
    | fn name callable => exact .outward frame?_add_next rfl rfl sees.inside shown

/-- A change of the frame of the scope takes nothing out of sight if the frame serves as before. -/
theorem Sees.update (sees : store.Sees env context) {change : Frame → Frame}
    (serves : ∀ frame : Frame, frame.Serves context (change frame)) :
    (store.update env change).Sees env context := by
  refine sees.of_frames fun location frame _ there => ?_
  by_cases own : env = location
  · subst own
    exact ⟨_, frame?_update_self there, serves frame⟩
  · have same : (store.update env change).frame? location = some frame := by
      rw [frame?_update, if_neg own, there]
    exact ⟨frame, same, rfl, fun _ value bound => ⟨value, bound⟩, fun _ _ _ => rfl⟩

theorem Sees.declare (sees : store.Sees env context) {binding : Binding} :
    (store.setVariable env name binding).Sees env (.var name :: context) := by
  have serves (frame : Frame) : frame.Serves context
      { frame with bindings := frame.bindings.insert name binding } := by
    refine ⟨rfl, fun other value bound => ?_, fun _ _ _ => rfl⟩
    by_cases same : name = other
    · subst same
      exact ⟨binding.value, by rw [Frame.value?, Table.get?_insert_self]; rfl⟩
    · exact ⟨value, by rwa [Frame.value?, Table.get?_insert_of_ne _ _ same]⟩
  have before : (store.setVariable env name binding).Sees env context := sees.update serves
  refine ⟨before.inside, List.forall_mem_cons.mpr ⟨?_, before.shows⟩⟩
  obtain ⟨frame, there⟩ := exists_of_lt_next sees.inside
  refine ⟨binding.value, .here (frame?_update_self there) ?_⟩
  rw [Frame.value?, Table.get?_insert_self]
  rfl

theorem Sees.declareFunction (sees : store.Sees env context) (fresh : context.Fresh name) :
    (store.declareFunction env name callable).Sees env (.fn name callable :: context) := by
  have serves (frame : Frame) : frame.Serves context
      { frame with functions := frame.functions.insert name callable } := by
    refine ⟨rfl, fun _ value bound => ⟨value, bound⟩, fun other known mem => ?_⟩
    have different : name ≠ other := by
      rintro rfl
      exact fresh known mem
    exact Table.get?_insert_of_ne _ _ different
  have before : (store.declareFunction env name callable).Sees env context := sees.update serves
  refine ⟨before.inside, List.forall_mem_cons.mpr ⟨?_, before.shows⟩⟩
  obtain ⟨frame, there⟩ := exists_of_lt_next sees.inside
  exact .here (frame?_update_self there) (Table.get?_insert_self _ _ _)

theorem Sees.assign (sees : store.Sees env context) {holder : Location} {value previous : Value}
    (found : store.holder? env name = some (holder, ⟨previous, .mutable⟩)) :
    (store.setVariable holder name ⟨value, .mutable⟩).Sees env context := by
  have evolves : Evolves store.next store (store.setVariable holder name ⟨value, .mutable⟩) :=
    evolves_assign found
  exact sees.evolves evolves sees.inside

/-- A store and its heap have the same frames. -/
theorem Finds.of_heap {α : Type} {own : Frame → Option α} {found : α}
    (finds : ({ store with held := [] } : Store).Finds own env found) :
    store.Finds own env found :=
  finds.same fun _ frame _ there => ⟨frame, there, rfl, rfl⟩

theorem holderWithin_of_finds {value : Value} (finds : store.Finds (Frame.value? name) env value)
    {steps : Nat} (enough : env < steps) :
    ∃ holder binding, store.holderWithin name steps env = some (holder, binding) := by
  induction finds generalizing steps with
  | @here env frame found there bound =>
    obtain ⟨steps, rfl⟩ := Nat.exists_eq_add_one_of_ne_zero (Nat.ne_zero_of_lt enough)
    obtain ⟨binding, there', -⟩ := Option.map_eq_some_iff.mp bound
    refine ⟨env, binding, ?_⟩
    simp only [holderWithin, frame_of_frame? there, there']
  | @outward env outer frame found there free link older rest ih =>
    obtain ⟨steps, rfl⟩ := Nat.exists_eq_add_one_of_ne_zero (Nat.ne_zero_of_lt enough)
    obtain ⟨holder, binding, outside⟩ :
        ∃ holder binding, store.holderWithin name steps outer = some (holder, binding) :=
      ih (Nat.lt_of_lt_of_le older (Nat.le_of_lt_succ enough))
    have absent := Option.map_eq_none_iff.mp free
    refine ⟨holder, binding, ?_⟩
    simp only [holderWithin, frame_of_frame? there, absent, link, outside]

/-- A variable in sight has a holder. -/
theorem Sees.holder? (sees : store.Sees env context) (bound : .var name ∈ context) :
    store.holder? env name ≠ none := by
  obtain ⟨value, finds⟩ := sees.shows _ bound
  obtain ⟨holder, binding, found⟩ := holderWithin_of_finds finds (Nat.lt_succ_self env)
  rw [Store.holder?, found]
  exact Option.some_ne_none _

end Sees

end ScriptCore.Store
