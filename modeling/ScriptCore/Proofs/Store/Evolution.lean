import ScriptCore.Proofs.Store.Frames

/-!
# Evolution of a store

Evaluation in a scope declares in that scope and in new ones alone. Every frame that was there
before keeps its place in the tree and its bindings. Any other frame than that of the scope keeps
its names as well, so that only the values of mutable variables change in it.
-/
namespace ScriptCore.Store

namespace Frame

/-- A later form of a frame. What is bound stays bound, and an immutable variable keeps its
value. -/
structure Grows (old new : Frame) : Prop where
  enclosing : new.enclosing = old.enclosing
  callSite : new.callSite = old.callSite
  bindings : ∀ name binding, old.bindings.get? name = some binding →
    ∃ value, new.bindings.get? name = some ⟨value, binding.mutability⟩ ∧
      (binding.mutability = .immutable → value = binding.value)
  functions : ∀ name, old.functions.contains name = true → new.functions.contains name = true
  expanded : old.expanded <+: new.expanded

/-- A form of a frame with the same names. -/
structure KeepsNames (old new : Frame) : Prop where
  bindings : ∀ name, new.bindings.contains name = old.bindings.contains name
  functions : new.functions = old.functions
  expanded : new.expanded = old.expanded

variable {old middle new frame : Frame} {name : String}

theorem Grows.refl : frame.Grows frame where
  enclosing := rfl
  callSite := rfl
  bindings := fun _ binding bound => ⟨binding.value, bound, fun _ => rfl⟩
  functions := fun _ known => known
  expanded := List.prefix_refl _

theorem Grows.trans (first : old.Grows middle) (second : middle.Grows new) : old.Grows new where
  enclosing := second.enclosing.trans first.enclosing
  callSite := second.callSite.trans first.callSite
  bindings := by
    intro name binding bound
    obtain ⟨value, between, kept⟩ := first.bindings name binding bound
    obtain ⟨value', after, kept'⟩ := second.bindings name _ between
    exact ⟨value', after, fun immutable => (kept' immutable).trans (kept immutable)⟩
  functions := fun name known => second.functions name (first.functions name known)
  expanded := first.expanded.trans second.expanded

theorem KeepsNames.refl : frame.KeepsNames frame := ⟨fun _ => rfl, rfl, rfl⟩

theorem KeepsNames.trans (first : old.KeepsNames middle) (second : middle.KeepsNames new) :
    old.KeepsNames new where
  bindings := fun name => (second.bindings name).trans (first.bindings name)
  functions := second.functions.trans first.functions
  expanded := second.expanded.trans first.expanded

theorem grows_declare {binding : Binding} (free : frame.bindings.contains name = false) :
    frame.Grows { frame with bindings := frame.bindings.insert name binding } :=
  { Grows.refl with
    bindings := by
      intro other bound there
      have different : name ≠ other := by
        rintro rfl
        simp [Table.contains, there] at free
      refine ⟨bound.value, ?_, fun _ => rfl⟩
      rw [Table.get?_insert_of_ne _ _ different, there] }

theorem grows_assign {value : Value} {previous : Value}
    (bound : frame.bindings.get? name = some ⟨previous, .mutable⟩) :
    frame.Grows { frame with bindings := frame.bindings.insert name ⟨value, .mutable⟩ } :=
  { Grows.refl with
    bindings := by
      intro other binding there
      rw [Table.get?_insert]
      split
      · rename_i same
        obtain rfl : ⟨previous, .mutable⟩ = binding := by simpa [← same, bound] using there
        exact ⟨value, rfl, nofun⟩
      · exact ⟨binding.value, there, fun _ => rfl⟩ }

theorem keepsNames_assign {binding : Binding} (bound : frame.bindings.contains name = true) :
    frame.KeepsNames { frame with bindings := frame.bindings.insert name binding } where
  bindings := by
    intro other
    simp only [Table.contains, Table.get?_insert]
    split
    · rename_i same
      exact (same ▸ bound : frame.bindings.contains other = true).symm
    · rfl
  functions := rfl
  expanded := rfl

theorem grows_declareFunction {callable : Callable} :
    frame.Grows { frame with functions := frame.functions.insert name callable } :=
  { Grows.refl with
    functions := by
      intro other known
      simp only [Table.contains, Table.get?_insert]
      split
      · rfl
      · exact known }

theorem grows_expand {module : Location} :
    frame.Grows { frame with expanded := frame.expanded ++ [module] } :=
  { Grows.refl with expanded := List.prefix_append _ _ }

end Frame

/-- What evaluation in `env` may do to the frames of a store. -/
def Evolves (env : Location) (old new : Store) : Prop :=
  ∀ location frame, old.frame? location = some frame →
    ∃ frame', new.frame? location = some frame' ∧ frame.Grows frame' ∧
      (location ≠ env → frame.KeepsNames frame')

variable {env other location : Location} {store old middle new : Store} {name : String}

theorem Evolves.refl : Evolves env store store :=
  fun _ frame there => ⟨frame, there, .refl, fun _ => .refl⟩

theorem Evolves.trans (first : Evolves env old middle) (second : Evolves env middle new) :
    Evolves env old new := by
  intro location frame there
  obtain ⟨frame₁, there₁, grows₁, names₁⟩ := first location frame there
  obtain ⟨frame₂, there₂, grows₂, names₂⟩ := second location frame₁ there₁
  exact ⟨frame₂, there₂, grows₁.trans grows₂, fun outside =>
    (names₁ outside).trans (names₂ outside)⟩

/-- A new frame leaves the others alone. -/
theorem evolves_add {frame : Frame} : Evolves env store (store.add frame) := by
  intro location old there
  exact ⟨old, frame?_add_of_frame? there, .refl, fun _ => .refl⟩

/-- What happens in a new scope leaves no trace in the scopes that were there before. -/
theorem Evolves.of_child {frame : Frame} (inner : Evolves store.next (store.add frame) new) :
    Evolves env store new := by
  intro location old there
  have inside : location ≠ store.next := Nat.ne_of_lt (lt_next_of_frame? there)
  obtain ⟨frame', later, grows, names⟩ := inner location old (frame?_add_of_frame? there)
  exact ⟨frame', later, grows, fun _ => names inside⟩

theorem evolves_update {change : Frame → Frame}
    (grows : ∀ frame, store.frame? location = some frame → frame.Grows (change frame))
    (names : location ≠ env → ∀ frame, store.frame? location = some frame →
      frame.KeepsNames (change frame)) :
    Evolves env store (store.update location change) := by
  intro other frame there
  rw [frame?_update]
  split
  · rename_i same
    subst same
    exact ⟨change frame, by rw [there]; rfl, grows frame there, fun outside =>
      names outside frame there⟩
  · exact ⟨frame, there, .refl, fun _ => .refl⟩

theorem evolves_declare {binding : Binding} (free : store.contains env name = false) :
    Evolves env store (store.setVariable env name binding) := by
  refine evolves_update (fun frame there => Frame.grows_declare ?_) fun outside => absurd rfl outside
  rw [contains, frame_of_frame? there] at free
  exact free

/-- The scope that holds a variable has a binding of it. -/
theorem get?_of_holderWithin {steps : Nat} {binding : Binding}
    (found : store.holderWithin name steps env = some (location, binding)) :
    (store.frame location).bindings.get? name = some binding := by
  induction steps generalizing env with
  | zero => cases found
  | succ steps ih =>
    rw [holderWithin] at found
    split at found
    · rename_i bound
      cases found
      exact bound
    · split at found
      · exact ih found
      · cases found

/-- The variable that an assignment reaches is one of a frame of the store. -/
theorem frame?_of_holder? {binding : Binding}
    (found : store.holder? env name = some (location, binding)) :
    ∃ frame, store.frame? location = some frame ∧ frame.bindings.get? name = some binding := by
  have bound := get?_of_holderWithin found
  cases there : store.frame? location with
  | none =>
    rw [Store.frame, there] at bound
    cases bound
  | some frame => exact ⟨frame, rfl, frame_of_frame? there ▸ bound⟩

theorem evolves_assign {value previous : Value}
    (found : store.holder? other name = some (location, ⟨previous, .mutable⟩)) :
    Evolves env store (store.setVariable location name ⟨value, .mutable⟩) := by
  have bound : ∀ frame, store.frame? location = some frame →
      frame.bindings.get? name = some ⟨previous, .mutable⟩ := by
    intro frame there
    rw [← frame_of_frame? there]
    exact get?_of_holderWithin found
  refine evolves_update (fun frame there => Frame.grows_assign (bound frame there)) ?_
  intro _ frame there
  refine Frame.keepsNames_assign ?_
  rw [Table.contains, bound frame there]
  rfl

theorem evolves_declareFunction {callable : Callable} :
    Evolves env store (store.declareFunction env name callable) :=
  evolves_update (fun _ _ => Frame.grows_declareFunction) fun outside => absurd rfl outside

theorem evolves_expand {module : Location} : Evolves env store (store.expand env module) := by
  rw [expand]
  split
  · exact .refl
  · exact evolves_update (fun _ _ => Frame.grows_expand) fun outside => absurd rfl outside

end ScriptCore.Store
