import ScriptCore.Store.Basic

/-!
# The frames of a store

What each operation on a store does to the frame at each location.
-/
namespace ScriptCore.Store

variable {store : Store} {env location : Location}

theorem next_add {new : Frame} : (store.add new).next = store.next + 1 := Array.size_push _

theorem next_update {change : Frame → Frame} : (store.update env change).next = store.next :=
  Array.size_modify

theorem frame?_add {new : Frame} :
    (store.add new).frame? location =
      if location = store.next then some new else store.frame? location :=
  Array.getElem?_push

theorem frame?_update {change : Frame → Frame} :
    (store.update env change).frame? location =
      if env = location then (store.frame? location).map change else store.frame? location :=
  Array.getElem?_modify

theorem frame?_add_next {new : Frame} : (store.add new).frame? store.next = some new := by
  rw [frame?_add, if_pos rfl]

theorem frame?_update_self {change : Frame → Frame} {frame : Frame}
    (there : store.frame? env = some frame) :
    (store.update env change).frame? env = some (change frame) := by
  rw [frame?_update, if_pos rfl, there]
  rfl

theorem exists_of_lt_next (inside : env < store.next) : ∃ frame, store.frame? env = some frame :=
  ⟨_, Array.getElem?_eq_getElem inside⟩

theorem lt_next_of_frame? {frame : Frame} (there : store.frame? location = some frame) :
    location < store.next :=
  (Array.getElem?_eq_some_iff.mp there).1

/-- A new frame takes no other's place. -/
theorem frame?_add_of_frame? {new frame : Frame} (there : store.frame? location = some frame) :
    (store.add new).frame? location = some frame := by
  rw [frame?_add, if_neg (Nat.ne_of_lt (lt_next_of_frame? there)), there]

theorem frame_of_frame? {frame : Frame} (there : store.frame? location = some frame) :
    store.frame location = frame := by
  rw [Store.frame, there]
  rfl

/-- A frame behind an update is the frame before it, changed if it is the one that is updated. -/
theorem of_frame?_update {change : Frame → Frame} {frame : Frame}
    (there : (store.update env change).frame? location = some frame) :
    ∃ old, store.frame? location = some old ∧
      (frame = old ∧ env ≠ location ∨ frame = change old ∧ env = location) := by
  rw [frame?_update] at there
  split at there
  · rename_i same
    obtain ⟨old, found, rfl⟩ := Option.map_eq_some_iff.mp there
    exact ⟨old, found, .inr ⟨rfl, same⟩⟩
  · rename_i other
    exact ⟨frame, there, .inl ⟨rfl, other⟩⟩

theorem frame_add_next {new : Frame} : (store.add new).frame store.next = new := by
  rw [Store.frame, frame?_add_next]
  rfl

/-- What holds of all frames and of a new one holds of all frames then. -/
theorem forall_frame_add {holds : Frame → Prop}
    (all : ∀ location frame, store.frame? location = some frame → holds frame) {new : Frame}
    (holdsNew : holds new) :
    ∀ location frame, (store.add new).frame? location = some frame → holds frame := by
  intro location frame there
  rw [frame?_add] at there
  split at there
  · cases there
    exact holdsNew
  · exact all location frame there

theorem forall_frame_update {holds : Frame → Prop}
    (all : ∀ location frame, store.frame? location = some frame → holds frame)
    {change : Frame → Frame} (keeps : ∀ frame, holds frame → holds (change frame)) :
    ∀ location frame, (store.update env change).frame? location = some frame → holds frame := by
  intro location frame there
  obtain ⟨old, found, ⟨rfl, -⟩ | ⟨rfl, -⟩⟩ := of_frame?_update there
  · exact all location frame found
  · exact keeps old (all location old found)

/-- What an update leaves alone in the frame is the same everywhere. -/
theorem view_frame_update {β : Type} (view : Frame → β) {change : Frame → Frame}
    (same : ∀ frame, view (change frame) = view frame) :
    view ((store.update env change).frame location) = view (store.frame location) := by
  simp only [Store.frame, frame?_update]
  split
  · cases store.frame? location with
    | none => rfl
    | some frame => exact same frame
  · rfl

/-- What evaluation holds on to makes no difference to where a variable is. -/
theorem holderWithin_held (held : List Location) (name : String) (steps : Nat) :
    ({ store with held := held } : Store).holderWithin name steps env =
      store.holderWithin name steps env := by
  induction steps generalizing env with
  | zero => rfl
  | succ steps ih =>
    simp only [holderWithin, ih]
    rfl

section Insertions

variable {frame : Frame} {name other : String}

/-- A variable has the value that it is given, and the others have theirs. -/
theorem Frame.of_value?_insert {binding : Binding} {value : Value}
    (found : ({ frame with bindings := frame.bindings.insert name binding } : Frame).value? other =
      some value) : name = other ∧ binding.value = value ∨ frame.value? other = some value := by
  simp only [value?, Table.get?_insert] at found
  split at found
  · rename_i same
    exact .inl ⟨same, Option.some.inj found⟩
  · exact .inr found

theorem Frame.of_function?_insert {callable declared : Callable}
    (found : ({ frame with functions := frame.functions.insert name declared } : Frame).function?
      other = some callable) :
    name = other ∧ declared = callable ∨ frame.function? other = some callable := by
  simp only [function?, Table.get?_insert] at found
  split at found
  · rename_i same
    exact .inl ⟨same, Option.some.inj found⟩
  · exact .inr found

end Insertions

theorem contains_declareFunction {name other : String} {callable : Callable} :
    (store.declareFunction env name callable).contains location other =
      store.contains location other :=
  view_frame_update (fun frame => frame.bindings.contains other) fun _ => rfl

end ScriptCore.Store
